import Slashclaw.Store.Listing

namespace Slashclaw

-- Modelled from the spec: a client that calls `ListStories` with the empty cursor and passes each
-- `next_cursor` back until one is empty, making at most `fuel` calls; the pages it got, and whether
-- it saw an empty cursor.
def followCursor (s : Store) (now : Time) (sort : SortOrder) (limit : Int) : Nat → String → List (List Story) × Bool
  | 0, _ => ([], false)
  | n + 1, cursor =>
    let r := s.listStories now ⟨sort, limit, cursor⟩
    if r.2 = "" then ([r.1], true)
    else (r.1 :: (followCursor s now sort limit n r.2).1, (followCursor s now sort limit n r.2).2)

-- The cursor reaches no part of the query, so every page the client gets is the first one.
theorem followCursor_first_page (s : Store) (now : Time) (sort : SortOrder) (limit : Int) :
    ∀ (n : Nat) (cursor : String), ∀ p ∈ (followCursor s now sort limit n cursor).1,
      p = (s.listStories now ⟨sort, limit, ""⟩).1
  | 0, _, _, hp => nomatch hp
  | n + 1, cursor, p, hp => by
    simp only [followCursor] at hp
    split at hp
    · exact List.mem_singleton.mp hp
    · rcases List.mem_cons.mp hp with rfl | hp
      · rfl
      · exact followCursor_first_page s now sort limit n _ p hp

-- A story of the given id and creation time, visible.
def Story.ofID (id : String) (createdAt : Time) : Story :=
  ⟨id, "A story title", "", "some text", [], 0, 0, createdAt, false, "", false⟩

def twoStories : Store :=
  { Store.empty with stories := [Story.ofID "b" 2, Story.ofID "a" 1] }

theorem listStories_twoStories (cursor : String) :
    twoStories.listStories 0 ⟨.new, 1, cursor⟩ = ([Story.ofID "b" 2], "b") := by
  have hsort : (twoStories.stories.filter (!·.hidden)).mergeSort (storyOrder .new 0) =
      twoStories.stories.filter (!·.hidden) :=
    List.mergeSort_of_sorted (by decide)
  simp only [Store.listStories, hsort]
  decide

-- Two visible stories and pages of one: every call answers the newer story and its id as the next
-- cursor, so the client never stops and never sees the older story.
theorem listStories_cursor_loops : ∀ (n : Nat) (cursor : String),
    followCursor twoStories 0 .new 1 n cursor = (List.replicate n [Story.ofID "b" 2], false)
  | 0, _ => rfl
  | n + 1, cursor => by
    simp only [followCursor, listStories_twoStories, listStories_cursor_loops n]
    rfl

end Slashclaw
