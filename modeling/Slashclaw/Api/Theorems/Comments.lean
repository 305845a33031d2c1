import Slashclaw.Api.Routes
import Slashclaw.Execution.Schedule
import Slashclaw.Execution.Theorems.Trace
import Slashclaw.Store.Theorems.CommentTree

namespace Slashclaw

open Execution Relation

-- The ids of the comment rows are distinct, as the `PRIMARY KEY` keeps them.
def Store.CommentsUnique (s : Store) : Prop :=
  (s.comments.map (·.id)).Nodup

theorem map_id_map_comments (l : List Comment) {f : Comment → Comment} (hf : ∀ c, (f c).id = c.id) :
    (l.map f).map (·.id) = l.map (·.id) := by
  simp [List.map_map, Function.comp_def, hf]

-- A statement other than `CreateComment` keeps the ids of the comment rows.
theorem Prog.Event.apply_commentIDs (t : Time) (s : Store) {e : Effect} (a : e.Answer)
    (he : ∀ c, e ≠ .createComment c) : (apply t s ⟨e, a⟩).comments.map (·.id) = s.comments.map (·.id) := by
  cases e
  case createComment c => exact absurd rfl (he c)
  case updateCommentScore | hideComment =>
    rcases a with _ | ⟨⟩
    · rfl
    · exact map_id_map_comments _ fun c => by split <;> rfl
  case revokeAccountKey => rcases a with _ | ⟨⟩ <;> rfl
  all_goals first
    | rfl
    | (rcases a with _ | _ <;> rfl)

theorem Effect.Can.commentsUnique {s s' : Store} {e : Effect} {a : e.Answer} (h : Effect.Can s e a s')
    (hu : s.CommentsUnique) : s'.CommentsUnique := by
  by_cases he : ∃ c, e = .createComment c
  · obtain ⟨c, rfl⟩ := he
    obtain ⟨u, t, -, h⟩ := h
    rcases h.cases with ⟨_, -, rfl⟩ | ⟨b, hr, -⟩
    · exact hu
    · obtain ⟨hc, -, rfl⟩ := Store.createComment_eq_ok.mp hr
      simp only [Bool.or_eq_false_iff, List.any_eq_false, beq_iff_eq] at hc
      rw [Store.CommentsUnique, List.map_append, List.nodup_append]
      refine ⟨hu, List.nodup_singleton _, fun x hx hx' => ?_⟩
      obtain ⟨c', hc', rfl⟩ := List.mem_map.mp hx
      exact hc.1 c' hc' (List.mem_singleton.mp hx')
  · obtain ⟨t, rfl⟩ := h.apply
    unfold Store.CommentsUnique
    rw [Prog.Event.apply_commentIDs t s a fun c hc => he ⟨c, hc⟩]
    exact hu

theorem Store.commentRows_unique {st : Store} (hu : st.CommentsUnique) (storyID : String) (sort : SortOrder) :
    ((st.commentRows storyID sort).map (·.id)).Nodup :=
  ((List.mergeSort_perm _ _).map _).nodup_iff.mpr (hu.sublist ((List.filter_sublist _).map _))

-- What the tree view of `ListComments` shows of a story: the rows of the flat view, and over them a
-- forest that ends within as many levels as there are rows, repeats no comment, and holds exactly
-- the rows whose `ParentID` chain within the flat view ends at a comment with an empty `ParentID`.
def TreeView (st : Store) (storyID : String) (sort : SortOrder) : Prop :=
  let flat := (st.listComments storyID ⟨sort, .flat⟩).1
  ∃ f, st.listComments storyID ⟨sort, .tree⟩ = (flat, some f) ∧
    (∀ k, flat.length ≤ k → f.walk k f.roots = f.walk flat.length f.roots) ∧
    (f.walk flat.length f.roots).Nodup ∧ ∀ i, i ∈ f.walk flat.length f.roots ↔ ChainEnds flat i

namespace Handler

variable (h : Handler) (routing : Routing) {s : State ApiRequest Response}

theorem commentsUnique_of_reachable (hr : Reachable (h.serve routing) s) : s.world.store.CommentsUnique :=
  have ⟨_, hr⟩ := hr
  Step.store_inv _ (fun _ _ _ _ hc hu => hc.commentsUnique hu) (show Store.empty.CommentsUnique from .nil) hr

-- In every run, under either routing, for every story and order, the tree view is the forest the
-- flat view's `ParentID` chains give.
theorem listComments_tree (hreach : Reachable (h.serve routing) s) (storyID : String) (sort : SortOrder) :
    TreeView s.world.store storyID sort :=
  let rows := s.world.store.commentRows storyID sort
  ⟨buildCommentTree rows, rfl, fun _ hk => walk_buildCommentTree_stable rows hk, walk_buildCommentTree_nodup rows _,
    mem_walk_buildCommentTree (Store.commentRows_unique (h.commentsUnique_of_reachable routing hreach) storyID sort)⟩

-- A story, a comment on it and a reply to the comment; then the admin hides the comment.
def hiddenParentSchedule : List (Action ApiRequest) :=
  [.spawn ⟨.createStory (some ⟨"A story title", "", "some text", []⟩), .ofHeaders "" ""⟩] ++
    List.replicate 2 (.exec 0 ⟨second, false, "st", by decide⟩) ++
    [.spawn ⟨.createComment (some ⟨"st", "", "first"⟩), .ofHeaders "" ""⟩] ++
    List.replicate 4 (.exec 1 ⟨second, false, "c1", by decide⟩) ++
    [.spawn ⟨.createComment (some ⟨"st", "c1", "reply"⟩), .ofHeaders "" ""⟩] ++
    List.replicate 5 (.exec 2 ⟨second, false, "c2", by decide⟩) ++
    [.spawn ⟨.hide (some ⟨"comment", "c1"⟩), { Request.ofHeaders "" "" with adminSecret := "s" }⟩] ++
    List.replicate 2 (.exec 3 ⟨second, false, "x", by decide⟩)

-- The state that run reaches: the story's comment, hidden, and the reply to it.
set_option maxRecDepth 4000 in
theorem listComments_tree_hidden :
    let h := Handler.ofConfig .plain { Config.load with adminSecret := "s" }
    let s := (State.init 0).run (h.serve .bare) false hiddenParentSchedule
    Reachable (h.serve .bare) s ∧
      s.world.store.comments.map (fun c => (c.id, c.parentID, c.hidden)) = [("c1", "", true), ("c2", "c1", false)] ∧
      TreeView s.world.store "st" .top := by
  intro h s
  have hs : Reachable (h.serve .bare) s := ⟨0, State.run_steps _ _ _⟩
  exact ⟨hs, by decide, listComments_tree h .bare hs "st" .top⟩

-- The flat view lists the reply, and the tree view shows no comment at all.
set_option maxRecDepth 4000 in
theorem listComments_hidden_parent :
    let h := Handler.ofConfig .plain { Config.load with adminSecret := "s" }
    let s := (State.init 0).run (h.serve .bare) false hiddenParentSchedule
    ReflTransGen (Step (h.serve .bare)) (.init 0) s ∧
      (s.world.store.listComments "st" ⟨.top, .flat⟩).1.map (·.id) = ["c2"] ∧
      (s.world.store.listComments "st" ⟨.top, .tree⟩).2.map (fun f => f.walk 1 f.roots) = some [] := by
  intro h s
  have hrows : s.world.store.commentRows "st" .top = s.world.store.comments.filter fun c => c.storyID == "st" && !c.hidden :=
    List.mergeSort_of_sorted (by decide)
  refine ⟨State.run_steps _ _ _, ?_, ?_⟩
  · show (s.world.store.commentRows "st" .top).map _ = _
    rw [hrows]
    decide
  · show (some (buildCommentTree (s.world.store.commentRows "st" .top))).map _ = _
    rw [hrows]
    decide

end Handler

end Slashclaw
