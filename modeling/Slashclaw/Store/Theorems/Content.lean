import Slashclaw.Effect.Replay
import Mathlib.Data.List.Forall2

namespace Slashclaw

-- A story row without the columns that `UpdateStoryScore`, `UpdateStoryCommentCount` and
-- `HideStory` write.
def Story.frozen (st : Story) : Story :=
  { st with score := 0, commentCount := 0, hidden := false }

-- A story row as a later read finds it: the same row but for those columns, and still hidden if it
-- was.
def Story.Evolves (a b : Story) : Prop :=
  a.frozen = b.frozen ∧ (a.hidden = true → b.hidden = true)

-- `UpdateCommentScore` and `HideComment` write the score and the hidden flag.
def Comment.frozen (c : Comment) : Comment :=
  { c with score := 0, hidden := false }

def Comment.Evolves (a b : Comment) : Prop :=
  a.frozen = b.frozen ∧ (a.hidden = true → b.hidden = true)

-- `UpdateVote` writes the value.
def Vote.Evolves (a b : Vote) : Prop :=
  { a with value := 0 } = { b with value := 0 }

-- `l'` holds the rows of `l` in their places, each evolved by `R`, and after them new rows.
def RowsEvolve {ρ : Type} (R : ρ → ρ → Prop) (l l' : List ρ) : Prop :=
  ∃ m, List.Forall₂ R l m ∧ m <+: l'

-- No statement of `SQLiteStore` deletes or moves a story, a comment or a vote, changes a column of
-- one but those its updates write, or shows again what `Hide` hid.
structure Store.ContentGrows (s s' : Store) : Prop where
  stories : RowsEvolve Story.Evolves s.stories s'.stories
  comments : RowsEvolve Comment.Evolves s.comments s'.comments
  votes : RowsEvolve Vote.Evolves s.votes s'.votes

namespace Story.Evolves

variable {a b c : Story}

theorem refl (a : Story) : a.Evolves a :=
  ⟨rfl, fun h => h⟩

theorem trans (h₁ : a.Evolves b) (h₂ : b.Evolves c) : a.Evolves c :=
  ⟨h₁.1.trans h₂.1, h₂.2 ∘ h₁.2⟩

theorem ite (h : a.Evolves b) (p : Prop) [Decidable p] : a.Evolves (if p then b else a) := by
  split
  · exact h
  · exact refl a

theorem id_eq (h : a.Evolves b) : b.id = a.id :=
  (congrArg Story.id h.1).symm

end Story.Evolves

namespace Comment.Evolves

variable {a b c : Comment}

theorem refl (a : Comment) : a.Evolves a :=
  ⟨rfl, fun h => h⟩

theorem trans (h₁ : a.Evolves b) (h₂ : b.Evolves c) : a.Evolves c :=
  ⟨h₁.1.trans h₂.1, h₂.2 ∘ h₁.2⟩

theorem ite (h : a.Evolves b) (p : Prop) [Decidable p] : a.Evolves (if p then b else a) := by
  split
  · exact h
  · exact refl a

-- The columns a reference reads stay.
theorem keys_eq (h : a.Evolves b) : b.id = a.id ∧ b.storyID = a.storyID ∧ b.parentID = a.parentID :=
  ⟨(congrArg Comment.id h.1).symm, (congrArg Comment.storyID h.1).symm, (congrArg Comment.parentID h.1).symm⟩

end Comment.Evolves

namespace Vote.Evolves

variable {a b c : Vote}

theorem refl (a : Vote) : a.Evolves a :=
  rfl

theorem trans (h₁ : a.Evolves b) (h₂ : b.Evolves c) : a.Evolves c :=
  Eq.trans h₁ h₂

theorem ite (h : a.Evolves b) (p : Prop) [Decidable p] : a.Evolves (if p then b else a) := by
  split
  · exact h
  · exact refl a

theorem target_eq (h : a.Evolves b) : b.targetType = a.targetType ∧ b.targetID = a.targetID :=
  ⟨(congrArg Vote.targetType h).symm, (congrArg Vote.targetID h).symm⟩

end Vote.Evolves

theorem forall₂_trans {ρ : Type} {R : ρ → ρ → Prop} (hR : ∀ a b c, R a b → R b c → R a c) :
    ∀ {l₁ l₂ l₃ : List ρ}, List.Forall₂ R l₁ l₂ → List.Forall₂ R l₂ l₃ → List.Forall₂ R l₁ l₃
  | [], [], [], .nil, .nil => .nil
  | _ :: _, _ :: _, _ :: _, .cons h₁ t₁, .cons h₂ t₂ => .cons (hR _ _ _ h₁ h₂) (forall₂_trans hR t₁ t₂)

namespace RowsEvolve

variable {ρ : Type} {R : ρ → ρ → Prop} {l l' l'' : List ρ}

theorem refl (hR : ∀ a, R a a) (l : List ρ) : RowsEvolve R l l :=
  ⟨l, List.forall₂_same.mpr fun a _ => hR a, List.prefix_refl l⟩

theorem append (hR : ∀ a, R a a) (l new : List ρ) : RowsEvolve R l (l ++ new) :=
  ⟨l, List.forall₂_same.mpr fun a _ => hR a, List.prefix_append l new⟩

theorem map {f : ρ → ρ} (h : ∀ a ∈ l, R a (f a)) : RowsEvolve R l (l.map f) :=
  ⟨l.map f, List.forall₂_map_right_iff.mpr (List.forall₂_same.mpr h), List.prefix_refl _⟩

theorem trans (hR : ∀ a b c, R a b → R b c → R a c) (h₁ : RowsEvolve R l l') (h₂ : RowsEvolve R l' l'') :
    RowsEvolve R l l'' := by
  obtain ⟨m₁, f₁, t, rfl⟩ := h₁
  obtain ⟨m₂, f₂, p₂⟩ := h₂
  exact ⟨m₂.take m₁.length, forall₂_trans hR f₁ (List.forall₂_take_append _ _ _ f₂.flip).flip,
    (List.take_prefix _ _).trans p₂⟩

-- Each row of `l` is there, evolved, in `l'`.
theorem exists_of_mem (h : RowsEvolve R l l') {a : ρ} (ha : a ∈ l) : ∃ b ∈ l', R a b := by
  obtain ⟨m, hf, hp⟩ := h
  induction hf generalizing l' with
  | nil => cases ha
  | @cons a₁ b₁ _ _ hr _ ih =>
    obtain ⟨t, rfl⟩ := hp
    rcases List.mem_cons.mp ha with rfl | ha
    · exact ⟨_, .head _, hr⟩
    · obtain ⟨b, hb, hab⟩ := ih ha ⟨t, rfl⟩
      exact ⟨b, .tail _ hb, hab⟩

end RowsEvolve

namespace Store.ContentGrows

theorem refl (s : Store) : s.ContentGrows s :=
  ⟨.refl Story.Evolves.refl _, .refl Comment.Evolves.refl _, .refl Vote.Evolves.refl _⟩

theorem trans {s₁ s₂ s₃ : Store} (h₁ : s₁.ContentGrows s₂) (h₂ : s₂.ContentGrows s₃) : s₁.ContentGrows s₃ :=
  ⟨h₁.1.trans (fun _ _ _ => Story.Evolves.trans) h₂.1, h₁.2.trans (fun _ _ _ => Comment.Evolves.trans) h₂.2,
    h₁.3.trans (fun _ _ _ => Vote.Evolves.trans) h₂.3⟩

end Store.ContentGrows

namespace Prog.Event

-- Each statement appends a row or rewrites the columns of rows that its update names.
theorem apply_contentGrows (t : Time) (s : Store) (ev : Event) : s.ContentGrows (ev.apply t s) := by
  obtain ⟨e, a⟩ := ev
  have hs := Store.ContentGrows.refl s
  cases e
  case createStory => exact a.casesOn (fun _ => hs) fun _ => { hs with stories := .append Story.Evolves.refl _ _ }
  case createComment => exact a.casesOn (fun _ => hs) fun _ => { hs with comments := .append Comment.Evolves.refl _ _ }
  case createVote => exact a.casesOn (fun _ => hs) fun _ => { hs with votes := .append Vote.Evolves.refl _ _ }
  case updateStoryScore | updateStoryCommentCount | hideStory =>
    rcases a with _ | ⟨⟩
    · exact hs
    · refine { hs with stories := .map fun a _ => ?_ }
      split
      · exact ⟨rfl, fun h => by first | exact h | rfl⟩
      · exact .refl a
  case updateCommentScore | hideComment =>
    rcases a with _ | ⟨⟩
    · exact hs
    · refine { hs with comments := .map fun a _ => ?_ }
      split
      · exact ⟨rfl, fun h => by first | exact h | rfl⟩
      · exact .refl a
  case updateVote =>
    rcases a with _ | ⟨⟩
    · exact hs
    · refine { hs with votes := .map fun a _ => ?_ }
      split
      · rfl
      · exact .refl a
  case revokeAccountKey => rcases a with _ | ⟨⟩ <;> exact ⟨hs.1, hs.2, hs.3⟩
  all_goals first
    | exact hs
    | (rcases a with _ | _ <;> exact ⟨hs.1, hs.2, hs.3⟩)

end Prog.Event

theorem Effect.Can.contentGrows {s s' : Store} {e : Effect} {a : e.Answer} (h : Effect.Can s e a s') :
    s.ContentGrows s' := by
  obtain ⟨t, rfl⟩ := h.apply
  exact Prog.Event.apply_contentGrows t s _

end Slashclaw
