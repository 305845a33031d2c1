import Mathlib.Algebra.BigOperators.Group.List
import Mathlib.Algebra.Ring.Int.Defs
import Slashclaw.Api.Theorems.Votes

namespace Slashclaw

open Execution Relation

-- Served one at a time, a story and an upvote of it whose `UpdateStoryScore` fails: the vote is
-- stored, the request answers 200, and the score stays 0. Then, with nothing failing, a story, an
-- upvote, and two concurrent downvotes of the same voter that both read the upvote before either
-- changes it: both apply the change of -2, and the score is -3 against a vote of -1.
set_option maxRecDepth 8000 in
theorem createVote_score_drift :
    let h := Handler.ofConfig Primitives.plain Config.load
    let story : CreateStoryRequest := ⟨"A story title", "", "some text", []⟩
    let s₁ := (State.init 0).run (h.serve .bare) true
      ([.spawn ⟨.createStory (some story), .ofHeaders "" ""⟩] ++
        List.replicate 2 (.exec 0 ⟨second, false, "s1", by decide⟩) ++
        [.spawn ⟨.createVote (some ⟨"story", "s1", 1⟩), .ofHeaders "" ""⟩] ++
        List.replicate 4 (.exec 1 ⟨second, false, "v1", by decide⟩) ++ [.exec 1 ⟨second, true, "v1", by decide⟩])
    let s₂ := (State.init 0).run (h.serve .bare) false
      ([.spawn ⟨.createStory (some story), .ofHeaders "" ""⟩] ++
        List.replicate 2 (.exec 0 ⟨second, false, "s1", by decide⟩) ++
        [.spawn ⟨.createVote (some ⟨"story", "s1", 1⟩), .ofHeaders "" ""⟩] ++
        List.replicate 5 (.exec 1 ⟨second, false, "v1", by decide⟩) ++
        [.spawn ⟨.createVote (some ⟨"story", "s1", -1⟩), .ofHeaders "" ""⟩,
          .spawn ⟨.createVote (some ⟨"story", "s1", -1⟩), .ofHeaders "" ""⟩] ++
        List.replicate 3 (.exec 2 ⟨second, false, "v2", by decide⟩) ++
        List.replicate 3 (.exec 3 ⟨second, false, "v3", by decide⟩) ++
        List.replicate 2 (.exec 2 ⟨second, false, "v2", by decide⟩) ++
        List.replicate 2 (.exec 3 ⟨second, false, "v3", by decide⟩))
    (ReflTransGen (SeqStep (h.serve .bare)) (.init 0) s₁ ∧ s₁.Quiescent ∧
      (s₁.procs.map fun p => p.prog.result.map (·.status)) = [some 201, some 200] ∧
      s₁.world.store.votes.map (·.value) = [1] ∧ s₁.world.store.stories.map (·.score) = [0]) ∧
    (ReflTransGen (Step (h.serve .bare)) (.init 0) s₂ ∧ s₂.Quiescent ∧
      (s₂.procs.map fun p => p.prog.result.map (·.status)) = [some 201, some 200, some 200, some 200] ∧
      s₂.world.store.votes.map (·.value) = [-1] ∧ s₂.world.store.stories.map (·.score) = [-3]) := by
  intro h story s₁ s₂
  exact ⟨⟨State.run_seqSteps _ _, by decide⟩, ⟨State.run_steps _ _ _, by decide⟩⟩

-- The sum of the values of the votes on one target.
def Store.tally (s : Store) (targetType targetID : String) : Int :=
  ((s.votes.filter fun v => v.targetType == targetType && v.targetID == targetID).map (·.value)).sum

-- The number of comment rows of one story.
def Store.commentsOf (s : Store) (storyID : String) : Int :=
  (s.comments.filter (·.storyID == storyID)).length

namespace Store

variable {s : Store}

theorem tally_append (b : Vote) (tt id : String) :
    { s with votes := s.votes ++ [b] }.tally tt id =
      s.tally tt id + if b.targetType = tt ∧ b.targetID = id then b.value else 0 := by
  simp only [tally, List.filter_append, List.map_append, List.sum_append, List.filter_cons, List.filter_nil,
    Bool.and_eq_true, beq_iff_eq]
  split <;> simp

-- Changing the value of the row of an id that no row has changes nothing.
theorem map_updateVote_of_forall_ne {l : List Vote} {id : String} (h : ∀ w ∈ l, w.id ≠ id) (value : Int) :
    l.map (fun v => if v.id == id then { v with value := value } else v) = l := by
  conv => rhs; rw [← List.map_id l]
  exact List.map_congr_left fun w hw => by simp [h w hw]

-- With unique ids, changing the value of the row of `v`'s id moves the sum over any rows picked
-- regardless of values by the change on `v` alone.
theorem sum_filter_updateVote {l : List Vote} (hu : (l.map (·.id)).Nodup) {v : Vote} (hv : v ∈ l) (value : Int)
    (p : Vote → Bool) (hp : ∀ w : Vote, p { w with value := value } = p w) :
    (((l.map fun w => if w.id == v.id then { w with value := value } else w).filter p).map (·.value)).sum =
      ((l.filter p).map (·.value)).sum + if p v then value - v.value else 0 := by
  induction l with
  | nil => cases hv
  | cons a l ih =>
    simp only [List.map_cons, List.nodup_cons, List.mem_map, not_exists, not_and] at hu
    rcases List.mem_cons.mp hv with rfl | hv
    · rw [List.map_cons, map_updateVote_of_forall_ne (fun w hw e => hu.1 w hw e)]
      simp only [beq_self_eq_true, if_true, List.filter_cons, hp]
      cases p v <;> simp
      omega
    · have ha : (a.id == v.id) = false := by simpa using fun e => hu.1 v hv e.symm
      have := ih hu.2 hv
      simp only [beq_iff_eq] at this
      simp only [List.map_cons, ha, Bool.false_eq_true, if_false, List.filter_cons]
      cases p a <;> simp <;> omega

theorem tally_updateVote (hu : (s.votes.map (·.id)).Nodup) {v : Vote} (hv : v ∈ s.votes) (value : Int) (tt id : String) :
    (s.updateVote v.id value).tally tt id =
      s.tally tt id + if v.targetType = tt ∧ v.targetID = id then value - v.value else 0 := by
  simp only [tally, updateVote]
  rw [sum_filter_updateVote hu hv value (fun v => v.targetType == tt && v.targetID == id) fun _ => rfl]
  simp

end Store

-- What the scores and counts say of the rows they summarize, with the facts about ids and
-- references that keep it so when rows are added.
structure Store.Tallied (s : Store) : Prop where
  storyIDs : (s.stories.map (·.id)).Nodup
  commentIDs : (s.comments.map (·.id)).Nodup
  voteIDs : (s.votes.map (·.id)).Nodup
  voteTargets : ∀ v ∈ s.votes, (v.targetType = "story" → ∃ st ∈ s.stories, st.id = v.targetID) ∧
    (v.targetType = "comment" → ∃ c ∈ s.comments, c.id = v.targetID)
  commentStories : ∀ c ∈ s.comments, ∃ st ∈ s.stories, st.id = c.storyID
  storyScore : ∀ st ∈ s.stories, st.score = s.tally "story" st.id
  commentScore : ∀ c ∈ s.comments, c.score = s.tally "comment" c.id
  commentCount : ∀ st ∈ s.stories, st.commentCount = s.commentsOf st.id

-- `updateScore` of `CreateVote`, as the database runs it.
def Store.updateScore (s : Store) (targetType targetID : String) (delta : Int) : Store :=
  if targetType = "story" then s.updateStoryScore targetID delta else s.updateCommentScore targetID delta

theorem Store.commentsOf_append (s : Store) (b : Comment) (id : String) :
    { s with comments := s.comments ++ [b] }.commentsOf id = s.commentsOf id + if b.storyID = id then 1 else 0 := by
  simp only [Store.commentsOf, List.filter_append, List.length_append, List.filter_cons, List.filter_nil, beq_iff_eq]
  split <;> simp

-- A change of every story that keeps its id: some story of an id is still there.
theorem exists_mem_map_id {l : List Story} {f : Story → Story} (hf : ∀ st, (f st).id = st.id) {id : String}
    (h : ∃ st ∈ l, st.id = id) : ∃ st ∈ l.map f, st.id = id :=
  have ⟨st, hst, e⟩ := h
  ⟨f st, List.mem_map_of_mem f hst, (hf st).trans e⟩

theorem map_map_of_forall {α β : Type} {l : List α} {f : α → α} {g : α → β} (hf : ∀ a, g (f a) = g a) :
    (l.map f).map g = l.map g := by
  simp [List.map_map, Function.comp_def, hf]

theorem Store.commentsOf_map (s : Store) {g : Comment → Comment} (hg : ∀ c, (g c).storyID = c.storyID)
    (id : String) : { s with comments := s.comments.map g }.commentsOf id = s.commentsOf id := by
  simp only [Store.commentsOf, List.filter_map, List.length_map, Function.comp_def, hg]

namespace Store.Tallied

variable {s : Store}

theorem empty : Store.empty.Tallied :=
  ⟨.nil, .nil, .nil, nofun, nofun, nofun, nofun, nofun⟩

-- No vote is on a story id or a comment id that no row has.
theorem tally_story_eq_zero (hs : s.Tallied) {id : String} (hid : ∀ st ∈ s.stories, st.id ≠ id) :
    s.tally "story" id = 0 := by
  rw [tally, List.filter_eq_nil_iff.mpr fun v hv h => ?_]
  · rfl
  simp only [Bool.and_eq_true, beq_iff_eq] at h
  obtain ⟨st, hst, e⟩ := (hs.voteTargets v hv).1 h.1
  exact hid st hst (e.trans h.2)

theorem tally_comment_eq_zero (hs : s.Tallied) {id : String} (hid : ∀ c ∈ s.comments, c.id ≠ id) :
    s.tally "comment" id = 0 := by
  rw [tally, List.filter_eq_nil_iff.mpr fun v hv h => ?_]
  · rfl
  simp only [Bool.and_eq_true, beq_iff_eq] at h
  obtain ⟨c, hc, e⟩ := (hs.voteTargets v hv).2 h.1
  exact hid c hc (e.trans h.2)

theorem commentsOf_eq_zero (hs : s.Tallied) {id : String} (hid : ∀ st ∈ s.stories, st.id ≠ id) :
    s.commentsOf id = 0 := by
  rw [commentsOf, List.filter_eq_nil_iff.mpr fun c hc h => ?_]
  · rfl
  obtain ⟨st, hst, e⟩ := hs.commentStories c hc
  exact hid st hst (e.trans (by simpa using h))

theorem nodup_append_fresh {α : Type} {l : List α} {f : α → String} {b : α} (hl : (l.map f).Nodup)
    (hb : ∀ x ∈ l, f x ≠ f b) : ((l ++ [b]).map f).Nodup := by
  rw [List.map_append, List.nodup_append]
  exact ⟨hl, List.nodup_singleton _, by simpa [List.disjoint_singleton] using hb⟩

-- A new story, with no score and no comments, under a fresh id.
theorem insertStory (hs : s.Tallied) {b : Story} (hb : b.score = 0 ∧ b.commentCount = 0)
    (hid : s.stories.any (·.id == b.id) = false) : { s with stories := s.stories ++ [b] }.Tallied := by
  have hnew : ∀ st ∈ s.stories, st.id ≠ b.id := by simpa using hid
  refine ⟨nodup_append_fresh hs.storyIDs hnew, hs.commentIDs, hs.voteIDs, fun v hv => ?_, fun c hc => ?_,
    fun st hst => ?_, hs.commentScore, fun st hst => ?_⟩
  · have := hs.voteTargets v hv
    exact ⟨fun h => (this.1 h).imp fun _ ⟨hst, e⟩ => ⟨List.mem_append_left _ hst, e⟩, this.2⟩
  · obtain ⟨st, hst, e⟩ := hs.commentStories c hc
    exact ⟨st, List.mem_append_left _ hst, e⟩
  · rcases List.mem_append.mp hst with hst | hst
    · exact hs.storyScore st hst
    · obtain rfl := List.mem_singleton.mp hst
      exact hb.1.trans (hs.tally_story_eq_zero hnew).symm
  · rcases List.mem_append.mp hst with hst | hst
    · exact hs.commentCount st hst
    · obtain rfl := List.mem_singleton.mp hst
      exact hb.2.trans (hs.commentsOf_eq_zero hnew).symm

-- A new comment, with no score, under a fresh id and on a story that exists, with its story's
-- count raised by one.
theorem insertComment (hs : s.Tallied) {b : Comment} (hb : b.score = 0)
    (hid : (s.comments.any (·.id == b.id) || !s.stories.any (·.id == b.storyID)) = false) :
    ({ s with comments := s.comments ++ [b] }.updateStoryCommentCount b.storyID 1).Tallied := by
  simp only [Bool.or_eq_false_iff, Bool.not_eq_false', List.any_eq_false, List.any_eq_true, beq_iff_eq] at hid
  have hg : ∀ st : Story, (if st.id == b.storyID then { st with commentCount := st.commentCount + 1 } else st).id =
      st.id := fun st => by split <;> rfl
  refine ⟨(map_map_of_forall (g := Story.id) hg).symm ▸ hs.storyIDs, nodup_append_fresh hs.commentIDs hid.1, hs.voteIDs,
    fun v hv => ?_, fun c hc => ?_, List.forall_mem_map.mpr fun st hst => ?_,
    fun c hc => ?_, List.forall_mem_map.mpr fun st hst => ?_⟩
  · have := hs.voteTargets v hv
    exact ⟨fun h => exists_mem_map_id hg (this.1 h),
      fun h => (this.2 h).imp fun _ ⟨hc, e⟩ => ⟨List.mem_append_left _ hc, e⟩⟩
  · rcases List.mem_append.mp hc with hc | hc
    · exact exists_mem_map_id hg (hs.commentStories c hc)
    · obtain rfl := List.mem_singleton.mp hc
      exact exists_mem_map_id hg hid.2
  · have := hs.storyScore st hst
    split <;> exact this
  · rcases List.mem_append.mp hc with hc | hc
    · exact hs.commentScore c hc
    · obtain rfl := List.mem_singleton.mp hc
      exact hb.trans (hs.tally_comment_eq_zero fun c hc e => hid.1 c hc e).symm
  · show _ = { s with comments := s.comments ++ [b] }.commentsOf _
    rw [Store.commentsOf_append, hg st, ← hs.commentCount st hst]
    by_cases e : st.id = b.storyID
    · simp [e]
    · simp [e, Ne.symm e]

-- A change of the votes that keeps their ids unique and their targets existing and moves the tally
-- of one target by `δ`, followed by the move of that target's score by `δ`.
theorem rescore (hs : s.Tallied) (s₁ : Store) (hst : s₁.stories = s.stories) (hc : s₁.comments = s.comments)
    (hv : (s₁.votes.map (·.id)).Nodup)
    (ht : ∀ v ∈ s₁.votes, (v.targetType = "story" → ∃ st ∈ s.stories, st.id = v.targetID) ∧
      (v.targetType = "comment" → ∃ c ∈ s.comments, c.id = v.targetID))
    {tt id : String} (htt : tt = "story" ∨ tt = "comment") {δ : Int}
    (hδ : ∀ tt' id', s₁.tally tt' id' = s.tally tt' id' + if tt = tt' ∧ id = id' then δ else 0) :
    (s₁.updateScore tt id δ).Tallied := by
  have hcount : ∀ id', s₁.commentsOf id' = s.commentsOf id' := fun _ => by rw [Store.commentsOf, hc]; rfl
  rcases htt with rfl | rfl
  · have hf : ∀ st : Story, (if st.id == id then { st with score := st.score + δ } else st).id = st.id :=
      fun st => by split <;> rfl
    simp only [Store.updateScore, if_true]
    refine ⟨(map_map_of_forall (g := Story.id) hf).symm ▸ hst ▸ hs.storyIDs, hc ▸ hs.commentIDs, hv, fun v hv => ?_, fun c hc' => ?_,
      List.forall_mem_map.mpr fun st hst' => ?_, fun c hc' => ?_, List.forall_mem_map.mpr fun st hst' => ?_⟩
    · have := ht v hv
      exact ⟨fun h => exists_mem_map_id hf (hst ▸ this.1 h), fun h => hc ▸ this.2 h⟩
    · exact exists_mem_map_id hf (hst ▸ hs.commentStories c (hc ▸ hc'))
    · rw [hst] at hst'
      show _ = s₁.tally _ _
      rw [hf, hδ, ← hs.storyScore st hst']
      by_cases e : st.id = id
      · simp [e]
      · simp [e, Ne.symm e]
    · show _ = s₁.tally _ _
      rw [hδ, ← hs.commentScore c (hc ▸ hc')]
      simp
    · rw [hst] at hst'
      show _ = s₁.commentsOf _
      rw [hf, hcount, ← hs.commentCount st hst']
      split <;> rfl
  · have hf : ∀ c : Comment, (if c.id == id then { c with score := c.score + δ } else c).id = c.id :=
      fun c => by split <;> rfl
    simp only [Store.updateScore, show ("comment" = "story") = False by decide, if_false]
    refine ⟨hst ▸ hs.storyIDs, ?_, hv, fun v hv => ?_, List.forall_mem_map.mpr fun c hc' => ?_,
      fun st hst' => ?_, List.forall_mem_map.mpr fun c hc' => ?_, fun st hst' => ?_⟩
    · exact (map_map_of_forall (g := Comment.id) hf).symm ▸ hc.symm ▸ hs.commentIDs
    · have := ht v hv
      refine ⟨fun h => hst ▸ this.1 h, fun h => ?_⟩
      obtain ⟨c, hc', e⟩ := this.2 h
      exact ⟨_, List.mem_map_of_mem _ (hc ▸ hc'), (hf c).trans e⟩
    · rw [hc] at hc'
      have := hs.commentStories c hc'
      split <;> exact hst ▸ this
    · show _ = s₁.tally _ _
      rw [hδ, ← hs.storyScore st (hst ▸ hst')]
      simp
    · rw [hc] at hc'
      show _ = s₁.tally _ _
      rw [hf, hδ, ← hs.commentScore c hc']
      by_cases e : c.id = id
      · simp [e]
      · simp [e, Ne.symm e]
    · refine (hs.commentCount st (hst ▸ hst')).trans ?_
      rw [Store.updateCommentScore, Store.commentsOf_map _ (fun c => by split <;> rfl), hcount]

-- A new vote under a fresh id, on a story or a comment that exists, then its value added to the
-- target's score.
theorem insertVote (hs : s.Tallied) {b : Vote} (hid : (s.votes.any fun w => w.id == b.id || w.uniqueClash b) = false)
    (ht : (b.targetType = "story" ∧ ∃ st ∈ s.stories, st.id = b.targetID) ∨
      (b.targetType = "comment" ∧ ∃ c ∈ s.comments, c.id = b.targetID)) :
    ({ s with votes := s.votes ++ [b] }.updateScore b.targetType b.targetID b.value).Tallied := by
  have hnew : ∀ w ∈ s.votes, w.id ≠ b.id := fun w hw e => by
    simpa [e] using List.any_eq_false.mp hid w hw
  refine hs.rescore { s with votes := s.votes ++ [b] } rfl rfl (nodup_append_fresh hs.voteIDs hnew) (fun v hv => ?_) (ht.imp And.left And.left)
    (Store.tally_append b)
  rcases List.mem_append.mp hv with hv | hv
  · exact hs.voteTargets v hv
  · obtain rfl := List.mem_singleton.mp hv
    rcases ht with ⟨h, e⟩ | ⟨h, e⟩
    · exact ⟨fun _ => e, fun h' => absurd (h.symm.trans h') (by decide)⟩
    · exact ⟨fun h' => absurd (h.symm.trans h') (by decide), fun _ => e⟩

-- The value of a vote changed, then its target's score moved by the change.
theorem updateVote (hs : s.Tallied) {v : Vote} (hv : v ∈ s.votes) (ht : v.targetType = "story" ∨ v.targetType = "comment")
    (value : Int) : ((s.updateVote v.id value).updateScore v.targetType v.targetID (value - v.value)).Tallied :=
  hs.rescore (s.updateVote v.id value) rfl rfl
    ((map_map_of_forall (f := fun w => if w.id == v.id then { w with value := value } else w) (g := Vote.id)
      fun w => by dsimp only; split <;> rfl).symm ▸ hs.voteIDs)
    (List.forall_mem_map.mpr fun w hw => by split <;> exact hs.voteTargets w hw) ht
    (Store.tally_updateVote hs.voteIDs hv value)

theorem of_eq (hs : s.Tallied) {s' : Store} (h₁ : s'.stories = s.stories) (h₂ : s'.comments = s.comments)
    (h₃ : s'.votes = s.votes) : s'.Tallied := by
  have ht : ∀ tt id, s'.tally tt id = s.tally tt id := fun _ _ => by rw [Store.tally, h₃]; rfl
  have hc : ∀ id, s'.commentsOf id = s.commentsOf id := fun _ => by rw [Store.commentsOf, h₂]; rfl
  refine ⟨h₁ ▸ hs.storyIDs, h₂ ▸ hs.commentIDs, h₃ ▸ hs.voteIDs, fun v hv => ?_, fun c hc' => ?_,
    fun st hst => ?_, fun c hc' => ?_, fun st hst => ?_⟩
  · rw [h₁, h₂]; exact hs.voteTargets v (h₃ ▸ hv)
  · rw [h₁]; exact hs.commentStories c (h₂ ▸ hc')
  · rw [ht]; exact hs.storyScore st (h₁ ▸ hst)
  · rw [ht]; exact hs.commentScore c (h₂ ▸ hc')
  · rw [hc]; exact hs.commentCount st (h₁ ▸ hst)

-- A change of every story that keeps its id, score and count, such as hiding one.
theorem mapStories (hs : s.Tallied) {f : Story → Story}
    (hf : ∀ st, (f st).id = st.id ∧ (f st).score = st.score ∧ (f st).commentCount = st.commentCount) :
    { s with stories := s.stories.map f }.Tallied := by
  have hid : ∀ st, (f st).id = st.id := fun st => (hf st).1
  refine ⟨(map_map_of_forall (g := Story.id) hid).symm ▸ hs.storyIDs, hs.commentIDs, hs.voteIDs, fun v hv => ?_,
    fun c hc => exists_mem_map_id hid (hs.commentStories c hc), List.forall_mem_map.mpr fun st hst => ?_,
    hs.commentScore, List.forall_mem_map.mpr fun st hst => ?_⟩
  · exact (hs.voteTargets v hv).imp_left fun h h' => exists_mem_map_id hid (h h')
  · rw [(hf st).2.1, (hf st).1]; exact hs.storyScore st hst
  · rw [(hf st).2.2, (hf st).1]; exact hs.commentCount st hst

-- A change of every comment that keeps its id, score and story, such as hiding one.
theorem mapComments (hs : s.Tallied) {f : Comment → Comment}
    (hf : ∀ c, (f c).id = c.id ∧ (f c).score = c.score ∧ (f c).storyID = c.storyID) :
    { s with comments := s.comments.map f }.Tallied := by
  have hid : ∀ c, (f c).id = c.id := fun c => (hf c).1
  refine ⟨hs.storyIDs, (map_map_of_forall (g := Comment.id) hid).symm ▸ hs.commentIDs, hs.voteIDs,
    fun v hv => ?_, List.forall_mem_map.mpr fun c hc => (hf c).2.2 ▸ hs.commentStories c hc, hs.storyScore,
    List.forall_mem_map.mpr fun c hc => ?_, fun st hst => ?_⟩
  · refine (hs.voteTargets v hv).imp_right fun h h' => ?_
    obtain ⟨c, hc, e⟩ := h h'
    exact ⟨f c, List.mem_map_of_mem f hc, (hid c).trans e⟩
  · rw [(hf c).2.1, (hf c).1]; exact hs.commentScore c hc
  · rw [Store.commentsOf_map s fun c => (hf c).2.2]; exact hs.commentCount st hst

end Store.Tallied

namespace Prog.Event

theorem apply_stories (t : Time) (s : Store) {e : Effect} (a : e.Answer) (he : e.table ≠ some .stories) :
    (apply t s ⟨e, a⟩).stories = s.stories := by
  cases e
  case createStory | updateStoryScore | updateStoryCommentCount | hideStory => exact absurd rfl he
  case revokeAccountKey => rcases a with _ | ⟨⟩ <;> rfl
  all_goals first
    | rfl
    | (rcases a with _ | _ <;> rfl)

theorem apply_comments (t : Time) (s : Store) {e : Effect} (a : e.Answer) (he : e.table ≠ some .comments) :
    (apply t s ⟨e, a⟩).comments = s.comments := by
  cases e
  case createComment | updateCommentScore | hideComment => exact absurd rfl he
  case revokeAccountKey => rcases a with _ | ⟨⟩ <;> rfl
  all_goals first
    | rfl
    | (rcases a with _ | _ <;> rfl)

end Prog.Event

-- A statement that leaves every score, count and row they sum as it is: one that writes none of
-- the three tables, or one that hides a row.
def Effect.KeepsTallies (e : Effect) : Prop :=
  (e.table ≠ some .stories ∧ e.table ≠ some .comments ∧ e.table ≠ some .votes) ∨
    (∃ id, e = .hideStory id) ∨ ∃ id, e = .hideComment id

theorem Effect.keepsTallies_of_read {e : Effect} (he : e.table = none) : e.KeepsTallies :=
  .inl ⟨by simp [he], by simp [he], by simp [he]⟩

theorem Effect.Can.tallied {s s' : Store} {e : Effect} {a : e.Answer} (h : Effect.Can s e a s')
    (he : e.KeepsTallies) (hs : s.Tallied) : s'.Tallied := by
  obtain ⟨t, rfl⟩ := h.apply
  rcases he with ⟨h₁, h₂, h₃⟩ | ⟨id, rfl⟩ | ⟨id, rfl⟩
  · exact hs.of_eq (Prog.Event.apply_stories t s a h₁) (Prog.Event.apply_comments t s a h₂)
      (Prog.Event.apply_votes t s a h₃)
  · rcases a with _ | ⟨⟩
    · exact hs
    · exact hs.mapStories fun st => by split <;> simp
  · rcases a with _ | ⟨⟩
    · exact hs
    · exact hs.mapComments fun c => by split <;> simp

-- An insert of a story with no score and no comments.
theorem Effect.Can.tallied_createStory {s s' : Store} {st : Story} {a : (Effect.createStory st).Answer}
    (h : Effect.Can s (.createStory st) a s') (hst : st.score = 0 ∧ st.commentCount = 0) (hs : s.Tallied) :
    s'.Tallied := by
  obtain ⟨_, _, -, h⟩ := h
  rcases h.cases with ⟨_, -, rfl⟩ | ⟨b, hr, -⟩
  · exact hs
  · obtain ⟨hid, -, rfl⟩ := Store.createStory_eq_ok.mp hr
    exact hs.insertStory hst hid

theorem Effect.keepsTallies_of_writesIn {e : Effect} {ts : List Table} (h : e.writesIn ts = true)
    (hts : Table.stories ∉ ts ∧ Table.comments ∉ ts ∧ Table.votes ∉ ts) : e.KeepsTallies :=
  .inl ⟨fun he => hts.1 (by simpa [Effect.writesIn, he] using h), fun he => hts.2.1 (by simpa [Effect.writesIn, he] using h),
    fun he => hts.2.2 (by simpa [Effect.writesIn, he] using h)⟩

theorem Effect.Can.tallied_story {s s' : Store} {e : Effect} {a : e.Answer} (h : Effect.Can s e a s')
    (he : e.KeepsTallies ∨ ∃ st, e = .createStory st ∧ st.score = 0 ∧ st.commentCount = 0) (hs : s.Tallied) :
    s'.Tallied := by
  rcases he with he | ⟨st, rfl, hst⟩
  · exact h.tallied he hs
  · exact h.tallied_createStory hst hs

-- A failed update of a score or of a comment count, whose error `CreateVote` and `CreateComment`
-- drop.
def Prog.Event.DroppedFailure : Prog.Event → Prop
  | ⟨.updateStoryScore .., .error _⟩ | ⟨.updateCommentScore .., .error _⟩
  | ⟨.updateStoryCommentCount .., .error _⟩ => True
  | _ => False

instance : DecidablePred Prog.Event.DroppedFailure := fun ev => by
  unfold Prog.Event.DroppedFailure
  split <;> infer_instance

-- A log that, with none of its updates of scores and counts failed, keeps the tallies from any
-- database and clock reading.
def KeepsTallied (l : List Prog.Event) : Prop :=
  ∀ t st st', ReplaysAt t st l st' → (∀ ev ∈ l, ¬ev.DroppedFailure) → st.Tallied → st'.Tallied

namespace KeepsTallied

variable {l l' : List Prog.Event}

theorem of_keepsAt (h : KeepsAt Store.Tallied l) : KeepsTallied l :=
  fun t st st' hr _ => h t st st' hr

theorem nil : KeepsTallied [] :=
  .of_keepsAt .nil

theorem append (h : KeepsTallied l) (h' : KeepsTallied l') : KeepsTallied (l ++ l') := fun t st st' hr hb hs =>
  have ⟨t', _, s₁, h₁, h₂⟩ := hr.append_elim
  h' t' s₁ st' h₂ (fun ev hev => hb ev (List.mem_append_right _ hev))
    (h t st s₁ h₁ (fun ev hev => hb ev (List.mem_append_left _ hev)) hs)

end KeepsTallied

theorem all_tallied_bind {β : Type} {p : Prog β} {f : β → Prog Response} (hp : Prog.Within Effect.KeepsTallies p)
    (hf : ∀ b, (f b).All fun l _ => KeepsTallied l) : (p >>= f).All fun l _ => KeepsTallied l :=
  Prog.all_bind.mpr <| hp.all.imp fun l r hl => by
    have hk : KeepsTallied l := .of_keepsAt (.of_forall (fun _ _ _ _ hc he hs => hc.tallied he hs) hl)
    cases r with
    | none => exact hk
    | some b => exact (hf b).imp fun _ _ h' => hk.append h'

-- A comment inserted, then the count of its story raised.
theorem Effect.Can.tallied_createComment {s s₁ s₂ : Store} {c b : Comment}
    (h₁ : Effect.Can s (.createComment c) (.ok b) s₁) (h₂ : Effect.Can s₁ (.updateStoryCommentCount c.storyID 1) (.ok ()) s₂)
    (hc : c.score = 0) (hs : s.Tallied) : s₂.Tallied := by
  obtain ⟨_, _, -, h₁⟩ := h₁
  rcases h₁.cases with ⟨_, h, -⟩ | ⟨_, hr, -⟩
  · cases h
  obtain ⟨hid, -, rfl⟩ := Store.createComment_eq_ok.mp hr
  rcases h₂.update with ⟨-, _, h⟩ | ⟨rfl, -⟩
  · cases h
  · exact hs.insertComment hc hid

-- `KeepsTallied` from the databases satisfying `P`.
def KeepsTalliedFrom (P : Store → Prop) (l : List Prog.Event) : Prop :=
  ∀ t st st', ReplaysAt t st l st' → (∀ ev ∈ l, ¬ev.DroppedFailure) → st.Tallied → P st → st'.Tallied

namespace KeepsTalliedFrom

variable {P : Store → Prop} {l : List Prog.Event}

theorem nil : KeepsTalliedFrom P [] :=
  fun _ _ _ hr _ hs _ => (show _ = _ from hr) ▸ hs

theorem of_reads (hl : ∀ ev ∈ l, ev.effect.table = none) : KeepsTalliedFrom P l :=
  fun _ _ _ hr _ hs _ => (replays_reads hr.replays hl) ▸ hs

end KeepsTalliedFrom

-- A lookup, then a program that keeps the tallies from every database on which the lookup could
-- have answered as it did.
theorem all_tallied_read {e : Effect} {f : e.Answer → Prog Response} (he : e.table = none)
    {Q : Store → e.Answer → Prop} (hQ : ∀ c w, Q w.store (e.run c w).1)
    (hf : ∀ a, (f a).All fun l _ => KeepsTalliedFrom (Q · a) l) :
    (Prog.effect e >>= f).All fun l _ => KeepsTallied l := by
  simp only [Prog.effect, Prog.exec_bind, Prog.all_exec, Prog.pure_bind']
  refine fun a => (hf a).imp fun l _ hl t st st' hr hb hs => ?_
  obtain ⟨c, lim, -, rfl, hr⟩ := hr
  rw [(Effect.can_run c ⟨st, lim, c.time⟩ e).eq_of_read he] at hr
  exact hl _ _ _ hr (fun ev h => hb ev (.tail _ h)) hs (hQ c _)

theorem Prog.All.bind_pure {α β : Type} {p : Prog β} {Q : List Prog.Event → Prop} (h : p.All fun l _ => Q l)
    (x : α) : (p >>= fun _ => pure x).All fun l _ => Q l :=
  Prog.all_bind.mpr <| h.imp fun l r hl => by cases r <;> simpa using hl

namespace Effect

variable {c : Choice} {w : World}

theorem run_getStory {id : String} {x : Story} (h : ((Effect.getStory id).run c w).1 = .ok (some x)) :
    x ∈ w.store.stories ∧ x.id = id := by
  have h := (World.exec_read h).symm
  have hp := List.find?_some h
  simp only [Bool.and_eq_true, beq_iff_eq] at hp
  exact ⟨List.mem_of_find?_eq_some h, hp.1⟩

theorem run_getComment {id : String} {x : Comment} (h : ((Effect.getComment id).run c w).1 = .ok (some x)) :
    x ∈ w.store.comments ∧ x.id = id := by
  have h := (World.exec_read h).symm
  have hp := List.find?_some h
  simp only [Bool.and_eq_true, beq_iff_eq] at hp
  exact ⟨List.mem_of_find?_eq_some h, hp.1⟩

theorem run_getVote {tt tid ip ag : String} {v : Vote}
    (h : ((Effect.getVote tt tid ip ag).run c w).1 = .ok (some v)) :
    v ∈ w.store.votes ∧ v.targetType = tt ∧ v.targetID = tid := by
  have h := (World.exec_read h).symm
  have hp := List.find?_some h
  simp only [Bool.and_eq_true, beq_iff_eq] at hp
  exact ⟨List.mem_of_find?_eq_some h, hp.1.1, hp.1.2⟩

end Effect

-- The target of a vote is a story or a comment of the database, as `CreateVote` checked before
-- `cast`.
def Store.HasTarget (s : Store) (req : CreateVoteRequest) : Prop :=
  (req.targetType = "story" ∧ ∃ x ∈ s.stories, x.id = req.targetID) ∨
    (req.targetType = "comment" ∧ ∃ x ∈ s.comments, x.id = req.targetID)

namespace Handler

variable (h : Handler)

theorem createComment_insert_tallied (ctx : Context) (req : CreateCommentRequest) :
    (createComment.insert ctx req).All fun l _ => KeepsTallied l := by
  unfold createComment.insert
  simp only [Stmt.createComment, Stmt.updateStoryCommentCount, Prog.effect, Prog.exec_bind, Prog.all_exec,
    Prog.pure_bind', Prog.all_pure, Effect.Answer]
  rintro (e | b)
  · intro t st st' hr _ hs
    obtain ⟨_, hc, rfl⟩ := hr.replays
    obtain ⟨_, _, -, hc⟩ := hc
    rcases hc.cases with ⟨_, -, rfl⟩ | ⟨_, -, h⟩
    · exact hs
    · cases h
  · rintro (e | ⟨⟩) t st st' hr hb hs
    · exact absurd trivial (hb _ (.tail _ (.head _)))
    · obtain ⟨_, h₁, _, h₂, rfl⟩ := hr.replays
      exact h₁.tallied_createComment h₂ rfl hs

-- `updateScore` moves the score of the target by `delta`, unless its update failed.
theorem updateScore_store (req : CreateVoteRequest) (delta : Int) :
    (updateScore req delta).All fun l _ => ∀ s s', Replays s l s' → (∀ ev ∈ l, ¬ev.DroppedFailure) →
      s' = s.updateScore req.targetType req.targetID delta := by
  unfold updateScore Store.updateScore Stmt.updateStoryScore Stmt.updateCommentScore
  by_cases ht : req.targetType = "story"
  all_goals
    simp only [ht, if_true, if_false, Prog.effect, Prog.all_exec, Prog.all_pure]
    rintro (e | ⟨⟩) s s' ⟨s₁, hc, rfl⟩ hb
    · exact absurd trivial (hb _ (.head _))
    · rcases hc.update with ⟨-, _, h⟩ | ⟨rfl, -⟩
      · cases h
      · rfl

-- A new vote is inserted and its value added to the target's score; a changed vote is updated and
-- the difference added.
theorem createVote_cast_tallied (r : Request) (req : CreateVoteRequest) (agentID : String) (agentVerified : Bool) :
    (createVote.cast h r req agentID agentVerified).All fun l _ => KeepsTalliedFrom (·.HasTarget req) l := by
  unfold createVote.cast
  simp only [Stmt.getVote, Prog.effect, Prog.exec_bind, Prog.all_exec, Prog.pure_bind', Effect.Answer]
  rintro (e | _ | v)
  · exact .of_reads (List.forall_mem_singleton.mpr rfl)
  · simp only [Stmt.createVote, Prog.effect, Prog.exec_bind, Prog.all_exec, Prog.pure_bind']
    rintro (e | b)
    · rintro t st st' hr _ hs _
      obtain ⟨_, hg, _, hc, rfl⟩ := hr.replays
      obtain rfl := hg.eq_of_read rfl
      obtain ⟨_, _, -, hc⟩ := hc
      rcases hc.cases with ⟨_, -, rfl⟩ | ⟨_, -, h⟩
      · exact hs
      · cases h
    · refine (Prog.All.bind_pure (updateScore_store req req.value) _).imp fun l _ hl t st st' hr hb hs ht => ?_
      obtain ⟨_, hg, _, hc, h₃⟩ := hr.replays
      obtain rfl := hg.eq_of_read rfl
      rw [hl _ _ h₃ fun ev h => hb ev (.tail _ (.tail _ h))]
      obtain ⟨_, _, -, hc⟩ := hc
      rcases hc.cases with ⟨_, h, -⟩ | ⟨_, hr', -⟩
      · cases h
      obtain ⟨hid, -, rfl⟩ := Store.createVote_eq_ok.mp hr'
      exact hs.insertVote hid ht
  · dsimp only
    split
    · simp only [Stmt.updateVote, Prog.effect, Prog.exec_bind, Prog.all_exec, Prog.pure_bind']
      rintro (e | ⟨⟩)
      · rintro t st st' hr _ hs _
        obtain ⟨_, hg, _, hu, rfl⟩ := hr.replays
        obtain rfl := hg.eq_of_read rfl
        rcases hu.update with ⟨rfl, -⟩ | ⟨-, h⟩
        · exact hs
        · cases h
      · refine (Prog.All.bind_pure (updateScore_store req _) _).imp fun l _ hl t st st' hr hb hs ht => ?_
        obtain ⟨c, lim, -, hg, hr⟩ := hr
        obtain ⟨hv, htt, hid⟩ := Effect.run_getVote hg
        rw [(Effect.can_run c ⟨st, lim, c.time⟩ (.getVote _ _ _ _)).eq_of_read rfl] at hr
        obtain ⟨_, hu, h₃⟩ := hr.replays
        rcases hu.update with ⟨-, _, h⟩ | ⟨rfl, -⟩
        · cases h
        rw [hl _ _ h₃ fun ev h => hb ev (.tail _ (.tail _ h)), ← htt, ← hid]
        exact hs.updateVote hv (ht.imp (fun h => htt.trans h.1) fun h => htt.trans h.1) req.value
    · exact .of_reads (List.forall_mem_singleton.mpr rfl)

theorem createStory_tallied (r : Request) (body : Option CreateStoryRequest) :
    (h.createStory r body).All fun l _ => KeepsTallied l := by
  have hw : Prog.Within (fun e => e.KeepsTallies ∨ ∃ st, e = .createStory st ∧ st.score = 0 ∧
      st.commentCount = 0) (h.createStory r body) := by
    unfold createStory createStory.insert checkRateLimit Env.allow Env.retryAfter Env.now validateToken
      Service.validateToken Stmt.getToken Stmt.findStoryByURL Stmt.createStory
    repeat
      first
      | refine Prog.Within.bind ?_ fun _ => ?_
      | refine Prog.Within.ite ?_ ?_
      | exact Prog.Within.effect (.inl (Effect.keepsTallies_of_read rfl))
      | exact Prog.Within.effect (.inr ⟨_, rfl, rfl, rfl⟩)
      | exact Prog.Within.pure _
      | split
  exact hw.all.imp fun l _ hl => .of_keepsAt (.of_forall (fun _ _ _ _ hc he hs => hc.tallied_story he hs) hl)

theorem hide_tallied (r : Request) (body : Option HideRequest) :
    (h.hide r body).All fun l _ => KeepsTallied l := by
  refine (?_ : Prog.Within Effect.KeepsTallies _).all.imp fun l _ hl =>
    .of_keepsAt (.of_forall (fun _ _ _ _ hc he hs => hc.tallied he hs) hl)
  unfold hide hide.finish Stmt.getStory Stmt.hideStory Stmt.getComment Stmt.hideComment
  repeat
    first
    | refine Prog.Within.bind ?_ fun _ => ?_
    | refine Prog.Within.ite ?_ ?_
    | exact Prog.Within.effect (Effect.keepsTallies_of_read rfl)
    | exact Prog.Within.effect (.inr (.inl ⟨_, rfl⟩))
    | exact Prog.Within.effect (.inr (.inr ⟨_, rfl⟩))
    | exact Prog.Within.pure _
    | split

theorem createComment_tallied (r : Request) (ctx : Context) (body : Option CreateCommentRequest) :
    (h.createComment r ctx body).All fun l _ => KeepsTallied l := by
  unfold createComment
  refine all_tallied_bind ((h.checkRateLimit_quiet r _ _).mono fun _ he => Effect.keepsTallies_of_read he.1)
    fun _ => ?_
  simp only [Prog.pure_eq, Prog.pure_bind']
  repeat
    first
    | exact .nil
    | exact createComment_insert_tallied ctx _
    | refine all_tallied_bind (.effect (Effect.keepsTallies_of_read rfl)) fun _ => ?_
    | split

-- The story or the comment voted on was found in the database `cast` starts from.
theorem createVote_tallied (r : Request) (ctx : Context) (body : Option CreateVoteRequest) :
    (h.createVote r ctx body).All fun l _ => KeepsTallied l := by
  unfold createVote
  refine all_tallied_bind ((h.checkRateLimit_quiet r _ _).mono fun _ he => Effect.keepsTallies_of_read he.1)
    fun _ => ?_
  simp only [Prog.pure_eq, Prog.pure_bind']
  split
  · exact .nil
  split
  next req =>
    split
    · exact .nil
    rename_i htt
    split
    · exact .nil
    split
    next hst =>
      refine all_tallied_read (Q := fun st a => ∀ x, a = .ok (some x) → x ∈ st.stories ∧ x.id = req.targetID) rfl
        (fun _ _ _ hx => Effect.run_getStory hx) fun a => ?_
      split
      · exact .nil
      · exact .nil
      · split
        · exact .nil
        · exact (h.createVote_cast_tallied r req _ _).imp fun l _ hl t st st' hr hb hs hq =>
            hl t st st' hr hb hs (.inl ⟨hst, _, hq _ rfl⟩)
    next hst =>
      refine all_tallied_read (Q := fun st a => ∀ x, a = .ok (some x) → x ∈ st.comments ∧ x.id = req.targetID) rfl
        (fun _ _ _ hx => Effect.run_getComment hx) fun a => ?_
      split
      · exact .nil
      · exact .nil
      · split
        · exact .nil
        · exact (h.createVote_cast_tallied r req _ _).imp fun l _ hl t st st' hr hb hs hq =>
            hl t st st' hr hb hs (.inr ⟨not_not.mp fun hc => htt ⟨hst, hc⟩, _, hq _ rfl⟩)
  · exact .nil

theorem protect_tallied (routing : Routing) {next : Context → Prog Response} (r : Request)
    (hn : ∀ ctx, (next ctx).All fun l _ => KeepsTallied l) : (protect routing next r).All fun l _ => KeepsTallied l := by
  cases routing
  case bare => exact hn _
  case requireAuth =>
    refine all_tallied_bind ((validateToken_quiet r).mono fun _ he => Effect.keepsTallies_of_read he.1) fun _ => ?_
    split
    · exact hn _
    · exact .nil

-- Only the content routes write stories, comments and votes.
theorem serve_tallied (routing : Routing) (a : ApiRequest) :
    (h.serve routing a).All fun l _ => KeepsTallied l := by
  rcases a with ⟨call, r⟩
  cases call
  case createStory b => exact protect_tallied routing r fun _ => h.createStory_tallied r b
  case createComment b => exact protect_tallied routing r fun ctx => h.createComment_tallied r ctx b
  case createVote b => exact protect_tallied routing r fun ctx => h.createVote_tallied r ctx b
  case hide b => exact h.hide_tallied r b
  all_goals
    exact (serve_within h routing _).all.imp fun l _ hl => .of_keepsAt (.of_forall
      (fun _ _ _ _ hc he hs => hc.tallied (Effect.keepsTallies_of_writesIn he (by simp [Call.tables])) hs) hl)

end Handler

-- Served one at a time from the empty database, through any requests of any route, and with no
-- update of a score or a comment count failed: whenever no request is in flight, every story's and
-- every comment's score is the sum of the values of its votes, and every story's comment count is
-- the number of its comments.
theorem createVote_score_tally (h : Handler) (routing : Routing) :
    ∀ t (s : State ApiRequest Response), ReflTransGen (SeqStep (h.serve routing)) (.init t) s →
      (∀ x ∈ s.trace, ¬x.event.DroppedFailure) → s.Quiescent →
      (∀ st ∈ s.world.store.stories, st.score = s.world.store.tally "story" st.id ∧
        st.commentCount = s.world.store.commentsOf st.id) ∧
      ∀ c ∈ s.world.store.comments, c.score = s.world.store.tally "comment" c.id := by
  intro t s hs hb hq
  have hp : PreservesAt (fun _ : ApiRequest => True) Prog.Event.DroppedFailure (fun st _ => st.Tallied)
      (h.serve routing) :=
    fun req st _ t _ hi => (h.serve_tallied routing req).imp fun _ _ hk st' hrep hl => hk t st st' hrep hl hi
  have hT : s.world.store.Tallied := SeqStep.hoareAt (w := .init t) Store.Tallied.empty hp hs (fun _ _ => trivial) hb hq
  exact ⟨fun st hst => ⟨hT.storyScore st hst, hT.commentCount st hst⟩, hT.commentScore⟩

-- A story and an upvote of it, served one at a time with nothing failing.
theorem createVote_score_tally_upvote :
    let h : Handler := Handler.ofConfig Primitives.plain Config.load
    let s := (State.init 0).run (h.serve .bare) true
      ([.spawn ⟨.createStory (some ⟨"A story title", "", "some text", []⟩), .ofHeaders "" ""⟩] ++
        List.replicate 2 (.exec 0 ⟨second, false, "s1", by decide⟩) ++
        [.spawn ⟨.createVote (some ⟨"story", "s1", 1⟩), .ofHeaders "" ""⟩] ++
        List.replicate 5 (.exec 1 ⟨second, false, "v1", by decide⟩))
    (ReflTransGen (SeqStep (h.serve .bare)) (.init 0) s ∧ (∀ x ∈ s.trace, ¬x.event.DroppedFailure) ∧
      s.Quiescent) ∧
    (∀ st ∈ s.world.store.stories, st.score = s.world.store.tally "story" st.id ∧
      st.commentCount = s.world.store.commentsOf st.id) ∧
    ∀ c ∈ s.world.store.comments, c.score = s.world.store.tally "comment" c.id := by
  intro h s
  have hs : ReflTransGen (SeqStep (h.serve .bare)) (.init 0) s := State.run_seqSteps _ _
  have hb : ∀ x ∈ s.trace, ¬x.event.DroppedFailure := by decide
  have hq : s.Quiescent := by decide
  exact ⟨⟨hs, hb, hq⟩, createVote_score_tally h .bare 0 s hs hb hq⟩

end Slashclaw
