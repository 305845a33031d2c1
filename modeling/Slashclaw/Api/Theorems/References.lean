import Slashclaw.Api.Theorems.Tallies
import Slashclaw.Store.Theorems.Content

namespace Slashclaw

open Execution Relation Prog

-- Over any interleaving of the requests of any handler, from any state on, no story, comment or
-- vote is deleted or moved, each changes only the columns its updates write, and nothing hidden
-- shows again.
theorem Execution.Step.contentGrows {Req α : Type} {handle : Req → Prog α} {s s' : State Req α}
    (h : ReflTransGen (Step handle) s s') : s.world.store.ContentGrows s'.world.store := by
  induction h with
  | refl => exact .refl _
  | tail _ hs ih =>
    rcases hs.can with ⟨heq, -⟩ | ⟨_, _, _, _, _, _, _, hc⟩
    · exact heq ▸ ih
    · exact ih.trans hc.contentGrows

-- The database each effect of the trace ran on grows, in the same sense, into the current one.
theorem Execution.Step.entry_contentGrows {Req α : Type} {handle : Req → Prog α} {s : State Req α} {w : World}
    (h : ReflTransGen (Step handle) (.start w) s) : ∀ y ∈ s.trace, y.world.store.ContentGrows s.world.store :=
  (Step.chain (R := fun y st => y.world.store.ContentGrows st) (fun _ _ hc => hc.contentGrows)
    (fun _ _ _ _ _ hc hg => hg.trans hc.contentGrows) h).2

-- The rows a comment refers to: its story, and the parent of a reply, in the same story.
def Comment.Placed (c : Comment) (st : Store) : Prop :=
  (∃ x ∈ st.stories, x.id = c.storyID) ∧
    (c.parentID ≠ "" → ∃ p ∈ st.comments, p.id = c.parentID ∧ p.storyID = c.storyID)

-- The row a vote is on, of its target type.
def Vote.Placed (v : Vote) (st : Store) : Prop :=
  (v.targetType = "story" ∧ ∃ x ∈ st.stories, x.id = v.targetID) ∨
    (v.targetType = "comment" ∧ ∃ c ∈ st.comments, c.id = v.targetID)

-- Every comment and every vote refers to rows that are there.
def Store.Referenced (st : Store) : Prop :=
  (∀ c ∈ st.comments, c.Placed st) ∧ ∀ v ∈ st.votes, v.Placed st

namespace Store.ContentGrows

variable {st st' : Store} (h : st.ContentGrows st')
include h

theorem story_mem {x : Story} (hx : x ∈ st.stories) : ∃ x' ∈ st'.stories, x'.id = x.id :=
  have ⟨x', hx', he⟩ := h.stories.exists_of_mem hx
  ⟨x', hx', he.id_eq⟩

theorem comment_mem {c : Comment} (hc : c ∈ st.comments) :
    ∃ c' ∈ st'.comments, c'.id = c.id ∧ c'.storyID = c.storyID :=
  have ⟨c', hc', he⟩ := h.comments.exists_of_mem hc
  ⟨c', hc', he.keys_eq.1, he.keys_eq.2.1⟩

end Store.ContentGrows

-- `UpdateCommentScore` and `HideComment` rewrite no column of a frozen comment.
theorem Comment.frozen_map_ite {l : List Comment} {f : Comment → Comment} (hf : ∀ c, (f c).frozen = c.frozen)
    (id : String) : (l.map fun c => if c.id == id then f c else c).map Comment.frozen = l.map Comment.frozen := by
  rw [List.map_map]
  exact List.map_congr_left fun c _ => by
    dsimp only [Function.comp_apply]
    split
    · exact hf c
    · rfl

namespace Prog.Event

-- A comment row after a statement was there before it, up to its score and hidden flag, or is the
-- row the statement inserted.
theorem mem_frozenComments (t : Time) (s : Store) {e : Effect} {a : e.Answer} {r : Comment}
    (hr : r ∈ (apply t s ⟨e, a⟩).comments.map Comment.frozen) :
    r ∈ s.comments.map Comment.frozen ∨ ∃ c₀ b, (⟨e, a⟩ : Event) = ⟨.createComment c₀, .ok b⟩ ∧ r = b.frozen := by
  cases e
  case createComment c₀ =>
    rcases a with _ | b
    · exact .inl hr
    · rcases List.mem_append.mp ((List.map_append ..) ▸ hr) with hr | hr
      · exact .inl hr
      · exact .inr ⟨c₀, b, rfl, List.mem_singleton.mp hr⟩
  case updateCommentScore id δ =>
    rcases a with _ | ⟨⟩
    · exact .inl hr
    · exact .inl ((Comment.frozen_map_ite (f := fun c => { c with score := c.score + δ }) (fun _ => rfl) id) ▸ hr)
  case hideComment id =>
    rcases a with _ | ⟨⟩
    · exact .inl hr
    · exact .inl ((Comment.frozen_map_ite (f := fun c => { c with hidden := true }) (fun _ => rfl) id) ▸ hr)
  all_goals exact .inl ((apply_comments t s a (by simp [Effect.table])) ▸ hr)

-- The same of votes, up to their value.
theorem mem_frozenVotes (t : Time) (s : Store) {e : Effect} {a : e.Answer} {r : Vote}
    (hr : r ∈ (apply t s ⟨e, a⟩).votes.map Vote.frozen) :
    r ∈ s.votes.map Vote.frozen ∨ ∃ v₀ b, (⟨e, a⟩ : Event) = ⟨.createVote v₀, .ok b⟩ ∧ r = b.frozen := by
  cases e
  case createVote v₀ =>
    rcases a with _ | b
    · exact .inl hr
    · rcases List.mem_append.mp ((List.map_append ..) ▸ hr) with hr | hr
      · exact .inl hr
      · exact .inr ⟨v₀, b, rfl, List.mem_singleton.mp hr⟩
  case updateVote id value =>
    rcases a with _ | ⟨⟩
    · exact .inl hr
    · exact .inl ((Store.frozen_updateVote s id value) ▸ hr)
  all_goals exact .inl ((apply_votes t s a (by simp [Effect.table])) ▸ hr)

end Prog.Event

namespace Effect

variable {c : Choice} {w : World}

-- An insert that answered passed the foreign key of its story, and wrote the comment it was given.
theorem run_createComment {c₀ b : Comment} (h : ((Effect.createComment c₀).run c w).1 = .ok b) :
    (∃ x ∈ w.store.stories, x.id = c₀.storyID) ∧ b.storyID = c₀.storyID ∧ b.parentID = c₀.parentID := by
  obtain ⟨_, h⟩ := World.exec_ok h
  obtain ⟨hc, rfl, -⟩ := Store.createComment_eq_ok.mp h
  simp only [Bool.or_eq_false_iff, Bool.not_eq_false', List.any_eq_true, beq_iff_eq] at hc
  exact ⟨hc.2, rfl, rfl⟩

theorem run_createVote {v₀ b : Vote} (h : ((Effect.createVote v₀).run c w).1 = .ok b) :
    b.targetType = v₀.targetType ∧ b.targetID = v₀.targetID := by
  obtain ⟨_, h⟩ := World.exec_ok h
  obtain ⟨-, rfl, -⟩ := Store.createVote_eq_ok.mp h
  exact ⟨rfl, rfl⟩

end Effect

-- A statement that inserts neither a comment nor a vote.
def Effect.RefFree (e : Effect) : Prop :=
  (∀ c, e ≠ .createComment c) ∧ ∀ v, e ≠ .createVote v

theorem Effect.refFree_of_writesIn {e : Effect} {ts : List Table} (h : e.writesIn ts = true)
    (hc : Table.comments ∉ ts) (hv : Table.votes ∉ ts) : e.RefFree :=
  ⟨fun _ he => hc (by simpa [he, Effect.writesIn, Effect.table] using h),
    fun _ he => hv (by simpa [he, Effect.writesIn, Effect.table] using h)⟩

-- What a request has read before it inserts a comment or a vote: the parent of a reply, found in
-- the reply's story; the story or the comment a vote is on, as its target type says.
def refGuard (past : List Event) (e : Effect) : Prop :=
  (∀ c, e = .createComment c → c.parentID ≠ "" →
    ∃ p, ⟨.getComment c.parentID, .ok (some p)⟩ ∈ past ∧ p.storyID = c.storyID) ∧
  ∀ v, e = .createVote v →
    (v.targetType = "story" ∧ ∃ x, ⟨.getStory v.targetID, .ok (some x)⟩ ∈ past) ∨
      (v.targetType = "comment" ∧ ∃ x, ⟨.getComment v.targetID, .ok (some x)⟩ ∈ past)

theorem refGuard_of_refFree {e : Effect} (he : e.RefFree) (past : List Event) : refGuard past e :=
  ⟨fun c h => absurd h (he.1 c), fun v h => absurd h (he.2 v)⟩

theorem refGuard_of_read {e : Effect} (he : e.table = none) (past : List Event) : refGuard past e :=
  refGuard_of_refFree ⟨fun _ h => (by subst h; cases he), fun _ h => (by subst h; cases he)⟩ past

-- A program each of whose effects the guard allows after any past that `Q` holds of, `Q` staying
-- true as the past grows.
theorem Prog.Within.allowed_from {α : Type} {P : Effect → Prop} {Q : List Event → Prop}
    {J : List Event → Effect → Prop} {p : Prog α} (h : Within P p)
    (hQ : ∀ past past', past ⊆ past' → Q past → Q past') (hJ : ∀ past e, Q past → P e → J past e) :
    p.All fun l _ => ∀ past, Q past → Allowed J past l := by
  refine h.all.imp fun l _ hl => ?_
  induction l with
  | nil => exact fun _ _ => trivial
  | cons ev l ih =>
    exact fun past hq => ⟨hJ _ _ hq (hl ev (.head _)),
      ih (fun ev' h' => hl ev' (.tail _ h')) _ (hQ _ _ (List.subset_append_left _ _) hq)⟩

namespace Handler

variable (h : Handler)

-- The comment `insert` writes is the request's reply, to its parent and in its story.
theorem createComment_insert_within (ctx : Context) (req : CreateCommentRequest) :
    Within (fun e => (∀ v, e ≠ .createVote v) ∧
      ∀ c, e = .createComment c → c.parentID = req.parentID ∧ c.storyID = req.storyID)
      (createComment.insert ctx req) := by
  unfold createComment.insert Stmt.createComment Stmt.updateStoryCommentCount
  repeat
    first
    | refine Within.bind ?_ fun _ => ?_
    | exact Within.effect ⟨fun _ h => (by cases h), fun _ h => (by cases h <;> exact ⟨rfl, rfl⟩)⟩
    | exact Within.pure _
    | split

theorem createComment_insert_refAllowed (ctx : Context) (req : CreateCommentRequest) :
    (createComment.insert ctx req).All fun l _ => ∀ past,
      (req.parentID ≠ "" → ∃ p, ⟨.getComment req.parentID, .ok (some p)⟩ ∈ past ∧ p.storyID = req.storyID) →
      Allowed refGuard past l :=
  (createComment_insert_within ctx req).allowed_from
    (fun _ _ hsub hq hne => (hq hne).imp fun _ ⟨hm, hs⟩ => ⟨hsub hm, hs⟩)
    fun _ _ hq ⟨hv, hc⟩ => ⟨fun c he hne => by
      obtain ⟨h₁, h₂⟩ := hc c he
      rw [h₁, h₂]
      exact hq (h₁ ▸ hne), fun v he => absurd he (hv v)⟩

-- A reply is inserted after `GetComment` found its parent in the reply's story.
theorem createComment_refAllowed (r : Request) (ctx : Context) (body : Option CreateCommentRequest) :
    (h.createComment r ctx body).All fun l _ => ∀ past, Allowed refGuard past l := by
  unfold createComment
  refine All.allowed_bind ((h.checkRateLimit_quiet r _ _).allowed fun _ he => refGuard_of_read he.1) fun _ => ?_
  simp only [Prog.pure_eq, Prog.pure_bind']
  refine all_ite.mpr ⟨fun _ _ => trivial, fun _ => ?_⟩
  split
  next req =>
    refine all_ite.mpr ⟨fun _ _ => trivial, fun _ => all_ite.mpr ⟨fun _ _ => trivial, fun _ => ?_⟩⟩
    refine All.allowed_bind ((Within.effect (P := fun e => e.table = none) (by rfl)).allowed
      fun _ he => refGuard_of_read he) fun _ => ?_
    split
    · exact fun _ => trivial
    · exact fun _ => trivial
    refine all_ite.mpr ⟨fun hp => ?_, fun hp => ?_⟩
    · simp only [Stmt.getComment, Prog.effect, Prog.exec_bind, Prog.all_exec, Prog.pure_bind']
      intro a
      split
      · exact fun past => ⟨refGuard_of_read (by rfl) past, trivial⟩
      · exact fun past => ⟨refGuard_of_read (by rfl) past, trivial⟩
      next parent =>
        refine all_ite.mpr ⟨fun _ past => ⟨refGuard_of_read (by rfl) past, trivial⟩, fun hst => ?_⟩
        exact (createComment_insert_refAllowed ctx req).imp fun _ _ hl past =>
          ⟨refGuard_of_read (by rfl) past, hl _ fun _ => ⟨parent, by simp, not_not.mp hst⟩⟩
    · exact (createComment_insert_refAllowed ctx req).imp fun _ _ hl past => hl past fun hne => absurd hne hp
  · exact fun _ => trivial

-- The vote `cast` writes is on the request's target.
theorem createVote_cast_within (r : Request) (req : CreateVoteRequest) (agentID : String) (agentVerified : Bool) :
    Within (fun e => (∀ c, e ≠ .createComment c) ∧
      ∀ v, e = .createVote v → v.targetType = req.targetType ∧ v.targetID = req.targetID)
      (createVote.cast h r req agentID agentVerified) := by
  unfold createVote.cast updateScore Stmt.getVote Stmt.updateVote Stmt.createVote Stmt.updateStoryScore
    Stmt.updateCommentScore
  repeat
    first
    | refine Within.bind ?_ fun _ => ?_
    | refine Within.ite ?_ ?_
    | exact Within.effect ⟨fun _ h => (by cases h), fun _ h => (by cases h <;> exact ⟨rfl, rfl⟩)⟩
    | exact Within.pure _
    | split

theorem createVote_cast_refAllowed (r : Request) (req : CreateVoteRequest) (agentID : String) (agentVerified : Bool) :
    (createVote.cast h r req agentID agentVerified).All fun l _ => ∀ past,
      ((req.targetType = "story" ∧ ∃ x, ⟨.getStory req.targetID, .ok (some x)⟩ ∈ past) ∨
        (req.targetType = "comment" ∧ ∃ x, ⟨.getComment req.targetID, .ok (some x)⟩ ∈ past)) →
      Allowed refGuard past l :=
  (h.createVote_cast_within r req agentID agentVerified).allowed_from
    (fun _ _ hsub hq => hq.imp (fun ⟨ht, x, hm⟩ => ⟨ht, x, hsub hm⟩) fun ⟨ht, x, hm⟩ => ⟨ht, x, hsub hm⟩)
    fun _ _ hq ⟨hc, hv⟩ => ⟨fun c he => absurd he (hc c), fun v he => by
      obtain ⟨h₁, h₂⟩ := hv v he
      rw [h₁, h₂]
      exact hq⟩

-- A vote is cast after `GetStory` or `GetComment` found its target, as its target type says.
theorem createVote_refAllowed (r : Request) (ctx : Context) (body : Option CreateVoteRequest) :
    (h.createVote r ctx body).All fun l _ => ∀ past, Allowed refGuard past l := by
  unfold createVote
  refine All.allowed_bind ((h.checkRateLimit_quiet r _ _).allowed fun _ he => refGuard_of_read he.1) fun _ => ?_
  simp only [Prog.pure_eq, Prog.pure_bind']
  refine all_ite.mpr ⟨fun _ _ => trivial, fun _ => ?_⟩
  split
  next req =>
    refine all_ite.mpr ⟨fun _ _ => trivial, fun htt => all_ite.mpr ⟨fun _ _ => trivial, fun _ => ?_⟩⟩
    refine all_ite.mpr ⟨fun hst => ?_, fun hst => ?_⟩
    · simp only [Stmt.getStory, Prog.effect, Prog.exec_bind, Prog.all_exec, Prog.pure_bind']
      intro a
      split
      · exact fun past => ⟨refGuard_of_read (by rfl) past, trivial⟩
      · exact fun past => ⟨refGuard_of_read (by rfl) past, trivial⟩
      next story =>
        refine all_ite.mpr ⟨fun _ past => ⟨refGuard_of_read (by rfl) past, trivial⟩, fun _ => ?_⟩
        exact (h.createVote_cast_refAllowed r req _ _).imp fun _ _ hl past =>
          ⟨refGuard_of_read (by rfl) past, hl _ (.inl ⟨hst, story, by simp⟩)⟩
    · simp only [Stmt.getComment, Prog.effect, Prog.exec_bind, Prog.all_exec, Prog.pure_bind']
      intro a
      split
      · exact fun past => ⟨refGuard_of_read (by rfl) past, trivial⟩
      · exact fun past => ⟨refGuard_of_read (by rfl) past, trivial⟩
      next comment =>
        refine all_ite.mpr ⟨fun _ past => ⟨refGuard_of_read (by rfl) past, trivial⟩, fun _ => ?_⟩
        exact (h.createVote_cast_refAllowed r req _ _).imp fun _ _ hl past =>
          ⟨refGuard_of_read (by rfl) past, hl _ (.inr ⟨not_not.mp fun hc => htt ⟨hst, hc⟩, comment, by simp⟩)⟩
  · exact fun _ => trivial

theorem hide_refFree (r : Request) (body : Option HideRequest) : Within Effect.RefFree (h.hide r body) := by
  unfold hide hide.finish Stmt.getStory Stmt.hideStory Stmt.getComment Stmt.hideComment
  repeat
    first
    | refine Within.bind ?_ fun _ => ?_
    | refine Within.ite ?_ ?_
    | exact Within.effect ⟨fun _ h => (by cases h), fun _ h => (by cases h)⟩
    | exact Within.pure _
    | split

theorem protect_refAllowed (routing : Routing) {next : Context → Prog Response} (r : Request)
    (hn : ∀ ctx, (next ctx).All fun l _ => ∀ past, Allowed refGuard past l) :
    (protect routing next r).All fun l _ => ∀ past, Allowed refGuard past l := by
  cases routing
  case bare => exact hn _
  case requireAuth =>
    refine All.allowed_bind ((validateToken_quiet r).allowed fun _ he => refGuard_of_read he.1) fun _ => ?_
    split
    · exact hn _
    · exact fun _ => trivial

-- Only `CreateComment` and `CreateVote` insert comments and votes, each after its reads.
theorem serve_refGuarded (routing : Routing) : Guarded (h.serve routing) fun _ => refGuard := by
  rintro ⟨call, r⟩
  suffices h' : (h.serve routing ⟨call, r⟩).All fun l _ => ∀ past, Allowed refGuard past l from
    h'.imp fun _ _ hl => hl []
  cases call
  case createComment body => exact protect_refAllowed routing r fun ctx => h.createComment_refAllowed r ctx body
  case createVote body => exact protect_refAllowed routing r fun ctx => h.createVote_refAllowed r ctx body
  case hide body => exact (h.hide_refFree r body).allowed fun _ he => refGuard_of_refFree he
  all_goals exact (serve_within h routing _).allowed fun _ he =>
    refGuard_of_refFree (Effect.refFree_of_writesIn he (by simp [Call.tables]) (by simp [Call.tables]))

variable (routing : Routing) {s : State ApiRequest Response}

-- Every comment row was inserted by a `CreateComment` whose checks found its parent, and the
-- rows it refers to are still there.
theorem commentPlaced_of_reachable (hreach : Reachable (h.serve routing) s) {c : Comment}
    (hc : c ∈ s.world.store.comments) : c.Placed s.world.store := by
  have hw := hreach.wf
  obtain ⟨_, hr⟩ := hreach
  have hgrow := Step.entry_contentGrows hr
  rcases Step.provenance (fun st => st.comments.map Comment.frozen)
      (fun ev r => ∃ c₀ b, ev = ⟨.createComment c₀, .ok b⟩ ∧ r = b.frozen)
      (fun st _ _ _ hcan _ hm => by obtain ⟨t, rfl⟩ := hcan.apply; exact Prog.Event.mem_frozenComments t st hm)
      hr c.frozen (List.mem_map_of_mem _ hc) with h₀ | ⟨x, hx, c₀, b, hev, hcb⟩
  · exact absurd h₀ (List.not_mem_nil _)
  obtain ⟨tr₁, tr₂, hsplit⟩ := List.mem_iff_append.mp hx
  have hsub : tr₁ ⊆ s.trace := hsplit ▸ List.subset_append_left _ _
  obtain ⟨-, -, hJ⟩ := hw.allowed_entry (h.serve_refGuarded routing) hsplit
  obtain ⟨_, -, hrun⟩ := hw.entry_run hx hev
  obtain ⟨⟨st, hst, hstid⟩, hbs, hbp⟩ := Effect.run_createComment hrun
  have hs : c.storyID = c₀.storyID := (congrArg Comment.storyID hcb).trans hbs
  have hp : c.parentID = c₀.parentID := (congrArg Comment.parentID hcb).trans hbp
  refine ⟨hs ▸ hstid ▸ (hgrow x hx).story_mem hst, fun hne => ?_⟩
  obtain ⟨p, hm, hps⟩ := hJ.1 c₀ (congrArg Event.effect hev) (hp ▸ hne)
  obtain ⟨y, hy, -, -, _, -, hpr⟩ := hw.read_entry hsub hm
  obtain ⟨hpm, hpid⟩ := Effect.run_getComment hpr
  obtain ⟨p', hp', e₁, e₂⟩ := (hgrow y (hsub hy)).comment_mem hpm
  exact ⟨p', hp', e₁.trans (hpid.trans hp.symm), e₂.trans (hps.trans hs.symm)⟩

-- Every vote row was inserted by a `CreateVote` whose checks found its target.
theorem votePlaced_of_reachable (hreach : Reachable (h.serve routing) s) {v : Vote}
    (hv : v ∈ s.world.store.votes) : v.Placed s.world.store := by
  have hw := hreach.wf
  obtain ⟨_, hr⟩ := hreach
  have hgrow := Step.entry_contentGrows hr
  rcases Step.provenance (fun st => st.votes.map Vote.frozen)
      (fun ev r => ∃ v₀ b, ev = ⟨.createVote v₀, .ok b⟩ ∧ r = b.frozen)
      (fun st _ _ _ hcan _ hm => by obtain ⟨t, rfl⟩ := hcan.apply; exact Prog.Event.mem_frozenVotes t st hm)
      hr v.frozen (List.mem_map_of_mem _ hv) with h₀ | ⟨x, hx, v₀, b, hev, hvb⟩
  · exact absurd h₀ (List.not_mem_nil _)
  obtain ⟨tr₁, tr₂, hsplit⟩ := List.mem_iff_append.mp hx
  have hsub : tr₁ ⊆ s.trace := hsplit ▸ List.subset_append_left _ _
  obtain ⟨-, -, hJ⟩ := hw.allowed_entry (h.serve_refGuarded routing) hsplit
  obtain ⟨_, -, hrun⟩ := hw.entry_run hx hev
  obtain ⟨hbt, hbi⟩ := Effect.run_createVote hrun
  have ht : v.targetType = v₀.targetType := (congrArg Vote.targetType hvb).trans hbt
  have hi : v.targetID = v₀.targetID := (congrArg Vote.targetID hvb).trans hbi
  rcases hJ.2 v₀ (congrArg Event.effect hev) with ⟨htt, st, hm⟩ | ⟨htt, cm, hm⟩
  · obtain ⟨y, hy, -, -, _, -, hsr⟩ := hw.read_entry hsub hm
    obtain ⟨hsm, hsid⟩ := Effect.run_getStory hsr
    exact .inl ⟨ht.trans htt, hi ▸ hsid ▸ (hgrow y (hsub hy)).story_mem hsm⟩
  · obtain ⟨y, hy, -, -, _, -, hcr⟩ := hw.read_entry hsub hm
    obtain ⟨hcm, hcid⟩ := Effect.run_getComment hcr
    obtain ⟨c', hc', e, -⟩ := (hgrow y (hsub hy)).comment_mem hcm
    exact .inr ⟨ht.trans htt, c', hc', e.trans (hcid.trans hi.symm)⟩

-- In every run, from the empty database, under either routing and whatever the interleaving of
-- the requests: every comment is on a story that is there, a reply's parent is there and in the
-- same story, and every vote is on a story or a comment that is there, as its target type says.
theorem referenced_of_reachable (hreach : Reachable (h.serve routing) s) : s.world.store.Referenced :=
  ⟨fun _ hc => h.commentPlaced_of_reachable routing hreach hc, fun _ hv => h.votePlaced_of_reachable routing hreach hv⟩

-- A story, a reply to it and an upvote of the reply, run one after the other.
theorem referenced_of_reachable_reply :
    let h : Handler := Handler.ofConfig Primitives.plain Config.load
    let s := (State.init 0).run (h.serve .bare) false
      ([.spawn ⟨.createStory (some ⟨"A story title", "", "some text", []⟩), .ofHeaders "" ""⟩] ++
        List.replicate 2 (.exec 0 ⟨second, false, "s1", by decide⟩) ++
        [.spawn ⟨.createComment (some ⟨"s1", "", "a reply"⟩), .ofHeaders "" ""⟩] ++
        List.replicate 4 (.exec 1 ⟨second, false, "c1", by decide⟩) ++
        [.spawn ⟨.createVote (some ⟨"comment", "c1", 1⟩), .ofHeaders "" ""⟩] ++
        List.replicate 5 (.exec 2 ⟨second, false, "v1", by decide⟩))
    Reachable (h.serve .bare) s ∧ s.world.store.comments.length = 1 ∧ s.world.store.votes.length = 1 ∧
      s.world.store.Referenced := by
  intro h s
  have hs : Reachable (h.serve .bare) s := ⟨0, State.run_steps _ _ _⟩
  exact ⟨hs, by decide, by decide, referenced_of_reachable h .bare hs⟩

end Handler

end Slashclaw
