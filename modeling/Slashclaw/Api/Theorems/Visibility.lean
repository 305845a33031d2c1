import Slashclaw.Api.Theorems.References
import Slashclaw.Api.Theorems.Comments
import Slashclaw.Api.Theorems.ErrorAnswers

namespace Slashclaw

open Execution Relation Prog

-- The ids of the story rows are distinct, as the `PRIMARY KEY` keeps them.
def Store.StoriesUnique (s : Store) : Prop :=
  (s.stories.map (·.id)).Nodup

-- A statement other than `CreateStory` keeps the ids of the story rows.
theorem Prog.Event.apply_storyIDs (t : Time) (s : Store) {e : Effect} (a : e.Answer)
    (he : ∀ st, e ≠ .createStory st) : (apply t s ⟨e, a⟩).stories.map (·.id) = s.stories.map (·.id) := by
  cases e
  case createStory st => exact absurd rfl (he st)
  case updateStoryScore | updateStoryCommentCount | hideStory =>
    rcases a with _ | ⟨⟩
    · rfl
    · exact map_map_of_forall fun st => by split <;> rfl
  case revokeAccountKey => rcases a with _ | ⟨⟩ <;> rfl
  all_goals first
    | rfl
    | (rcases a with _ | _ <;> rfl)

theorem Effect.Can.storiesUnique {s s' : Store} {e : Effect} {a : e.Answer} (h : Effect.Can s e a s')
    (hu : s.StoriesUnique) : s'.StoriesUnique := by
  by_cases he : ∃ st, e = .createStory st
  · obtain ⟨st, rfl⟩ := he
    obtain ⟨u, t, -, h⟩ := h
    rcases h.cases with ⟨_, -, rfl⟩ | ⟨b, hr, -⟩
    · exact hu
    · obtain ⟨hc, -, rfl⟩ := Store.createStory_eq_ok.mp hr
      exact Store.Tallied.nodup_append_fresh hu (by simpa using hc)
  · obtain ⟨t, rfl⟩ := h.apply
    unfold Store.StoriesUnique
    rw [Prog.Event.apply_storyIDs t s a fun st hst => he ⟨st, hst⟩]
    exact hu

namespace Execution.Reachable

variable {Req α : Type} {handle : Req → Prog α} {s : State Req α}

theorem storiesUnique (hr : Reachable handle s) : s.world.store.StoriesUnique :=
  have ⟨_, hr⟩ := hr
  Step.store_inv _ (fun _ _ _ _ hc hu => hc.storiesUnique hu) (show Store.empty.StoriesUnique from .nil) hr

theorem commentsUnique (hr : Reachable handle s) : s.world.store.CommentsUnique :=
  have ⟨_, hr⟩ := hr
  Step.store_inv _ (fun _ _ _ _ hc hu => hc.commentsUnique hu) (show Store.empty.CommentsUnique from .nil) hr

end Execution.Reachable

-- The best row `FindStoryByURL` keeps is the row it started with or one of those it went over.
theorem foldl_latest_mem {l : List Story} {acc : Option Story} {y : Story}
    (h : l.foldl (fun acc st => match acc with
      | some best => if best.createdAt < st.createdAt then some st else some best
      | none => some st) acc = some y) : acc = some y ∨ y ∈ l := by
  induction l generalizing acc with
  | nil => exact .inl h
  | cons st l ih =>
    rcases ih h with h | h
    · rcases acc with _ | best
      · exact .inr (Option.some.inj h ▸ .head _)
      · dsimp only at h
        split at h
        · exact .inr (Option.some.inj h ▸ .head _)
        · exact .inl h
    · exact .inr (.tail _ h)

namespace Store

variable {s : Store}

-- What the readers of the store show of a story id: `GetStory` finds nothing, and no page of
-- `ListStories` and no answer of `FindStoryByURL` holds a story of the id.
def StoryUnseen (s : Store) (id : String) : Prop :=
  s.getStory id = none ∧ (∀ now opts, ∀ y ∈ (s.listStories now opts).1, y.id ≠ id) ∧
    ∀ url since y, s.findStoryByURL url since = some y → y.id ≠ id

-- What they show of a comment id: `GetComment` finds nothing and no view of `ListComments` holds a
-- comment of the id.
def CommentUnseen (s : Store) (id : String) : Prop :=
  s.getComment id = none ∧ ∀ storyID sort, ∀ y ∈ s.commentRows storyID sort, y.id ≠ id

theorem listStories_visible {now : Time} {opts : ListOptions} {y : Story} (hy : y ∈ (s.listStories now opts).1) :
    y ∈ s.stories ∧ y.hidden = false := by
  have hy : y ∈ (s.stories.filter (!·.hidden)).mergeSort (storyOrder opts.sort now) := by
    unfold listStories at hy
    dsimp only at hy
    repeat' split at hy
    all_goals first
      | exact List.mem_of_mem_take (List.mem_of_mem_take hy)
      | exact List.mem_of_mem_take hy
  simpa using (List.mergeSort_perm _ _).mem_iff.mp hy

theorem findStoryByURL_visible {url : String} {since : LocalTime} {y : Story} (h : s.findStoryByURL url since = some y) :
    y ∈ s.stories ∧ y.hidden = false := by
  rcases foldl_latest_mem h with h | h
  · cases h
  · simp only [List.mem_filter, Bool.and_eq_true, Bool.not_eq_true'] at h
    exact ⟨h.1, h.2.2⟩

theorem commentRows_visible {storyID : String} {sort : SortOrder} {y : Comment} (hy : y ∈ s.commentRows storyID sort) :
    y ∈ s.comments ∧ y.hidden = false := by
  have hy := (List.mergeSort_perm _ _).mem_iff.mp hy
  simp only [List.mem_filter, Bool.and_eq_true, Bool.not_eq_true'] at hy
  exact ⟨hy.1, hy.2.2⟩

-- With distinct ids, a hidden row is the only row of its id: no visible row has it.
theorem StoriesUnique.visible_ne (hu : s.StoriesUnique) {x y : Story} (hx : x ∈ s.stories) (hh : x.hidden = true)
    (hy : y ∈ s.stories) (hv : y.hidden = false) : y.id ≠ x.id := fun e =>
  absurd (List.inj_on_of_nodup_map hu hy hx e ▸ hv) (by simp [hh])

theorem CommentsUnique.visible_ne (hu : s.CommentsUnique) {x y : Comment} (hx : x ∈ s.comments)
    (hh : x.hidden = true) (hy : y ∈ s.comments) (hv : y.hidden = false) : y.id ≠ x.id := fun e =>
  absurd (List.inj_on_of_nodup_map hu hy hx e ▸ hv) (by simp [hh])

theorem storyUnseen (hu : s.StoriesUnique) {x : Story} (hx : x ∈ s.stories) (hh : x.hidden = true) :
    s.StoryUnseen x.id := by
  refine ⟨List.find?_eq_none.mpr fun y hy h => ?_, fun _ _ y hy => ?_, fun _ _ y h => ?_⟩
  · simp only [Bool.and_eq_true, beq_iff_eq, Bool.not_eq_true'] at h
    exact hu.visible_ne hx hh hy h.2 h.1
  · exact hu.visible_ne hx hh (listStories_visible hy).1 (listStories_visible hy).2
  · exact hu.visible_ne hx hh (findStoryByURL_visible h).1 (findStoryByURL_visible h).2

theorem commentUnseen (hu : s.CommentsUnique) {x : Comment} (hx : x ∈ s.comments) (hh : x.hidden = true) :
    s.CommentUnseen x.id := by
  refine ⟨List.find?_eq_none.mpr fun y hy h => ?_, fun _ _ y hy => ?_⟩
  · simp only [Bool.and_eq_true, beq_iff_eq, Bool.not_eq_true'] at h
    exact hu.visible_ne hx hh hy h.2 h.1
  · exact hu.visible_ne hx hh (commentRows_visible hy).1 (commentRows_visible hy).2

-- With distinct ids, `GetStory` of a row's id finds that row, unless it is hidden.
theorem getStory_of_mem (hu : s.StoriesUnique) {x : Story} (hx : x ∈ s.stories) :
    s.getStory x.id = if x.hidden then none else some x := by
  split
  next hh => exact (storyUnseen hu hx hh).1
  next hh =>
    cases h : s.getStory x.id with
    | none => exact absurd (List.find?_eq_none.mp h x hx) (by simpa using hh)
    | some y =>
      have hp := List.find?_some h
      simp only [Bool.and_eq_true, beq_iff_eq] at hp
      exact congrArg some (List.inj_on_of_nodup_map hu (List.mem_of_find?_eq_some h) hx hp.1)

theorem getComment_of_mem (hu : s.CommentsUnique) {x : Comment} (hx : x ∈ s.comments) :
    s.getComment x.id = if x.hidden then none else some x := by
  split
  next hh => exact (commentUnseen hu hx hh).1
  next hh =>
    cases h : s.getComment x.id with
    | none => exact absurd (List.find?_eq_none.mp h x hx) (by simpa using hh)
    | some y =>
      have hp := List.find?_some h
      simp only [Bool.and_eq_true, beq_iff_eq] at hp
      exact congrArg some (List.inj_on_of_nodup_map hu (List.mem_of_find?_eq_some h) hx hp.1)

end Store

-- Over any interleaving of the requests of any handler: once `GetStory` found a story, the row
-- stays, with the same columns but its score and comment count, and every later `GetStory` of its
-- id finds it unless it was hidden; the same of `GetComment`, up to the score.
theorem Execution.Reachable.reads_stable {Req α : Type} {handle : Req → Prog α} {s s' : State Req α}
    (hreach : Reachable handle s) (hr : ReflTransGen (Step handle) s s') :
    (∀ id x, s.world.store.getStory id = some x → ∃ x' ∈ s'.world.store.stories, x'.frozen = x.frozen ∧
        s'.world.store.getStory id = if x'.hidden then none else some x') ∧
      ∀ id c, s.world.store.getComment id = some c → ∃ c' ∈ s'.world.store.comments, c'.frozen = c.frozen ∧
        s'.world.store.getComment id = if c'.hidden then none else some c' := by
  have hreach' : Reachable handle s' := have ⟨t, h₀⟩ := hreach; ⟨t, h₀.trans hr⟩
  have hg := Step.contentGrows hr
  refine ⟨fun id x h => ?_, fun id c h => ?_⟩
  · have hp := List.find?_some h
    simp only [Bool.and_eq_true, beq_iff_eq] at hp
    obtain ⟨x', hx', he⟩ := hg.stories.exists_of_mem (List.mem_of_find?_eq_some h)
    exact ⟨x', hx', he.1.symm, hp.1 ▸ he.id_eq ▸ Store.getStory_of_mem hreach'.storiesUnique hx'⟩
  · have hp := List.find?_some h
    simp only [Bool.and_eq_true, beq_iff_eq] at hp
    obtain ⟨c', hc', he⟩ := hg.comments.exists_of_mem (List.mem_of_find?_eq_some h)
    exact ⟨c', hc', he.1.symm, hp.1 ▸ he.keys_eq.1 ▸ Store.getComment_of_mem hreach'.commentsUnique hc'⟩

-- Over any interleaving of the requests of any handler: once a story or a comment row is hidden,
-- at every later moment no read of the store shows a story or a comment of its id.
theorem Execution.Reachable.hidden_final {Req α : Type} {handle : Req → Prog α} {s s' : State Req α}
    (hreach : Reachable handle s) (hr : ReflTransGen (Step handle) s s') :
    (∀ x ∈ s.world.store.stories, x.hidden = true → s'.world.store.StoryUnseen x.id) ∧
      ∀ c ∈ s.world.store.comments, c.hidden = true → s'.world.store.CommentUnseen c.id := by
  have hreach' : Reachable handle s' := have ⟨t, h₀⟩ := hreach; ⟨t, h₀.trans hr⟩
  have hg := Step.contentGrows hr
  refine ⟨fun x hx hh => ?_, fun c hc hh => ?_⟩
  · obtain ⟨x', hx', he⟩ := hg.stories.exists_of_mem hx
    exact he.id_eq ▸ Store.storyUnseen hreach'.storiesUnique hx' (he.2 hh)
  · obtain ⟨c', hc', he⟩ := hg.comments.exists_of_mem hc
    exact he.keys_eq.1 ▸ Store.commentUnseen hreach'.commentsUnique hc' (he.2 hh)

-- A story hidden by the admin, and a reply to it sent afterwards.
theorem Execution.Reachable.hidden_final_story :
    let h : Handler := Handler.ofConfig .plain { Config.load with adminSecret := "s" }
    let s := (State.init 0).run (h.serve .bare) false
      ([.spawn ⟨.createStory (some ⟨"A story title", "", "some text", []⟩), .ofHeaders "" ""⟩] ++
        List.replicate 2 (.exec 0 ⟨second, false, "s1", by decide⟩) ++
        [.spawn ⟨.hide (some ⟨"story", "s1"⟩), { Request.ofHeaders "" "" with adminSecret := "s" }⟩] ++
        List.replicate 2 (.exec 1 ⟨second, false, "x", by decide⟩))
    let s' := s.run (h.serve .bare) false
      ([.spawn ⟨.createComment (some ⟨"s1", "", "a reply"⟩), .ofHeaders "" ""⟩] ++
        List.replicate 2 (.exec 2 ⟨second, false, "c1", by decide⟩))
    Reachable (h.serve .bare) s ∧ ReflTransGen (Step (h.serve .bare)) s s' ∧
      (∃ x ∈ s.world.store.stories, x.hidden = true) ∧
      ((∀ x ∈ s.world.store.stories, x.hidden = true → s'.world.store.StoryUnseen x.id) ∧
        ∀ c ∈ s.world.store.comments, c.hidden = true → s'.world.store.CommentUnseen c.id) := by
  intro h s s'
  have hs : Reachable (h.serve .bare) s := ⟨0, State.run_steps _ _ _⟩
  have hr : ReflTransGen (Step (h.serve .bare)) s s' := State.run_steps _ _ _
  exact ⟨hs, hr, by decide, Reachable.hidden_final hs hr⟩

-- A story read after it was submitted, then a reply to it and an upvote of it.
theorem Execution.Reachable.reads_stable_vote :
    let h : Handler := Handler.ofConfig .plain Config.load
    let s := (State.init 0).run (h.serve .bare) false
      ([.spawn ⟨.createStory (some ⟨"A story title", "", "some text", []⟩), .ofHeaders "" ""⟩] ++
        List.replicate 2 (.exec 0 ⟨second, false, "s1", by decide⟩))
    let s' := s.run (h.serve .bare) false
      ([.spawn ⟨.createComment (some ⟨"s1", "", "a reply"⟩), .ofHeaders "" ""⟩] ++
        List.replicate 4 (.exec 1 ⟨second, false, "c1", by decide⟩) ++
        [.spawn ⟨.createVote (some ⟨"story", "s1", 1⟩), .ofHeaders "" ""⟩] ++
        List.replicate 5 (.exec 2 ⟨second, false, "v1", by decide⟩))
    Reachable (h.serve .bare) s ∧ ReflTransGen (Step (h.serve .bare)) s s' ∧
      (s.world.store.getStory "s1").isSome ∧ (s'.world.store.getStory "s1").map (·.score) = some 1 ∧
      ((∀ id x, s.world.store.getStory id = some x → ∃ x' ∈ s'.world.store.stories, x'.frozen = x.frozen ∧
        s'.world.store.getStory id = if x'.hidden then none else some x') ∧
      ∀ id c, s.world.store.getComment id = some c → ∃ c' ∈ s'.world.store.comments, c'.frozen = c.frozen ∧
        s'.world.store.getComment id = if c'.hidden then none else some c') := by
  intro h s s'
  have hs : Reachable (h.serve .bare) s := ⟨0, State.run_steps _ _ _⟩
  have hr : ReflTransGen (Step (h.serve .bare)) s s' := State.run_steps _ _ _
  exact ⟨hs, hr, by decide, by decide, Reachable.reads_stable hs hr⟩

-- A statement that hides nothing.
abbrev Effect.NoHide (e : Effect) : Prop :=
  (∀ id, e ≠ .hideStory id) ∧ ∀ id, e ≠ .hideComment id

theorem Effect.noHide_of_read {e : Effect} (he : e.table = none) : e.NoHide :=
  ⟨fun _ h => (by subst h; cases he), fun _ h => (by subst h; cases he)⟩

-- What a request has read before it hides a story or a comment: a row of that id.
def hideGuard (past : List Event) (e : Effect) : Prop :=
  (∀ id, e = .hideStory id → ∃ x, ⟨.getStory id, .ok (some x)⟩ ∈ past) ∧
    ∀ id, e = .hideComment id → ∃ c, ⟨.getComment id, .ok (some c)⟩ ∈ past

theorem Effect.noHide_of_writesIn {e : Effect} {ts : List Table} (h : e.writesIn ts = true)
    (hs : Table.stories ∉ ts) (hc : Table.comments ∉ ts) : e.NoHide :=
  ⟨fun _ he => hs (by simpa [he, Effect.writesIn, Effect.table] using h),
    fun _ he => hc (by simpa [he, Effect.writesIn, Effect.table] using h)⟩

theorem hideGuard_of_noHide {e : Effect} (he : e.NoHide) (past : List Event) : hideGuard past e :=
  ⟨fun id h => absurd h (he.1 id), fun id h => absurd h (he.2 id)⟩

namespace Handler

variable (h : Handler)

theorem createStory_insert_noHide (r : Request) (req : CreateStoryRequest) :
    Within Effect.NoHide (createStory.insert r req) := by
  dsimp only [createStory.insert, Stmt.createStory, Prog.pure_eq, Prog.pure_bind']
  split
  · exact Within.pure _
  · refine Within.bind ((validateToken_reads r).mono fun _ => Effect.noHide_of_read) fun _ =>
      Within.bind (Within.effect ⟨fun _ h => (by cases h), fun _ h => (by cases h)⟩) fun _ => ?_
    split <;> exact Within.pure _

theorem createStory_noHide (r : Request) (body : Option CreateStoryRequest) :
    Within Effect.NoHide (h.createStory r body) := by
  dsimp only [createStory, Stmt.findStoryByURL, Env.now, Prog.pure_eq, Prog.pure_bind']
  repeat' first
    | with_reducible first
      | exact createStory_insert_noHide r _
      | refine Within.bind ((h.checkRateLimit_reads r _ _).mono fun _ => Effect.noHide_of_read) fun _ => ?_
      | refine Within.bind (Within.effect ⟨fun _ h => (by cases h), fun _ h => (by cases h)⟩) fun _ => ?_
      | exact Within.pure _
      | refine Within.ite ?_ ?_
    | split

theorem createComment_noHide (r : Request) (ctx : Context) (body : Option CreateCommentRequest) :
    Within Effect.NoHide (h.createComment r ctx body) := by
  dsimp only [createComment, createComment.insert, Stmt.getStory, Stmt.getComment, Stmt.createComment,
    Stmt.updateStoryCommentCount, Prog.pure_eq, Prog.pure_bind']
  repeat' first
    | with_reducible first
      | refine Within.bind ((h.checkRateLimit_reads r _ _).mono fun _ => Effect.noHide_of_read) fun _ => ?_
      | refine Within.bind (Within.effect ⟨fun _ h => (by cases h), fun _ h => (by cases h)⟩) fun _ => ?_
      | exact Within.pure _
      | refine Within.ite ?_ ?_
    | split

theorem createVote_cast_noHide (r : Request) (req : CreateVoteRequest) (agentID : String) (agentVerified : Bool) :
    Within Effect.NoHide (createVote.cast h r req agentID agentVerified) := by
  dsimp only [createVote.cast, updateScore, Stmt.getVote, Stmt.updateVote, Stmt.createVote, Stmt.updateStoryScore,
    Stmt.updateCommentScore, Prog.pure_eq, Prog.pure_bind']
  repeat' first
    | with_reducible first
      | refine Within.bind (Within.effect ⟨fun _ h => (by cases h), fun _ h => (by cases h)⟩) fun _ => ?_
      | refine Within.bind (Within.ite (Within.effect ⟨fun _ h => (by cases h), fun _ h => (by cases h)⟩)
          (Within.effect ⟨fun _ h => (by cases h), fun _ h => (by cases h)⟩)) fun _ => ?_
      | exact Within.pure _
      | refine Within.ite ?_ ?_
    | split

theorem createVote_noHide (r : Request) (ctx : Context) (body : Option CreateVoteRequest) :
    Within Effect.NoHide (h.createVote r ctx body) := by
  dsimp only [createVote, Stmt.getStory, Stmt.getComment, Prog.pure_eq, Prog.pure_bind']
  repeat' first
    | with_reducible first
      | exact h.createVote_cast_noHide r _ _ _
      | refine Within.bind ((h.checkRateLimit_reads r _ _).mono fun _ => Effect.noHide_of_read) fun _ => ?_
      | refine Within.bind (Within.effect ⟨fun _ h => (by cases h), fun _ h => (by cases h)⟩) fun _ => ?_
      | exact Within.pure _
      | refine Within.ite ?_ ?_
    | split

-- `Hide` hides a story or a comment only after `GetStory` or `GetComment` found it.
theorem hide_hideAllowed (r : Request) (body : Option HideRequest) :
    (h.hide r body).All fun l _ => ∀ past, Allowed hideGuard past l := by
  unfold hide
  simp only [Stmt.getStory, Stmt.getComment, Stmt.hideStory, Stmt.hideComment, Prog.effect, Prog.exec_bind,
    Prog.all_exec, Prog.pure_bind', Prog.pure_eq]
  repeat' split
  all_goals first
    | exact fun _ => trivial
    | (intro a; dsimp only; split
       · exact fun past => ⟨hideGuard_of_noHide (Effect.noHide_of_read (by rfl)) past, trivial⟩
       · exact fun past => ⟨hideGuard_of_noHide (Effect.noHide_of_read (by rfl)) past, trivial⟩
       · exact fun _ past => ⟨hideGuard_of_noHide (Effect.noHide_of_read (by rfl)) past,
           ⟨fun _ he => by cases he <;> exact ⟨_, List.mem_append_right _ (List.mem_singleton_self _)⟩,
            fun _ he => by cases he <;> exact ⟨_, List.mem_append_right _ (List.mem_singleton_self _)⟩⟩,
           trivial⟩)

-- Only `Hide` hides, and only what it has found.
theorem serve_hideGuarded (routing : Routing) : Guarded (h.serve routing) fun _ => hideGuard := by
  rintro ⟨call, r⟩
  suffices h' : (h.serve routing ⟨call, r⟩).All fun l _ => ∀ past, Allowed hideGuard past l from
    h'.imp fun _ _ hl => hl []
  have hp : ∀ {next : Context → Prog Response}, (∀ ctx, Within Effect.NoHide (next ctx)) →
      (protect routing next r).All fun l _ => ∀ past, Allowed hideGuard past l := fun hn =>
    (protect_within routing r hn fun _ => Effect.noHide_of_read rfl).allowed fun _ he => hideGuard_of_noHide he
  cases call
  case hide body => exact h.hide_hideAllowed r body
  case createStory body => exact hp fun _ => h.createStory_noHide r body
  case createComment body => exact hp fun ctx => h.createComment_noHide r ctx body
  case createVote body => exact hp fun ctx => h.createVote_noHide r ctx body
  all_goals exact (serve_within h routing _).allowed fun _ he =>
    hideGuard_of_noHide (Effect.noHide_of_writesIn he (by simp [Call.tables]) (by simp [Call.tables]))

-- A `Hide` that answers 200 ran the `HideStory` or the `HideComment` of its target, and it answered.
theorem hide_ok_hid (r : Request) (req : HideRequest) :
    (h.hide r (some req)).All fun l res => ∀ resp, res = some resp → resp.status = 200 →
      if req.targetType = "story" then (⟨.hideStory req.targetID, .ok ()⟩ : Event) ∈ l
      else (⟨.hideComment req.targetID, .ok ()⟩ : Event) ∈ l := by
  unfold hide
  simp only [Stmt.getStory, Stmt.getComment, Stmt.hideStory, Stmt.hideComment, Prog.effect, Prog.exec_bind,
    Prog.all_exec, Prog.pure_bind', Prog.pure_eq]
  repeat' split
  all_goals first
    | (intro _ hr hs; cases hr; simp at hs)
    | (intro a; dsimp only; split
       all_goals first
        | (intro _ hr hs; cases hr; simp at hs; done)
        | (intro b _ hr hs
           cases hr
           rcases b with _ | ⟨⟩
           · simp [hide.finish] at hs
           · simp [*]))

end Handler

namespace Execution.Step

variable {Req α : Type} {handle : Req → Prog α} {s : State Req α} {w : World}

-- An effect of the trace ran on a database that grew, in the sense of `ContentGrows`, out of the
-- database of every earlier effect.
theorem before_contentGrows (h : ReflTransGen (Step handle) (.start w) s) {tr₁ tr₂ : List Entry} {x y : Entry}
    (ht : s.trace = tr₁ ++ x :: tr₂) (hy : y ∈ tr₁) : y.world.store.ContentGrows x.world.store :=
  (List.pairwise_append.mp (ht ▸ (Step.chain (R := fun y st => y.world.store.ContentGrows st)
    (fun _ _ hc => hc.contentGrows) (fun _ _ _ _ _ hc hg => hg.trans hc.contentGrows) h).1)).2.2 y hy x (.head _)

-- A `HideStory` of the trace that answered, run on a database with a row of its id: from then on
-- the database holds a hidden row of the id.
theorem hidden_story_after (h : ReflTransGen (Step handle) (.start w) s) {x : Entry} (hx : x ∈ s.trace)
    {id : String} (hev : x.event = ⟨.hideStory id, .ok ()⟩) (hex : ∃ z ∈ x.world.store.stories, z.id = id) :
    ∃ z ∈ s.world.store.stories, z.id = id ∧ z.hidden = true := by
  refine (Step.chain (R := fun y st => y.event = ⟨.hideStory id, .ok ()⟩ →
    (∃ z ∈ y.world.store.stories, z.id = id) → ∃ z ∈ st.stories, z.id = id ∧ z.hidden = true)
    (fun y st' hc he ⟨z, hz, hzid⟩ => ?_) (fun _ _ _ _ _ hc hR he hex => ?_) h).2 x hx hev hex
  · obtain ⟨_, _, _, ⟨e, a⟩⟩ := y
    cases he
    obtain ⟨t, rfl⟩ := hc.apply
    exact ⟨{ z with hidden := true }, List.mem_map.mpr ⟨z, hz, by simp [hzid]⟩, hzid, rfl⟩
  · obtain ⟨z, hz, hzid, hzh⟩ := hR he hex
    obtain ⟨z', hz', hzz⟩ := hc.contentGrows.stories.exists_of_mem hz
    exact ⟨z', hz', hzz.id_eq.trans hzid, hzz.2 hzh⟩

theorem hidden_comment_after (h : ReflTransGen (Step handle) (.start w) s) {x : Entry} (hx : x ∈ s.trace)
    {id : String} (hev : x.event = ⟨.hideComment id, .ok ()⟩) (hex : ∃ z ∈ x.world.store.comments, z.id = id) :
    ∃ z ∈ s.world.store.comments, z.id = id ∧ z.hidden = true := by
  refine (Step.chain (R := fun y st => y.event = ⟨.hideComment id, .ok ()⟩ →
    (∃ z ∈ y.world.store.comments, z.id = id) → ∃ z ∈ st.comments, z.id = id ∧ z.hidden = true)
    (fun y st' hc he ⟨z, hz, hzid⟩ => ?_) (fun _ _ _ _ _ hc hR he hex => ?_) h).2 x hx hev hex
  · obtain ⟨_, _, _, ⟨e, a⟩⟩ := y
    cases he
    obtain ⟨t, rfl⟩ := hc.apply
    exact ⟨{ z with hidden := true }, List.mem_map.mpr ⟨z, hz, by simp [hzid]⟩, hzid, rfl⟩
  · obtain ⟨z, hz, hzid, hzh⟩ := hR he hex
    obtain ⟨z', hz', hzz⟩ := hc.contentGrows.comments.exists_of_mem hz
    exact ⟨z', hz', hzz.keys_eq.1.trans hzid, hzz.2 hzh⟩

end Execution.Step

namespace Handler

variable (h : Handler) (routing : Routing) {s : State ApiRequest Response}

-- In every run from the empty database, under either routing and whatever the interleaving: once a
-- `Hide` request has answered 200, no read shows a story or a comment of its target id, as its
-- target type says.
theorem hide_final (hreach : Reachable (h.serve routing) s) {i : Nat} {r : Request} {req : HideRequest}
    (hreq : s.procs[i]?.map (·.req) = some ⟨.hide (some req), r⟩) {resp : Response}
    (hres : s.procs[i]?.bind (·.prog.result) = some resp) (h200 : resp.status = 200) :
    if req.targetType = "story" then s.world.store.StoryUnseen req.targetID
    else s.world.store.CommentUnseen req.targetID := by
  have hw := hreach.wf
  have ⟨_, hr⟩ := hreach
  obtain ⟨⟨_, prog⟩, hp, rfl⟩ := Option.map_eq_some'.mp hreq
  rw [hp, Option.some_bind] at hres
  have hsteps := hw.steps i _ hp
  have hprog : prog = .pure resp := by
    revert hres
    cases prog <;> simp [Prog.result]
  rw [hprog] at hsteps
  have hlog := (h.hide_ok_hid r req).returns hsteps resp rfl h200
  split at hlog <;> simp only [↓reduceIte, *]
  · obtain ⟨x, hx, hxi, hev⟩ := mem_traceLog.mp hlog
    obtain ⟨tr₁, tr₂, hsplit⟩ := List.mem_iff_append.mp hx
    obtain ⟨-, -, hJ⟩ := hw.allowed_entry (h.serve_hideGuarded routing) hsplit
    obtain ⟨st₀, hm⟩ := hJ.1 _ (congrArg Event.effect hev)
    obtain ⟨y, hy, -, -, _, -, hrun⟩ := hw.read_entry (hsplit ▸ List.subset_append_left _ _) hm
    obtain ⟨hst₀, hid₀⟩ := Effect.run_getStory hrun
    obtain ⟨z, hz, hzid, hzh⟩ := Step.hidden_story_after hr hx hev
      (hid₀ ▸ (Step.before_contentGrows hr hsplit hy).story_mem hst₀)
    exact hzid ▸ Store.storyUnseen hreach.storiesUnique hz hzh
  · obtain ⟨x, hx, hxi, hev⟩ := mem_traceLog.mp hlog
    obtain ⟨tr₁, tr₂, hsplit⟩ := List.mem_iff_append.mp hx
    obtain ⟨-, -, hJ⟩ := hw.allowed_entry (h.serve_hideGuarded routing) hsplit
    obtain ⟨c₀, hm⟩ := hJ.2 _ (congrArg Event.effect hev)
    obtain ⟨y, hy, -, -, _, -, hrun⟩ := hw.read_entry (hsplit ▸ List.subset_append_left _ _) hm
    obtain ⟨hc₀, hid₀⟩ := Effect.run_getComment hrun
    obtain ⟨c', hc', e, -⟩ := (Step.before_contentGrows hr hsplit hy).comment_mem hc₀
    obtain ⟨z, hz, hzid, hzh⟩ := Step.hidden_comment_after hr hx hev ⟨c', hc', e.trans hid₀⟩
    exact hzid ▸ Store.commentUnseen hreach.commentsUnique hz hzh

-- A story, and the admin's `Hide` of it, which answers 200.
theorem hide_final_story :
    let h : Handler := Handler.ofConfig .plain { Config.load with adminSecret := "s" }
    let r : Request := { Request.ofHeaders "" "" with adminSecret := "s" }
    let s := (State.init 0).run (h.serve .bare) false
      ([.spawn ⟨.createStory (some ⟨"A story title", "", "some text", []⟩), .ofHeaders "" ""⟩] ++
        List.replicate 2 (.exec 0 ⟨second, false, "s1", by decide⟩) ++
        [.spawn ⟨.hide (some ⟨"story", "s1"⟩), r⟩] ++ List.replicate 2 (.exec 1 ⟨second, false, "x", by decide⟩))
    Reachable (h.serve .bare) s ∧ s.procs[1]?.map (·.req) = some ⟨.hide (some ⟨"story", "s1"⟩), r⟩ ∧
      s.procs[1]?.bind (·.prog.result) = some (writeJSON 200 .ok) ∧ (writeJSON 200 .ok).status = 200 ∧
      if "story" = "story" then s.world.store.StoryUnseen "s1" else s.world.store.CommentUnseen "s1" := by
  intro h r s
  have hs : Reachable (h.serve .bare) s := ⟨0, State.run_steps _ _ _⟩
  have hreq : s.procs[1]?.map (·.req) = some ⟨.hide (some ⟨"story", "s1"⟩), r⟩ := by decide
  have hres : s.procs[1]?.bind (·.prog.result) = some (writeJSON 200 .ok) := by decide
  exact ⟨hs, hreq, hres, rfl, hide_final h .bare hs hreq hres rfl⟩

end Handler

end Slashclaw
