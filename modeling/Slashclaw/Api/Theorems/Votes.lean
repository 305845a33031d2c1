import Slashclaw.Api.Theorems.CreateStory
import Slashclaw.Api.Theorems.Footprint
import Slashclaw.Execution.Theorems.Trace
import Slashclaw.Auth.Theorems.Token

namespace Slashclaw

open Execution Relation

-- A story, then two anonymous upvotes of it from one address that both look for a vote before
-- either inserts: both insert, and the story has two votes of one `ip_hash`.
set_option maxRecDepth 4000 in
theorem createVote_duplicate_race :
    let h := Handler.ofConfig Primitives.plain Config.load
    let vote : CreateVoteRequest := ⟨"story", "s1", 1⟩
    let s := (State.init 0).run (h.serve .bare) false
      ([.spawn ⟨.createStory (some ⟨"A story title", "", "some text", []⟩), .ofHeaders "" ""⟩] ++
        List.replicate 2 (.exec 0 ⟨second, false, "s1", by decide⟩) ++
        [.spawn ⟨.createVote (some vote), .ofHeaders "" ""⟩, .spawn ⟨.createVote (some vote), .ofHeaders "" ""⟩] ++
        List.replicate 3 (.exec 1 ⟨second, false, "v1", by decide⟩) ++
        List.replicate 3 (.exec 2 ⟨second, false, "v2", by decide⟩) ++
        List.replicate 2 (.exec 1 ⟨second, false, "v1", by decide⟩) ++
        List.replicate 2 (.exec 2 ⟨second, false, "v2", by decide⟩))
    ReflTransGen (Step (h.serve .bare)) (.init 0) s ∧ s.Quiescent ∧
      (s.procs.map fun p => p.prog.result.map (·.status)) = [some 201, some 200, some 200] ∧
      s.world.store.votes.map (fun v => (v.id, v.targetID, v.ipHash, v.agentID)) =
        [("v1", "s1", hashIP Primitives.plain "1.2.3.4", ""), ("v2", "s1", hashIP Primitives.plain "1.2.3.4", "")] ∧
      hashIP Primitives.plain "1.2.3.4" ≠ "" ∧
      s.world.store.stories.map (·.score) = [2] := by
  intro h vote s
  exact ⟨State.run_steps _ _ _, by decide⟩

-- A vote row without its value, the one column `UpdateVote` writes.
def Vote.frozen (v : Vote) : Vote :=
  { v with value := 0 }

-- `s'` holds the vote rows of `s` in their places, changed in their values at most, and maybe more
-- rows after them.
def Store.VotesGrow (s s' : Store) : Prop :=
  s.votes.map Vote.frozen <+: s'.votes.map Vote.frozen

@[simp] theorem Store.frozen_updateVote (s : Store) (id : String) (value : Int) :
    (s.updateVote id value).votes.map Vote.frozen = s.votes.map Vote.frozen := by
  simp only [Store.updateVote, List.map_map]
  exact List.map_congr_left fun v _ => by dsimp only [Function.comp]; split <;> rfl

namespace Prog.Event

theorem apply_votes (t : Time) (s : Store) {e : Effect} (a : e.Answer) (he : e.table ≠ some .votes) :
    (apply t s ⟨e, a⟩).votes = s.votes := by
  cases e
  case createVote | updateVote => exact absurd rfl he
  case revokeAccountKey => rcases a with _ | ⟨⟩ <;> rfl
  all_goals first
    | rfl
    | (rcases a with _ | _ <;> rfl)

theorem apply_votesGrow (t : Time) (s : Store) (ev : Event) : s.VotesGrow (ev.apply t s) := by
  obtain ⟨e, a⟩ := ev
  cases he : e.table == some .votes
  · simp only [Store.VotesGrow, apply_votes t s a (by simpa using he), List.prefix_refl]
  · cases e <;> simp [Effect.table] at he
    case createVote =>
      rcases a with _ | v
      · exact List.prefix_refl _
      · show s.votes.map Vote.frozen <+: (s.votes ++ [v]).map Vote.frozen
        rw [List.map_append]
        exact List.prefix_append _ _
    case updateVote id v =>
      rcases a with _ | ⟨⟩
      · exact List.prefix_refl _
      · show s.votes.map Vote.frozen <+: (s.updateVote id v).votes.map Vote.frozen
        simp only [Store.frozen_updateVote, List.prefix_refl]

end Prog.Event

-- Over any interleaving, from any state on, the vote rows only grow and change their values.
theorem Step.votesGrow {handle : ApiRequest → Prog Response} {s s' : State ApiRequest Response}
    (h : ReflTransGen (Step handle) s s') : s.world.store.VotesGrow s'.world.store := by
  induction h with
  | refl => exact List.prefix_refl _
  | tail _ hs ih =>
    rcases hs.can with ⟨heq, -⟩ | ⟨_, _, _, _, _, _, _, hc⟩
    · exact heq ▸ ih
    · obtain ⟨t, e⟩ := hc.apply
      exact ih.trans (e ▸ Prog.Event.apply_votesGrow t _ _)

-- Two vote rows of one target share neither a non-empty `ip_hash` nor a non-empty `agent_id`.
def Vote.Distinct (a b : Vote) : Prop :=
  a.targetType = b.targetType → a.targetID = b.targetID →
    nullEq a.ipHash b.ipHash = false ∧ nullEq a.agentID b.agentID = false

def Store.VotesDistinct (s : Store) : Prop :=
  s.votes.Pairwise Vote.Distinct

-- `GetVote` finds nothing exactly when no vote of the target matches the address or the agent.
theorem Store.getVote_eq_none {s : Store} {tt tid ip ag : String} :
    s.getVote tt tid ip ag = none ↔
      ∀ v ∈ s.votes, v.targetType = tt → v.targetID = tid → nullEq v.ipHash ip = false ∧ nullEq v.agentID ag = false := by
  simp [Store.getVote, List.find?_eq_none]

-- Every statement but an insert of a vote keeps the votes distinct.
theorem Effect.Can.votesDistinct {s s' : Store} {e : Effect} {a : e.Answer} (h : Effect.Can s e a s')
    (he : ∀ v, e ≠ .createVote v) (hs : s.VotesDistinct) : s'.VotesDistinct := by
  obtain ⟨t, rfl⟩ := h.apply
  cases ht : e.table == some .votes
  · rw [Store.VotesDistinct, Prog.Event.apply_votes t s a (by simpa using ht)]
    exact hs
  · cases e <;> simp [Effect.table] at ht
    case createVote v => exact absurd rfl (he v)
    case updateVote id v =>
      rcases a with _ | ⟨⟩
      · exact hs
      · exact hs.map _ fun {a b} hab => by split <;> split <;> exact hab

-- An insert of a vote that `GetVote` did not find on the database keeps the votes distinct.
theorem Store.VotesDistinct.createVote {st : Store} {vote : Vote} {c : Choice} {lim : MemoryLimiter}
    (hs : st.VotesDistinct) (hn : st.getVote vote.targetType vote.targetID vote.ipHash vote.agentID = none) :
    ((Effect.createVote vote).run c ⟨st, lim, c.time⟩).2.store.VotesDistinct := by
  rcases (World.exec_outcome ⟨st, lim, c.time⟩ c.fail (·.createVote vote c.fresh c.time)).cases with
    ⟨_, -, e⟩ | ⟨b, hr, -⟩
  · exact e ▸ hs
  · obtain ⟨-, -, e⟩ := Store.createVote_eq_ok.mp hr
    refine (congrArg Store.VotesDistinct e).mpr (List.pairwise_append.mpr ⟨hs, List.pairwise_singleton _ _, ?_⟩)
    rintro x hx _ hy
    obtain rfl := List.mem_singleton.mp hy
    exact Store.getVote_eq_none.mp hn x hx

-- `String.join` is a `foldl` of appends, which never shortens what it starts from.
theorem length_foldl_append (acc : String) (l : List String) : acc.length ≤ (l.foldl (· ++ ·) acc).length := by
  induction l generalizing acc with
  | nil => exact Nat.le_refl _
  | cons x l ih => exact (String.length_append acc x ▸ Nat.le_add_right _ _).trans (ih _)

-- With SHA-256's 32 bytes, an address hash is 16 pairs of hex digits: it is never empty.
theorem hashIP_ne_empty {P : Primitives} (hP : P.Lawful) (ip : String) : hashIP P ip ≠ "" := by
  obtain ⟨b, l, hl⟩ := List.exists_cons_of_length_pos (l := (P.sha256 ip.toUTF8.data.toList).take 16)
    (by rw [List.length_take, hP.sha256_length]; decide)
  intro h
  rw [hashIP, hl, List.map_cons, String.join, List.foldl_cons] at h
  have := h ▸ length_foldl_append _ _
  simp at this

-- A statement that inserts no vote without an address hash.
def Effect.HashedVote (e : Effect) : Prop :=
  ∀ v, e = .createVote v → v.ipHash ≠ ""

-- Every vote row has an address hash.
def Store.VotesHashed (s : Store) : Prop :=
  ∀ v ∈ s.votes, v.ipHash ≠ ""

theorem Effect.Can.votesHashed {s s' : Store} {e : Effect} {a : e.Answer} (h : Effect.Can s e a s')
    (he : e.HashedVote) (hs : s.VotesHashed) : s'.VotesHashed := by
  cases ht : e.table == some .votes
  · obtain ⟨t, rfl⟩ := h.apply
    rw [Store.VotesHashed, Prog.Event.apply_votes t s a (by simpa using ht)]
    exact hs
  · cases e <;> simp [Effect.table] at ht
    case createVote v =>
      obtain ⟨u, t, -, h⟩ := h
      rcases h.cases with ⟨_, -, rfl⟩ | ⟨b, hr, -⟩
      · exact hs
      · obtain ⟨-, -, rfl⟩ := Store.createVote_eq_ok.mp hr
        intro w hw
        rcases List.mem_append.mp hw with hw | hw
        · exact hs w hw
        · exact List.mem_singleton.mp hw ▸ he v rfl
    case updateVote =>
      obtain ⟨t, rfl⟩ := h.apply
      rcases a with _ | ⟨⟩
      · exact hs
      · intro w hw
        obtain ⟨v, hv, e⟩ := List.mem_map.mp ((Store.frozen_updateVote s _ _) ▸ List.mem_map_of_mem Vote.frozen hw)
        exact congrArg Vote.ipHash e ▸ hs v hv

-- Two rows of one target with distinct non-empty hashes have distinct hashes.
theorem Store.VotesDistinct.ipHash_ne {s : Store} (hd : s.VotesDistinct) (hh : s.VotesHashed) :
    s.votes.Pairwise fun a b => a.targetType = b.targetType → a.targetID = b.targetID → a.ipHash ≠ b.ipHash :=
  hd.imp_of_mem fun _ hb hab htt hti he => by
    simpa [nullEq, he, hh _ hb] using (hab htt hti).1

theorem all_votesDistinct_bind {β : Type} {p : Prog β} {f : β → Prog Response}
    (hp : Prog.Within (fun e => ∀ v, e ≠ .createVote v) p) (hf : ∀ b, (f b).All fun l _ => KeepsAt Store.VotesDistinct l) :
    (p >>= f).All fun l _ => KeepsAt Store.VotesDistinct l :=
  Prog.all_keepsAt_bind (fun _ _ _ _ hc he hs => hc.votesDistinct he hs) hp hf

theorem Effect.not_createVote_of_read {e : Effect} (he : e.table = none) (v : Vote) : e ≠ .createVote v := by
  rintro rfl
  cases he

-- `GetVote` found none, then the vote of that target, address and agent is inserted.
theorem keepsAt_getVote_createVote {tt tid ip ag : String} {vote : Vote}
    (hv : vote.targetType = tt ∧ vote.targetID = tid ∧ vote.ipHash = ip ∧ vote.agentID = ag)
    (a : (Effect.createVote vote).Answer) :
    KeepsAt Store.VotesDistinct [⟨.getVote tt tid ip ag, .ok none⟩, ⟨.createVote vote, a⟩] := by
  obtain ⟨rfl, rfl, rfl, rfl⟩ := hv
  intro t st st' hr hs
  obtain ⟨c₁, _, -, hg, c₂, _, -, -, hr⟩ := hr
  rw [show st' = _ from hr, (Effect.can_run c₁ _ (.getVote _ _ _ _)).eq_of_read rfl]
  exact hs.createVote (World.exec_read hg).symm

namespace Handler

variable (h : Handler)

theorem updateScore_not_createVote (req : CreateVoteRequest) (delta : Int) :
    Prog.Within (fun e => ∀ v, e ≠ .createVote v) (updateScore req delta) := by
  unfold updateScore Stmt.updateStoryScore Stmt.updateCommentScore
  exact .ite (.effect (by simp)) (.effect (by simp))

-- A vote is inserted right after `GetVote` found none for its target, address and agent.
theorem createVote_cast_keeps (r : Request) (req : CreateVoteRequest) (agentID : String) (agentVerified : Bool) :
    (createVote.cast h r req agentID agentVerified).All fun l _ => KeepsAt Store.VotesDistinct l := by
  have hI : ∀ st e a st', Effect.Can st e a st' → (∀ v, e ≠ .createVote v) → st.VotesDistinct →
      st'.VotesDistinct := fun _ _ _ _ hc he hs => hc.votesDistinct he hs
  unfold createVote.cast
  simp only [Stmt.getVote, Prog.effect, Prog.exec_bind, Prog.all_exec, Prog.pure_bind', Effect.Answer]
  rintro (e | _ | v)
  · exact .of_forall hI (by simp)
  · simp only [Stmt.createVote, Prog.effect, Prog.exec_bind, Prog.all_exec, Prog.pure_bind']
    intro a
    refine (?_ : Prog.Within (fun e => ∀ v, e ≠ .createVote v) _).all.imp fun l _ hl =>
      KeepsAt.append (l := [_, _]) (keepsAt_getVote_createVote ⟨rfl, rfl, rfl, rfl⟩ a) (.of_forall hI hl)
    split
    · exact .pure _
    · exact .bind (updateScore_not_createVote req _) fun _ => .pure _
  · refine (?_ : Prog.Within (fun e => ∀ v, e ≠ .createVote v) _).all.imp fun l _ hl =>
      .of_forall hI (List.forall_mem_cons.mpr ⟨by simp, hl⟩)
    dsimp only
    split
    · refine .bind (.effect (by simp)) fun b => ?_
      split
      · exact .pure _
      · exact .bind (updateScore_not_createVote req _) fun _ => .pure _
    · exact .pure _

theorem createVote_keeps (r : Request) (ctx : Context) (body : Option CreateVoteRequest) :
    (h.createVote r ctx body).All fun l _ => KeepsAt Store.VotesDistinct l := by
  unfold createVote
  refine all_votesDistinct_bind ((h.checkRateLimit_quiet r _ _).mono fun _ he => Effect.not_createVote_of_read he.1)
    fun ⟨allowed, ra⟩ => ?_
  simp only [Prog.pure_eq, Prog.pure_bind']
  split
  · exact .nil
  split
  next req =>
    split
    · exact .nil
    split
    · exact .nil
    -- the story or the comment voted on, then `cast` unless it is the voter's own
    split
    all_goals
      refine all_votesDistinct_bind (.effect (by simp)) fun a => ?_
      split
      · exact .nil
      · exact .nil
      · split
        · exact .nil
        · exact h.createVote_cast_keeps r req _ _
  · exact .nil

-- Only `CreateVote` inserts votes: every other route writes tables other than `votes`.
theorem serve_keepsVotes (routing : Routing) (a : ApiRequest) :
    (h.serve routing a).All fun l _ => KeepsAt Store.VotesDistinct l := by
  have hI : ∀ st e a st', Effect.Can st e a st' → (∀ v, e ≠ .createVote v) → st.VotesDistinct →
      st'.VotesDistinct := fun _ _ _ _ hc he hs => hc.votesDistinct he hs
  rcases a with ⟨call, r⟩
  cases call
  case createVote b =>
    cases routing
    case bare => exact h.createVote_keeps r _ b
    case requireAuth =>
      refine all_votesDistinct_bind ((validateToken_quiet r).mono fun _ he => Effect.not_createVote_of_read he.1)
        fun a => ?_
      split
      · exact h.createVote_keeps r _ b
      · exact .nil
  all_goals
    refine (serve_within h routing _).all.imp fun l _ hl => .of_forall hI fun ev hev v he => ?_
    have := hl ev hev
    rw [he] at this
    simp [Call.tables, Effect.writesIn, Effect.table] at this

-- With the library's facts, every vote a request inserts carries the hash of its address.
theorem createVote_hashed (hP : h.prims.Lawful) (r : Request) (ctx : Context) (body : Option CreateVoteRequest) :
    Prog.Within Effect.HashedVote (h.createVote r ctx body) := by
  unfold createVote createVote.cast checkRateLimit Env.allow Env.retryAfter updateScore Stmt.getStory
    Stmt.getComment Stmt.getVote Stmt.updateVote Stmt.createVote Stmt.updateStoryScore Stmt.updateCommentScore
  repeat
    first
    | refine Prog.Within.bind ?_ fun _ => ?_
    | refine Prog.Within.ite ?_ ?_
    | exact Prog.Within.effect (by rintro v ⟨⟩ <;> exact hashIP_ne_empty hP _)
    | exact Prog.Within.pure _
    | split

theorem serve_votesHashed (hP : h.prims.Lawful) (routing : Routing) (a : ApiRequest) :
    Prog.Within Effect.HashedVote (h.serve routing a) := by
  rcases a with ⟨call, r⟩
  cases call
  case createVote b =>
    simp only [serve]
    exact protect_within routing r (fun ctx => h.createVote_hashed hP r ctx b) fun _ _ he => nomatch he
  all_goals
    refine (serve_within h routing _).mono fun e he v hv => ?_
    subst hv
    simp [Call.tables, Effect.writesIn, Effect.table] at he

end Handler

-- Over any interleaving, from any state on, the vote rows only grow and change their values; served
-- one at a time, no two votes of one target share a non-empty address hash or agent id, and with
-- the library's facts every address hash is non-empty, so no two votes of one target share one.
theorem createVote_one_per_voter (h : Handler) (routing : Routing) :
    (∀ s s' : State ApiRequest Response, ReflTransGen (Step (h.serve routing)) s s' →
      s.world.store.VotesGrow s'.world.store) ∧
    ∀ t (s : State ApiRequest Response), ReflTransGen (SeqStep (h.serve routing)) (.init t) s → s.Quiescent →
      s.world.store.VotesDistinct ∧ (h.prims.Lawful → s.world.store.votes.Pairwise fun a b =>
        a.targetType = b.targetType → a.targetID = b.targetID → a.ipHash ≠ b.ipHash) := by
  refine ⟨fun _ _ => Step.votesGrow, fun t s hs hq => ?_⟩
  have hp : PreservesAt (fun _ : ApiRequest => True) (fun _ => False) (fun st _ => st.VotesDistinct)
      (h.serve routing) :=
    fun req st _ t _ hi => (h.serve_keepsVotes routing req).imp fun _ _ hk st' hrep _ => hk t st st' hrep hi
  have hd := SeqStep.hoareAt (w := .init t) List.Pairwise.nil hp hs (fun _ _ => trivial) (fun _ _ => id) hq
  refine ⟨hd, fun hP => hd.ipHash_ne ?_⟩
  have hp' : PreservesAt (fun _ : ApiRequest => True) (fun _ => False) (fun st _ => st.VotesHashed)
      (h.serve routing) := fun req st _ t _ hi =>
    (h.serve_votesHashed hP routing req).all.imp fun _ _ hl st' hrep _ =>
      KeepsAt.of_forall (fun _ _ _ _ hc he hs => hc.votesHashed he hs) hl t st st' hrep hi
  exact SeqStep.hoareAt (w := .init t) (fun _ h => nomatch h) hp' hs (fun _ _ => trivial) (fun _ _ => id) hq

-- A story and a comment on it, each upvoted from one address, served one at a time on the packed
-- library: two vote rows, on two targets, with one non-empty address hash.
set_option maxRecDepth 4000 in
theorem createVote_one_per_voter_two_targets :
    let h := Handler.ofConfig Primitives.packed Config.load
    let s := (State.init 0).run (h.serve .bare) true
      ([.spawn ⟨.createStory (some ⟨"A story title", "", "some text", []⟩), .ofHeaders "" ""⟩] ++
        List.replicate 2 (.exec 0 ⟨second, false, "s1", by decide⟩) ++
        [.spawn ⟨.createComment (some ⟨"s1", "", "a comment"⟩), .ofHeaders "" ""⟩] ++
        List.replicate 4 (.exec 1 ⟨second, false, "c1", by decide⟩) ++
        [.spawn ⟨.createVote (some ⟨"story", "s1", 1⟩), .ofHeaders "" ""⟩] ++
        List.replicate 5 (.exec 2 ⟨second, false, "v1", by decide⟩) ++
        [.spawn ⟨.createVote (some ⟨"comment", "c1", 1⟩), .ofHeaders "" ""⟩] ++
        List.replicate 5 (.exec 3 ⟨second, false, "v2", by decide⟩))
    s.world.store.votes.map (fun v => (v.targetID, v.ipHash)) =
        [("s1", hashIP Primitives.packed "1.2.3.4"), ("c1", hashIP Primitives.packed "1.2.3.4")] ∧
      (State.init 0 : State ApiRequest Response).world.store.VotesGrow s.world.store ∧
      s.world.store.VotesDistinct ∧ s.world.store.votes.Pairwise fun a b =>
        a.targetType = b.targetType → a.targetID = b.targetID → a.ipHash ≠ b.ipHash := by
  intro h s
  have hd := (createVote_one_per_voter h .bare).2 0 s (State.run_seqSteps _ _) (by decide)
  exact ⟨by decide, (createVote_one_per_voter h .bare).1 _ s (State.run_steps _ _ _), hd.1, hd.2 Primitives.packed_lawful⟩

end Slashclaw
