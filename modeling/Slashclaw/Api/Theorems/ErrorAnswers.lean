import Slashclaw.Api.Theorems.CreateStory
import Slashclaw.Effect.Failure

namespace Slashclaw

open Prog

-- An event that left the database as it found it: a statement that writes no table, or one that
-- answered an error.
def Prog.Event.Inert (ev : Event) : Prop :=
  ev.effect.table = none ∨ ev.effect.failed ev.answer = true

theorem Prog.Event.apply_of_failed (t : Time) (s : Store) {e : Effect} {a : e.Answer} (h : e.failed a = true) :
    apply t s ⟨e, a⟩ = s := by
  cases e <;> first | cases h | (rcases a with _ | _ <;> first | rfl | cases h)

theorem Effect.Can.eq_of_inert {s s' : Store} {e : Effect} {a : e.Answer} (h : Effect.Can s e a s')
    (hi : (⟨e, a⟩ : Event).Inert) : s' = s := by
  rcases hi with hr | hf
  · exact h.eq_of_read hr
  · obtain ⟨t, rfl⟩ := h.apply
    exact Prog.Event.apply_of_failed t s hf

theorem replays_inert {s s' : Store} {l : List Event} (h : Replays s l s') (hl : ∀ ev ∈ l, ev.Inert) : s' = s := by
  induction l generalizing s with
  | nil => exact h
  | cons ev l ih =>
    obtain ⟨s₁, hc, h⟩ := h
    rw [ih h fun ev' h' => hl ev' (.tail _ h'), hc.eq_of_inert (hl ev (.head _))]

-- Of a finished run of a program: unless it returned a value of `G`, each statement it ran left
-- the database as it was.
def InertUnless {β : Type} (G : β → Prop) (l : List Event) (r : Option β) : Prop :=
  ∀ b, r = some b → ¬G b → ∀ ev ∈ l, ev.Inert

-- Of a finished run of a program: it returned a value of `G`, or panicked.
def Returns {β : Type} (G : β → Prop) (_ : List Event) (r : Option β) : Prop :=
  ∀ b, r = some b → G b

section

variable {β γ : Type} {G : β → Prop}

theorem Returns.pure {b : β} (h : G b) : (Prog.pure b).All (Returns G) :=
  fun _ hr => Option.some.inj hr ▸ h

theorem Returns.bind (p : Prog γ) {f : γ → Prog β} (hf : ∀ c, (f c).All (Returns G)) : (p >>= f).All (Returns G) :=
  all_bind.mpr <| All.intro fun _ r => by
    cases r with
    | none => exact fun _ h => nomatch h
    | some c => exact (hf c).imp fun _ _ h => h

theorem InertUnless.pure (b : β) : (Prog.pure b).All (InertUnless G) :=
  fun _ _ _ _ h => nomatch h

-- A program whose runs wrote nothing unless they returned a value of `G'`, followed by a
-- continuation that returns a value of `G` after such a value.
theorem InertUnless.bind {p : Prog γ} {f : γ → Prog β} (G' : γ → Prop) (hp : p.All (InertUnless G'))
    (hf : ∀ c, ¬G' c → (f c).All (InertUnless G)) (hg : ∀ c, G' c → (f c).All (Returns G)) :
    (p >>= f).All (InertUnless G) :=
  all_bind.mpr <| hp.imp fun l r hl => by
    cases r with
    | none => exact fun _ h => nomatch h
    | some c =>
      by_cases hc : G' c
      · exact (hg c hc).imp fun _ _ h b hr hb => absurd (h b hr) hb
      · exact (hf c hc).imp fun _ _ h b hr hb ev hev =>
          (List.mem_append.mp hev).elim (hl c rfl hc ev) (h b hr hb ev)

theorem InertUnless.bind_read {p : Prog γ} {f : γ → Prog β} (hp : Within (fun e => e.table = none) p)
    (hf : ∀ c, (f c).All (InertUnless G)) : (p >>= f).All (InertUnless G) :=
  bind (fun _ => False) (hp.all.imp fun _ _ hl _ _ _ ev hev => .inl (hl ev hev)) (fun c _ => hf c)
    fun _ h => h.elim

-- A write, and once it succeeded a value of `G`.
theorem InertUnless.bind_write {e : Effect} {f : e.Answer → Prog β}
    (hf : ∀ a, ¬e.failed a = false → (f a).All (InertUnless G)) (hs : ∀ a, e.failed a = false → (f a).All (Returns G)) :
    (effect e >>= f).All (InertUnless G) :=
  bind (fun a => e.failed a = false)
    (fun a _ hr ha ev hev => by
      cases hr
      rcases List.mem_singleton.mp hev with rfl
      exact .inr (Bool.not_eq_false _ ▸ ha))
    hf hs

end

-- Of a finished run of a handler: when it answers an error status, each statement it ran left the
-- database as it was.
abbrev ErrorInert : List Event → Option Response → Prop :=
  InertUnless fun resp => resp.status < 400

-- The routes that run `VerifyAndCreateToken`, which deletes the challenge before its last
-- statements and checks.
def Call.verifies : Call → Bool
  | .verifyChallenge _ | .createAccount _ | .addAccountKey _ => true
  | _ => false

-- `CreateChallenge` of the service writes nothing unless it returns a challenge.
theorem Service.createChallenge_inert (svc : Service) (agentID alg : String) :
    (svc.createChallenge agentID alg).All (InertUnless fun r => r.toBool = true) := by
  simp only [Service.createChallenge, Prog.pure_eq, Prog.pure_bind']
  repeat' first
    | exact InertUnless.pure _
    | refine InertUnless.bind_read (Within.effect (by rfl)) fun _ => ?_
    | refine InertUnless.bind_write (fun _ _ => ?_) fun _ _ => ?_
    | (exfalso; cases ‹Effect.failed _ _ = false›; done)
    | exact Returns.pure rfl
    | split

namespace Handler

variable (h : Handler)

theorem checkRateLimit_reads (r : Request) (action : String) (limit : Int) :
    Within (fun e => e.table = none) (h.checkRateLimit r action limit) :=
  (h.checkRateLimit_quiet r action limit).mono fun _ he => he.1

theorem validateToken_reads (r : Request) : Within (fun e => e.table = none) (validateToken r) :=
  (validateToken_quiet r).mono fun _ he => he.1

theorem protect_errorInert (routing : Routing) {next : Context → Prog Response} (r : Request)
    (hn : ∀ ctx, (next ctx).All ErrorInert) : (protect routing next r).All ErrorInert := by
  cases routing
  case bare => exact hn _
  case requireAuth =>
    refine InertUnless.bind_read (validateToken_reads r) fun _ => ?_
    split
    · exact hn _
    · exact InertUnless.pure _

theorem createStory_insert_errorInert (r : Request) (req : CreateStoryRequest) :
    (createStory.insert r req).All ErrorInert := by
  dsimp only [createStory.insert, Stmt.createStory, Prog.pure_eq, Prog.pure_bind']
  split
  · exact InertUnless.pure _
  refine InertUnless.bind_read (validateToken_reads r) fun _ => InertUnless.bind_write (fun _ _ => ?_) fun _ _ => ?_
  · split <;> exact InertUnless.pure _
  · split
    · contradiction
    · exact Returns.pure (by simp)

theorem createComment_insert_errorInert (ctx : Context) (req : CreateCommentRequest) :
    (createComment.insert ctx req).All ErrorInert := by
  dsimp only [createComment.insert, getAuthFromContext, Stmt.createComment, Prog.pure_eq, Prog.pure_bind']
  refine InertUnless.bind_write (fun _ hf => ?_) fun _ _ => ?_
  · split
    · exact InertUnless.pure _
    · exact absurd rfl hf
  · split
    · contradiction
    · exact Returns.bind _ fun _ => Returns.pure (by simp)

theorem createVote_cast_errorInert (r : Request) (req : CreateVoteRequest) (agentID : String) (agentVerified : Bool) :
    (createVote.cast h r req agentID agentVerified).All ErrorInert := by
  dsimp only [createVote.cast, Stmt.getVote, Stmt.updateVote, Stmt.createVote, Prog.pure_eq, Prog.pure_bind']
  refine InertUnless.bind_read (Within.effect rfl) fun _ => ?_
  split
  · exact InertUnless.pure _
  · split
    · refine InertUnless.bind_write (fun _ hf => ?_) fun _ _ => ?_
      · split
        · exact InertUnless.pure _
        · exact absurd rfl hf
      · split
        · contradiction
        · exact Returns.bind _ fun _ => Returns.pure (by simp)
    · exact InertUnless.pure _
  · refine InertUnless.bind_write (fun _ hf => ?_) fun _ _ => ?_
    · split
      · exact InertUnless.pure _
      · exact absurd rfl hf
    · split
      · contradiction
      · exact Returns.bind _ fun _ => Returns.pure (by simp)
-- Every other route writes last: a run that answers an error status wrote nothing.
theorem serve_errorInert (routing : Routing) (a : ApiRequest) (ha : a.call.verifies = false) :
    (h.serve routing a).All ErrorInert := by
  obtain ⟨call, r⟩ := a
  cases call <;> simp only [Call.verifies, Bool.true_eq_false] at ha <;> simp only [serve]
  all_goals try refine protect_errorInert routing r fun _ => ?_
  all_goals dsimp only [createStory, createComment, createVote, hide, hide.finish, createChallenge, getStory,
    getAccount, deleteAccountKey, Stmt.findStoryByURL, Stmt.getStory, Stmt.getComment, Stmt.hideStory,
    Stmt.hideComment, Stmt.getAccount, Stmt.getAccountKey, Stmt.revokeAccountKey, Env.now, Prog.pure_eq,
    Prog.pure_bind']
  all_goals repeat' first
    | with_reducible first
      | exact InertUnless.pure _
      | exact createStory_insert_errorInert r _
      | exact createComment_insert_errorInert _ _
      | exact h.createVote_cast_errorInert r _ _ _
      | refine InertUnless.bind_read (h.checkRateLimit_reads r _ _) fun _ => ?_
      | refine InertUnless.bind_read (validateToken_reads r) fun _ => ?_
      | refine InertUnless.bind_read (Within.effect (by with_unfolding_all rfl)) fun _ => ?_
      | refine InertUnless.bind_write (fun _ _ => ?_) fun _ _ => ?_
      | refine InertUnless.bind _ (h.auth.createChallenge_inert _ _) (fun _ _ => ?_) fun _ _ => ?_
      | refine all_ite.mpr ⟨fun _ => ?_, fun _ => ?_⟩
    | (exfalso; cases ‹Effect.failed _ _ = false›; done)
    | (exfalso; cases ‹Except.toBool _ = true›; done)
    | (refine Returns.pure ?_; simp only [writeJSON_status]; decide)
    | split

-- Run alone from any database, under either routing, a request to any route but the three that
-- run `VerifyAndCreateToken` leaves the database as it found it whenever it answers an error status.
theorem serve_error_unchanged (routing : Routing) (a : ApiRequest) (ha : a.call.verifies = false) (st : Store) :
    (h.serve routing a).All fun l r => ∀ resp, r = some resp → 400 ≤ resp.status →
      ∀ st', Replays st l st' → st' = st :=
  (h.serve_errorInert routing a ha).imp fun _ _ hl resp hr hs _ hrep =>
    replays_inert hrep (hl resp hr (Nat.not_lt.mpr hs))

-- A reply to a story the database does not hold.
theorem serve_error_unchanged_reply :
    (Call.createComment (some ⟨"s1", "", "a reply"⟩)).verifies = false ∧
      ((Handler.ofConfig .plain Config.load).serve .bare
        ⟨.createComment (some ⟨"s1", "", "a reply"⟩), .ofHeaders "" ""⟩).All fun l r =>
        ∀ resp, r = some resp → 400 ≤ resp.status → ∀ st', Replays .empty l st' → st' = .empty :=
  ⟨rfl, serve_error_unchanged _ .bare ⟨.createComment (some ⟨"s1", "", "a reply"⟩), .ofHeaders "" ""⟩ rfl .empty⟩

end Handler

end Slashclaw
