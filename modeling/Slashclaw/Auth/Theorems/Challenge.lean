import Slashclaw.Api.Accounts
import Slashclaw.Effect.Replay
import Slashclaw.Execution.Theorems.Sequential
import Slashclaw.Execution.Schedule
import Mathlib.Data.List.Nodup

namespace Slashclaw

open Execution Relation

-- `UNIQUE` on `challenges.challenge`.
def Store.ChallengesUnique (s : Store) : Prop :=
  (s.challenges.map (·.challenge)).Nodup

instance : DecidablePred Store.ChallengesUnique :=
  fun s => inferInstanceAs (Decidable (List.Nodup (s.challenges.map Challenge.challenge)))

def Store.NoChallenge (s : Store) (x : String) : Prop :=
  ∀ c ∈ s.challenges, c.challenge ≠ x

def Effect.createsChallenge : Effect → Bool
  | .createChallenge _ => true
  | _ => false

-- A `DeleteChallenge` that failed: `VerifyAndCreateToken` drops its error.
def Prog.Event.failedDelete : Prog.Event → Bool
  | ⟨.deleteChallenge _, .error _⟩ => true
  | _ => false

theorem Prog.Event.apply_challenges_sublist (t : Time) (s : Store) {e : Effect} (a : e.Answer)
    (he : e.createsChallenge = false) : (apply t s ⟨e, a⟩).challenges.Sublist s.challenges := by
  cases e
  case createChallenge => cases he
  case deleteChallenge id =>
    rcases a with _ | ⟨⟩
    · exact .refl _
    · exact List.filter_sublist _
  all_goals first
    | exact .refl _
    | (rcases a with _ | _ <;> exact .refl _)

namespace Effect.Can

variable {s s' : Store}

theorem challenges_sublist {e : Effect} {a : e.Answer} (h : Effect.Can s e a s')
    (he : e.createsChallenge = false) : s'.challenges.Sublist s.challenges := by
  obtain ⟨t, rfl⟩ := h.apply
  exact Prog.Event.apply_challenges_sublist t s a he

theorem getChallenge {x : String} {a : Except DBError (Option Challenge)}
    (h : Effect.Can s (.getChallenge x) a s') : a = .error .infra ∨ ∃ t, a = .ok (s.getChallenge x t) := by
  obtain ⟨t, (⟨rfl, -⟩ | ⟨rfl, -⟩)⟩ := h
  · exact .inl rfl
  · exact .inr ⟨t, rfl⟩

theorem getChallenge_some {x : String} {ch : Challenge}
    (h : Effect.Can s (.getChallenge x) (.ok (some ch)) s') : ch ∈ s.challenges ∧ ch.challenge = x := by
  rcases h.getChallenge with h | ⟨t, h⟩
  · cases h
  · simp only [Except.ok.injEq] at h
    have hf := h.symm
    simp only [Store.getChallenge] at hf
    exact ⟨List.mem_of_find?_eq_some hf, (by simpa using List.find?_some hf : _ ∧ _).1⟩

theorem deleteChallenge_ok {id : String} (h : Effect.Can s (.deleteChallenge id) (.ok ()) s') :
    ∀ c ∈ s'.challenges, c.id ≠ id := by
  rcases Store.Outcome.update h with ⟨-, _, h⟩ | ⟨rfl, -⟩
  · cases h
  · intro c hc
    simpa [Store.deleteChallenge] using (List.mem_filter.mp hc).2

end Effect.Can

namespace Replays

variable {s s' : Store} {l : List Prog.Event}

theorem challenges_sublist (h : Replays s l s') (hl : ∀ ev ∈ l, ev.effect.createsChallenge = false) :
    s'.challenges.Sublist s.challenges := by
  induction l generalizing s with
  | nil => exact h ▸ .refl _
  | cons ev l ih =>
    obtain ⟨s₁, hc, h⟩ := h
    exact (ih h fun ev' h' => hl ev' (.tail _ h')).trans (hc.challenges_sublist (hl _ (.head _)))

theorem deleted {id : String} (h : Replays s l s') (hl : ∀ ev ∈ l, ev.effect.createsChallenge = false)
    (hd : ⟨.deleteChallenge id, .ok ()⟩ ∈ l) : ∀ c ∈ s'.challenges, c.id ≠ id := by
  induction l generalizing s with
  | nil => cases hd
  | cons ev l ih =>
    obtain ⟨e, a⟩ := ev
    obtain ⟨s₁, hc, h⟩ := h
    have hl' : ∀ ev ∈ l, ev.effect.createsChallenge = false := fun ev' h' => hl ev' (.tail _ h')
    rcases List.mem_cons.mp hd with hd | hd
    · cases hd
      exact fun c hc' => hc.deleteChallenge_ok c ((h.challenges_sublist hl').subset hc')
    · exact ih h hl' hd

theorem getChallenge_some {x : String} {ch : Challenge} (h : Replays s l s')
    (hl : ∀ ev ∈ l, ev.effect.createsChallenge = false) (hg : ⟨.getChallenge x, .ok (some ch)⟩ ∈ l) :
    ch ∈ s.challenges ∧ ch.challenge = x := by
  induction l generalizing s with
  | nil => cases hg
  | cons ev l ih =>
    obtain ⟨e, a⟩ := ev
    obtain ⟨s₁, hc, h⟩ := h
    have hs := hc.challenges_sublist (hl _ (.head _))
    rcases List.mem_cons.mp hg with hg | hg
    · cases hg
      exact hc.getChallenge_some
    · have ⟨hm, hx⟩ := ih h (fun ev' h' => hl ev' (.tail _ h')) hg
      exact ⟨hs.subset hm, hx⟩

end Replays

namespace Service

variable (P : Primitives) (svc : Service) (agentID alg publicKey x signature : String)

theorem verifyAndCreateToken_footprint :
    (svc.verifyAndCreateToken P agentID alg publicKey x signature).All fun l _ =>
      ∀ ev ∈ l, ev.effect.createsChallenge = false := by
  simp only [verifyAndCreateToken, verifyAndCreateToken.issue, Stmt.getChallenge, Stmt.deleteChallenge,
    Stmt.getAccountKeyByPublicKey, Stmt.createToken, Env.randomToken, Env.uuid, Env.now, Prog.effect,
    Prog.exec_bind, Prog.pure_bind', Prog.pure_eq, Prog.all_exec, Effect.Answer]
  rintro (e | _ | ch)
  · simp [Effect.createsChallenge]
  · simp [Effect.createsChallenge]
  · intro t
    split_ifs
    all_goals try simp [Effect.createsChallenge]
    all_goals intro; split
    all_goals simp [Effect.createsChallenge, Except.forall', Option.forall, Effect.Answer]

theorem verifyAndCreateToken_first :
    (svc.verifyAndCreateToken P agentID alg publicKey x signature).All fun l r =>
      ∃ (a : Except DBError (Option Challenge)) (l' : List Prog.Event), l = ⟨.getChallenge x, a⟩ :: l' ∧ (∀ e, a = .error e → r = some (.error (.db e))) ∧
        (a = .ok none → r = some (.error .challengeNotFound)) := by
  simp only [verifyAndCreateToken, Stmt.getChallenge, Prog.effect, Prog.exec_bind, Prog.pure_bind',
    Prog.all_exec]
  rintro (e | _ | ch)
  · exact ⟨_, _, rfl, by simp⟩
  · exact ⟨_, _, rfl, by simp⟩
  · exact Prog.All.intro fun l r => ⟨_, _, rfl, by simp⟩

theorem verifyAndCreateToken_token :
    (svc.verifyAndCreateToken P agentID alg publicKey x signature).All fun l r =>
      ∀ tok, r = some (.ok tok) →
        ∃ ch d, ⟨.getChallenge x, .ok (some ch)⟩ ∈ l ∧ ⟨.deleteChallenge ch.id, d⟩ ∈ l := by
  simp only [verifyAndCreateToken, Stmt.getChallenge, Env.now, Prog.effect, Prog.exec_bind,
    Prog.pure_bind', Prog.pure_eq, Prog.all_exec, Effect.Answer]
  rintro (e | _ | ch)
  · simp
  · simp
  · intro t
    simp only [Prog.all_ite]
    refine ⟨fun _ => by simp, fun _ => ⟨fun _ => by simp, fun _ => ?_⟩⟩
    split
    · simp
    · simp
    · simp only [verifyAndCreateToken.issue, Stmt.deleteChallenge, Prog.effect, Prog.exec_bind,
        Prog.all_exec]
      exact fun d => Prog.All.intro fun _ _ _ _ => ⟨ch, d, by simp, by simp⟩

variable {P svc agentID alg publicKey x signature}

-- One call, run alone on a database whose challenge strings are unique: it never adds a
-- challenge; when no row carries its string it fails as not found (or on its failed read); and
-- when it returns a token without a failed delete, no row carries its string afterwards.
theorem verifyAndCreateToken_step {st : Store} (hu : st.ChallengesUnique) :
    (svc.verifyAndCreateToken P agentID alg publicKey x signature).All fun l r =>
      ∀ st', Replays st l st' → (∀ ev ∈ l, ev.failedDelete = false) →
        st'.challenges.Sublist st.challenges ∧
        (st.NoChallenge x → r = some (.error .challengeNotFound) ∨ r = some (.error (.db .infra))) ∧
        ((∃ tok, r = some (.ok tok)) → st'.NoChallenge x) := by
  refine (((verifyAndCreateToken_footprint P svc agentID alg publicKey x signature).and
    (verifyAndCreateToken_first P svc agentID alg publicKey x signature)).and
    (verifyAndCreateToken_token P svc agentID alg publicKey x signature)).imp ?_
  rintro l r ⟨⟨hf, a, l', rfl, he, hn⟩, ht⟩ st' hr hd
  refine ⟨hr.challenges_sublist hf, fun hno => ?_, fun ⟨tok, htok⟩ => ?_⟩
  · obtain ⟨s₁, hc, -⟩ := hr
    rcases hc.getChallenge with rfl | ⟨t, rfl⟩
    · exact .inr (he _ rfl)
    · have : st.getChallenge x t = none :=
        List.find?_eq_none.mpr fun c hc' => by simp [hno c hc']
      exact .inl (hn (by rw [this]))
  · obtain ⟨ch, d, hg, hdel⟩ := ht tok htok
    cases d with
    | error e => exact absurd (hd _ hdel) (by simp [Prog.Event.failedDelete])
    | ok u =>
      have ⟨hmem, hx⟩ := hr.getChallenge_some hf hg
      intro c hc hcx
      have hsub := (hr.challenges_sublist hf).subset hc
      have hceq : c = ch := List.inj_on_of_nodup_map hu hsub hmem (hcx.trans hx.symm)
      exact hr.deleted hf hdel c hc (hceq ▸ rfl)

-- `VerifyAndCreateToken` called with the fields of a request.
def verifyCall (P : Primitives) (svc : Service) (req : VerifyRequest) : Prog (Except AuthError Token) :=
  svc.verifyAndCreateToken P req.agentID req.algorithm req.publicKey req.challenge req.signature

end Service

theorem Store.NoChallenge.mono {s s' : Store} {x : String} (h : s.NoChallenge x)
    (hs : s'.challenges.Sublist s.challenges) : s'.NoChallenge x :=
  fun c hc => h c (hs.subset hc)

section Once

-- Between two calls in arrival order: when the earlier one got a token, the later one presenting
-- the same string is refused.
def Refused (a b : VerifyRequest × Option (Except AuthError Token)) : Prop :=
  a.1.challenge = b.1.challenge → (∃ tok, a.2 = some (.ok tok)) →
    b.2 = some (.error .challengeNotFound) ∨ b.2 = some (.error (.db .infra))

def OnceInv (st : Store) (hist : List (VerifyRequest × Option (Except AuthError Token))) : Prop :=
  st.ChallengesUnique ∧ (∀ p ∈ hist, (∃ tok, p.2 = some (.ok tok)) → st.NoChallenge p.1.challenge) ∧
    hist.Pairwise Refused

theorem verifyCall_preserves (P : Primitives) (svc : Service) :
    Preserves (Service.verifyCall P svc) (fun _ => True) (fun ev => ev.failedDelete = true) OnceInv := by
  rintro req st hist - ⟨hu, hacc, hpw⟩
  refine (Service.verifyAndCreateToken_step hu).imp fun l r h st' hr hb => ?_
  have ⟨hsub, hrej, hacc'⟩ := h st' hr fun ev hev => by simpa using hb ev hev
  refine ⟨hu.sublist (hsub.map _), fun p hp hpa => ?_, List.pairwise_append.mpr
    ⟨hpw, List.pairwise_singleton _ _, fun a ha b hb' hab hat => ?_⟩⟩
  · rcases List.mem_append.mp hp with hp | hp
    · exact (hacc p hp hpa).mono hsub
    · rw [List.mem_singleton.mp hp] at hpa ⊢; exact hacc' hpa
  · rw [List.mem_singleton.mp hb'] at hab ⊢
    exact hrej (hab ▸ hacc a ha hat)

-- Calls served one at a time, from any database that keeps challenge strings unique (as the
-- schema does), none of whose deletes fails: once a call has got a token for a challenge string,
-- every later call presenting that string is refused as not found, unless its own read fails.
theorem verifyAndCreateToken_sequential_once (P : Primitives) (svc : Service) {w : World}
    (hu : w.store.ChallengesUnique) {s : State VerifyRequest (Except AuthError Token)}
    (h : ReflTransGen (SeqStep (Service.verifyCall P svc)) (.start w) s) (hq : s.Quiescent)
    (hd : ∀ x ∈ s.trace, x.event.failedDelete = false) :
    (results s.procs).Pairwise fun a b => a.1.challenge = b.1.challenge →
      (∃ tok, a.2 = some (.ok tok)) →
        b.2 = some (.error .challengeNotFound) ∨ b.2 = some (.error (.db .infra)) :=
  (SeqStep.hoare ⟨hu, by simp, .nil⟩ (verifyCall_preserves P svc) h (fun _ _ => trivial)
    (fun x hx => by simp [hd x hx]) hq).2.2

theorem verifyAndCreateToken_sequential_once_run :
    let w : World := { World.init 0 with
      store := { Store.empty with challenges := [⟨"c1", "agent", algEd25519, "ch", 100 * second⟩] } }
    let req : VerifyRequest :=
      ⟨"agent", algEd25519, "kkkkkkkkkkkkkkkkkkkkkkkkkkkkkkkk", "ch", "chkkkkkkkkkkkkkkkkkkkkkkkkkkkkkkkk"⟩
    let s := (State.start w).run (Service.verifyCall Primitives.plain ⟨second, second⟩) true
      ([.spawn req] ++ List.replicate 8 (.exec 0 ⟨second, false, "p", by decide⟩) ++
        [.spawn req, .exec 1 ⟨second, false, "q", by decide⟩])
    (results s.procs).Pairwise fun a b => a.1.challenge = b.1.challenge →
      (∃ tok, a.2 = some (.ok tok)) →
        b.2 = some (.error .challengeNotFound) ∨ b.2 = some (.error (.db .infra)) := by
  intro w req s
  exact verifyAndCreateToken_sequential_once Primitives.plain ⟨second, second⟩ (by decide)
    (State.run_seqSteps _ _) (by decide) (by decide)

-- Two calls that both read the challenge before either deletes it both get a token.
set_option maxRecDepth 2000 in
theorem verifyAndCreateToken_concurrent_twice :
    let w : World := { World.init 0 with
      store := { Store.empty with challenges := [⟨"c1", "agent", algEd25519, "ch", 100 * second⟩] } }
    let req : VerifyRequest :=
      ⟨"agent", algEd25519, "kkkkkkkkkkkkkkkkkkkkkkkkkkkkkkkk", "ch", "chkkkkkkkkkkkkkkkkkkkkkkkkkkkkkkkk"⟩
    let s := (State.start w).run (Service.verifyCall Primitives.plain ⟨second, second⟩) false
      ([.spawn req, .spawn req, .exec 0 ⟨second, false, "a", by decide⟩,
          .exec 1 ⟨second, false, "b", by decide⟩] ++
        List.replicate 7 (.exec 0 ⟨second, false, "p", by decide⟩) ++
        List.replicate 7 (.exec 1 ⟨second, false, "q", by decide⟩))
    w.store.ChallengesUnique ∧
      ReflTransGen (Step (Service.verifyCall Primitives.plain ⟨second, second⟩)) (.start w) s ∧
      s.Quiescent ∧ (∀ x ∈ s.trace, x.event.failedDelete = false) ∧
      (results s.procs).map (fun p => (p.1.challenge, p.2.map Except.toBool)) =
        [("ch", some true), ("ch", some true)] := by
  intro w req s
  exact ⟨by decide, State.run_steps _ _ _, by decide, by decide, by decide⟩

end Once

end Slashclaw
