import Slashclaw.Api.Theorems.KeyOrigin
import Slashclaw.Api.Routes
import Slashclaw.Execution.Schedule

namespace Slashclaw

open Execution Relation Prog

theorem Handler.verifyError_status (e : AuthError) : (verifyError e).status ≠ 201 := by
  cases e <;> simp [verifyError]

-- The log `l` holds a `CreateAccountKey` of the pair `(alg, pk)` that succeeded.
def Registered (l : List Event) (alg pk : String) : Prop :=
  ∃ k₀ k, ⟨.createAccountKey k₀, .ok k⟩ ∈ l ∧ k₀.algorithm = alg ∧ k₀.publicKey = pk

-- The request asks to register the pair `(alg, pk)`, for a new account or for its own.
def Registers (a : ApiRequest) (alg pk : String) : Prop :=
  (∃ req, a.call = .createAccount (some req) ∧ req.algorithm = alg ∧ req.publicKey = pk) ∨
    ∃ req, a.call = .addAccountKey (some req) ∧ req.algorithm = alg ∧ req.publicKey = pk

theorem registered_suffixClosed (pre : List Event) (alg pk : String) :
    SuffixClosed fun l (res : Option Response) => res.map (·.status) = some 201 →
      Registered (pre ++ l) alg pk :=
  fun _ _ _ h h201 =>
    have ⟨k₀, k, hm, ha, hp⟩ := h h201
    ⟨k₀, k, by simp only [List.mem_append] at hm ⊢; tauto, ha, hp⟩

namespace Handler

variable (h : Handler)

-- `CreateAccount` answers 201 only after the insert of the key it was given succeeded.
theorem createAccount_registered (r : Request) (req : CreateAccountRequest) :
    (h.createAccount r (some req)).All fun l res => res.map (·.status) = some 201 →
      Registered l req.algorithm req.publicKey := by
  simp only [createAccount, Prog.pure_eq, Prog.pure_bind', Prog.all_ite]
  refine ⟨fun _ => by simp, fun _ => ⟨fun _ => by simp, fun _ => ?_⟩⟩
  refine all_bind_of_suffixClosed (registered_suffixClosed [] _ _) (All.intro fun _ _ h => by simp [h])
    fun res => ?_
  rcases res with e | _
  · exact fun h201 => absurd (Option.some.inj h201) (verifyError_status e)
  simp only [Stmt.getAccountKeyByPublicKey, Stmt.createAccount, Stmt.createAccountKey, Prog.effect,
    Prog.exec_bind, Prog.pure_bind', Prog.all_exec, Effect.Answer]
  rintro (e | (_ | k))
  case' ok.none =>
    rintro (e | acc)
    case' ok =>
      rintro (e | k)
      case' ok => exact fun _ => ⟨_, k, .tail _ (.tail _ (.head _)), rfl, rfl⟩
  all_goals simp

-- The insert of the key is a statement of its own, after the account's: when it fails the account
-- stays, with no key, and the request answers 500.
set_option maxRecDepth 4000 in
theorem createAccount_orphan_account :
    let s : State ApiRequest Response :=
      (State.init 0).run ((Handler.ofConfig .plain Config.load).serve .bare) false
      ([.spawn ⟨.createChallenge (some ⟨"alice", algEd25519⟩), .ofHeaders "" ""⟩] ++
        List.replicate 4 (.exec 0 ⟨second, false, "ch", by decide⟩) ++
        [.spawn ⟨.createAccount (some ⟨"alice", "", "", "kkkkkkkkkkkkkkkkkkkkkkkkkkkkkkkk", algEd25519,
          "chkkkkkkkkkkkkkkkkkkkkkkkkkkkkkkkk", "ch"⟩), .ofHeaders "" ""⟩] ++
        List.replicate 10 (.exec 1 ⟨second, false, "ac", by decide⟩) ++
        [.exec 1 ⟨second, true, "ky", by decide⟩])
    ReflTransGen (Step ((Handler.ofConfig .plain Config.load).serve .bare)) (.init 0) s ∧ s.Quiescent ∧
      (s.procs.map (·.prog.result))[1]? = some (some (writeError 500 "failed to create account key")) ∧
      s.world.store.accounts.map (·.id) = ["ac"] ∧ s.world.store.accountKeys = [] := by
  intro s
  exact ⟨State.run_steps _ _ _, by decide⟩

theorem addAccountKey_registered (r : Request) (req : AddKeyRequest) :
    (h.addAccountKey r (some req)).All fun l res => res.map (·.status) = some 201 →
      Registered l req.algorithm req.publicKey := by
  simp only [addAccountKey, validateToken, Service.validateToken, Stmt.getAccount, Stmt.getToken,
    Prog.effect, Prog.exec_bind, Prog.pure_bind', Prog.pure_eq, Prog.all_exec, Prog.all_ite, Effect.Answer]
  refine ⟨fun _ => by simp, fun _ => Except.forall'.mpr ⟨fun _ => by simp, Option.forall.mpr ⟨by simp, fun _ => ?_⟩⟩⟩
  by_cases ht : getToken r = ""
  · simp [ht]
  simp only [ht, if_false, Prog.exec_bind, Prog.all_exec, Prog.pure_bind']
  refine Except.forall'.mpr ⟨fun _ => by simp, Option.forall.mpr ⟨by simp, fun tok => ?_⟩⟩
  simp only [Prog.pure_bind', Prog.all_ite]
  refine ⟨fun _ => by simp, fun _ => ⟨fun _ => by simp, fun _ => ?_⟩⟩
  refine all_bind_of_suffixClosed (registered_suffixClosed [_, _] _ _) (All.intro fun _ _ h => by simp [h])
    fun res => ?_
  rcases res with e | _
  · split
    · simp
    · simp
    · next heq => cases heq
  simp only [Stmt.getAccountKeyByPublicKey, Stmt.createAccountKey, Prog.effect, Prog.exec_bind,
    Prog.pure_bind', Prog.all_exec, Effect.Answer]
  rintro (e | (_ | k))
  · simp
  · rintro (e | k)
    · simp
    · exact fun _ => ⟨_, k, .tail _ (.tail _ (.tail _ (.head _))), rfl, rfl⟩
  · simp

theorem protect_registered (routing : Routing) {next : Context → Prog Response} (r : Request) {alg pk : String}
    (hn : ∀ ctx, (next ctx).All fun l res => res.map (·.status) = some 201 → Registered l alg pk) :
    (protect routing next r).All fun l res => res.map (·.status) = some 201 → Registered l alg pk := by
  cases routing
  case bare => exact hn _
  case requireAuth =>
    refine all_bind_of_suffixClosed (registered_suffixClosed [] _ _) (All.intro fun _ _ h => by simp [h])
      fun res => ?_
    split
    · exact hn _
    · simp

-- Of all routes, only `CreateAccount` and `AddAccountKey` answer 201 to a request for a key, and
-- only after inserting it.
theorem serve_registered (routing : Routing) {a : ApiRequest} {alg pk : String} (ha : Registers a alg pk) :
    (h.serve routing a).All fun l res => res.map (·.status) = some 201 → Registered l alg pk := by
  obtain ⟨call, r⟩ := a
  rcases ha with ⟨req, hc, rfl, rfl⟩ | ⟨req, hc, rfl, rfl⟩ <;> cases hc
  · exact protect_registered routing r fun _ => h.createAccount_registered r req
  · exact protect_registered routing r fun _ => h.addAccountKey_registered r req

end Handler

namespace Store.KeysUnique

variable {s : Store}

-- The lookup of `GetAccountKeyByPublicKey` matches at most one row.
theorem lookup_le_one (hu : s.KeysUnique) (alg pk : String) :
    (s.accountKeys.filter fun k => k.algorithm == alg && k.publicKey == pk && k.active).length ≤ 1 := by
  let L := s.accountKeys.filter fun k => k.algorithm == alg && k.publicKey == pk && k.active
  have hn : (L.map fun k => (k.algorithm, k.publicKey)).Nodup := hu.2.sublist ((List.filter_sublist _).map _)
  have hall : ∀ b ∈ L.map fun k => (k.algorithm, k.publicKey), b = (alg, pk) := by
    simp only [List.mem_map, List.mem_filter, Bool.and_eq_true, beq_iff_eq, L]
    rintro _ ⟨k, ⟨-, ⟨ha, hp⟩, -⟩, rfl⟩
    rw [ha, hp]
  rw [List.eq_replicate_iff.mpr ⟨rfl, hall⟩, List.nodup_replicate, List.length_map] at hn
  exact hn

end Store.KeysUnique

-- The row that a successful insert of a key wrote: it stays, with its pair, in every later database.
def RegisteredRow (x : Entry) (st : Store) : Prop :=
  ∀ k₀ k, x.event = ⟨.createAccountKey k₀, .ok k⟩ →
    ∃ r ∈ st.accountKeys, r.algorithm = k₀.algorithm ∧ r.publicKey = k₀.publicKey

-- No two key rows share `(algorithm, public_key)`, the lookup of `GetAccountKeyByPublicKey`
-- matches at most one row, and of the requests that register one pair at most one has answered
-- 201.
def PairsUnique (s : State ApiRequest Response) : Prop :=
  (s.world.store.accountKeys.map fun k => (k.algorithm, k.publicKey)).Nodup ∧
  (∀ alg pk, (s.world.store.accountKeys.filter
    fun k => k.algorithm == alg && k.publicKey == pk && k.active).length ≤ 1) ∧
  ∀ alg pk (i j : Nat) (p q : Proc ApiRequest Response), s.procs[i]? = some p → s.procs[j]? = some q →
    Registers p.req alg pk → Registers q.req alg pk → p.prog.result.map (·.status) = some 201 →
    q.prog.result.map (·.status) = some 201 → i = j

namespace Handler

variable (h : Handler) (routing : Routing) {s : State ApiRequest Response}

theorem registeredRow_of_reachable (hr : Reachable (h.serve routing) s) : Chain RegisteredRow s := by
  obtain ⟨_, hr⟩ := hr
  refine Step.chain (fun x st' hc k₀ k hx => ?_) (fun y st e a st' hc hy k₀ k hx => ?_) hr
  · rw [hx] at hc
    obtain ⟨hkeys, ha, hp⟩ := Effect.Can.createAccountKey_ok hc
    exact ⟨{ k with revokedAt := none }, hkeys ▸ List.mem_append_right _ (List.mem_singleton_self _), ha, hp⟩
  · obtain ⟨r, hr, ha, hp⟩ := hy k₀ k hx
    obtain ⟨r', hr', hf⟩ := hc.grows.key_mem hr
    exact ⟨r', hr', (congrArg (·.algorithm) hf).trans ha, (congrArg (·.publicKey) hf).trans hp⟩

-- Two inserts of one pair that both succeeded are one effect of the trace.
theorem registered_entry_unique (hr : Reachable (h.serve routing) s) {x x' : Entry} (hx : x ∈ s.trace)
    (hx' : x' ∈ s.trace) {k₀ k k₀' k' : AccountKey} (he : x.event = ⟨.createAccountKey k₀, .ok k⟩)
    (he' : x'.event = ⟨.createAccountKey k₀', .ok k'⟩) (ha : k₀.algorithm = k₀'.algorithm)
    (hp : k₀.publicKey = k₀'.publicKey) : x = x' := by
  by_contra hne
  rcases (h.registeredRow_of_reachable routing hr).rel_or_rel hx hx' hne with hc | hc
  · obtain ⟨r, hm, hra, hrp⟩ := hc k₀ k he
    obtain ⟨_, -, hrun⟩ := hr.wf.entry_run hx' he'
    exact Effect.run_createAccountKey hrun r hm (hra.trans ha) (hrp.trans hp)
  · obtain ⟨r, hm, hra, hrp⟩ := hc k₀' k' he'
    obtain ⟨_, -, hrun⟩ := hr.wf.entry_run hx he
    exact Effect.run_createAccountKey hrun r hm (hra.trans ha.symm) (hrp.trans hp.symm)

-- A request that answered 201 for a key inserted it: an effect of the trace.
theorem registered_of_created (hr : Reachable (h.serve routing) s) {i : Nat} {p : Proc ApiRequest Response}
    (hi : s.procs[i]? = some p) {alg pk : String} (ha : Registers p.req alg pk)
    (h201 : p.prog.result.map (·.status) = some 201) :
    ∃ x ∈ s.trace, x.proc = i ∧ ∃ k₀ k, x.event = ⟨.createAccountKey k₀, .ok k⟩ ∧ k₀.algorithm = alg ∧
      k₀.publicKey = pk := by
  obtain ⟨req, q⟩ := p
  cases q with
  | pure res =>
    obtain ⟨k₀, k, hm, hka, hkp⟩ := (h.serve_registered routing ha).returns (hr.wf.steps i _ hi) h201
    obtain ⟨x, hx, hxi, he⟩ := mem_traceLog.mp hm
    exact ⟨x, hx, hxi, k₀, k, he, hka, hkp⟩
  | exec _ _ => cases h201
  | crash => cases h201

theorem keyPairs_unique (hr : Reachable (h.serve routing) s) : PairsUnique s := by
  have hu := h.keysUnique_of_reachable routing hr
  refine ⟨hu.2, hu.lookup_le_one, fun alg pk i j p q hi hj hp hq hpi hqj => ?_⟩
  obtain ⟨x, hx, rfl, k₀, k, he, ha, hpk⟩ := h.registered_of_created routing hr hi hp hpi
  obtain ⟨x', hx', rfl, k₀', k', he', ha', hpk'⟩ := h.registered_of_created routing hr hj hq hqj
  rw [h.registered_entry_unique routing hr hx hx' he he' (ha.trans ha'.symm) (hpk.trans hpk'.symm)]

-- After an account has registered two keys and revoked both: the two pairs, each of one row.
set_option maxRecDepth 8000 in
theorem keyPairs_unique_revoked :
    let h := Handler.ofConfig Primitives.plain Config.load
    let s := (State.init 0).run (h.serve .bare) true mutualRevocationSchedule
    Reachable (h.serve .bare) s ∧
      s.world.store.accountKeys.map (fun k => (k.algorithm, k.publicKey)) =
        [(algEd25519, "kkkkkkkkkkkkkkkkkkkkkkkkkkkkkkkk"), (algEd25519, "qqqqqqqqqqqqqqqqqqqqqqqqqqqqqqqq")] ∧
      PairsUnique s := by
  intro h s
  have hs : Reachable (h.serve .bare) s := ⟨0, State.run_steps _ _ _⟩
  exact ⟨hs, by decide, keyPairs_unique h .bare hs⟩

end Handler

end Slashclaw
