import Slashclaw.Api.Theorems.Footprint
import Slashclaw.Execution.Theorems.Trace
import Slashclaw.Store.Theorems.Keys

namespace Slashclaw

open Execution Relation Prog

-- What a request has read before it writes a key of account `A`: it is the `CreateAccount`
-- request that inserted `A`, or an `AddAccountKey` or `DeleteAccountKey` request whose bearer
-- token `GetToken` returned with account `A`.
def keyOrigin (a : ApiRequest) (past : List Event) (A : String) : Prop :=
  ((∃ b, a.call = .createAccount b) ∧ ∃ acc₀ acc, ⟨.createAccount acc₀, .ok acc⟩ ∈ past ∧ acc.id = A) ∨
    (((∃ b, a.call = .addAccountKey b) ∨ a.call = .deleteAccountKey) ∧
      ∃ T, ⟨.getToken (getToken a.request), .ok (some T)⟩ ∈ past ∧ T.accountID = A)

-- What a request has read before it writes a token of an account: a challenge, a signature over
-- it accepted for a public key, and that key's row, which the token names.
def tokenOrigin (P : Primitives) (past : List Event) (T : Token) : Prop :=
  ∃ str c pk sig k, ⟨.getChallenge str, .ok (some c)⟩ ∈ past ∧ c.agentID = T.agentID ∧
    verifySignature P c.algorithm pk str sig = .ok true ∧
    ⟨.getAccountKeyByPublicKey c.algorithm pk, .ok (some k)⟩ ∈ past ∧ k.accountID = T.accountID ∧
    k.id = T.keyID

-- The guard of the writes to `account_keys` and of the tokens bound to an account.
def keyGuard (P : Primitives) (a : ApiRequest) (past : List Event) (e : Effect) : Prop :=
  (∀ k, e = .createAccountKey k → keyOrigin a past k.accountID) ∧
    (∀ id, e = .revokeAccountKey id → a.call = .deleteAccountKey ∧
      ∃ key T, ⟨.getAccountKey id, .ok (some key)⟩ ∈ past ∧
        ⟨.getToken (getToken a.request), .ok (some T)⟩ ∈ past ∧ key.accountID = T.accountID ∧
        key.id ≠ T.keyID) ∧
    (∀ T, e = .createToken T → T.accountID ≠ "" → tokenOrigin P past T)

-- A statement of a route that writes neither keys nor tokens needs nothing.
theorem keyGuard_of_writesIn {P : Primitives} {a : ApiRequest} {past : List Event} {ts : List Table}
    {e : Effect} (h : e.writesIn ts = true) (hk : Table.accountKeys ∉ ts) (ht : Table.tokens ∉ ts) :
    keyGuard P a past e := by
  refine ⟨?_, ?_, ?_⟩ <;> rintro _ rfl <;> simp_all [Effect.writesIn, Effect.table]

theorem keyOrigin_mono {a : ApiRequest} {past past' : List Event} {A : String} (hp : past ⊆ past')
    (h : keyOrigin a past A) : keyOrigin a past' A := by
  rcases h with ⟨hc, acc₀, acc, hm, hA⟩ | ⟨hc, T, hm, hA⟩
  · exact .inl ⟨hc, acc₀, acc, hp hm, hA⟩
  · exact .inr ⟨hc, T, hp hm, hA⟩

theorem keyGuard_monotone (P : Primitives) (a : ApiRequest) : Monotone (keyGuard P a) := by
  intro past past' e hp ⟨hk, hr, ht⟩
  refine ⟨fun k he => keyOrigin_mono hp (hk k he), fun id he => ?_, fun T he hT => ?_⟩
  · obtain ⟨hc, key, T, hk, hT, hA, hid⟩ := hr id he
    exact ⟨hc, key, T, hp hk, hp hT, hA, hid⟩
  · obtain ⟨str, c, pk, sig, k, hc, hag, hv, hk, hA, hid⟩ := ht T he hT
    exact ⟨str, c, pk, sig, k, hp hc, hag, hv, hp hk, hA, hid⟩

namespace Service

variable (P : Primitives) (svc : Service) (a : ApiRequest)

theorem verifyAndCreateToken_allowed (agentID alg publicKey x signature : String) :
    (svc.verifyAndCreateToken P agentID alg publicKey x signature).All fun l _ =>
      ∀ past, Allowed (keyGuard P a) past l := by
  simp only [verifyAndCreateToken, verifyAndCreateToken.issue, Stmt.getChallenge, Stmt.deleteChallenge,
    Stmt.getAccountKeyByPublicKey, Stmt.createToken, Env.randomToken, Env.uuid, Env.now, Prog.effect,
    Prog.exec_bind, Prog.pure_bind', Prog.crash_bind, Prog.pure_eq, Prog.all_exec, Effect.Answer]
  rintro (e | _ | ch)
  case' ok.some =>
    intro t
    simp only [Prog.all_ite]
    refine ⟨fun _ => ?_, fun _ => ⟨fun _ => ?_, fun hm => ?checked⟩⟩
    case' checked =>
      simp only [not_or, not_not] at hm
      split
      case' h_3 hv =>
        intro d
        rintro (e | (_ | k))
        case' ok.none =>
          intro tok u t'
          simp only [Prog.all_ite, Prog.all_exec]
          refine ⟨fun _ => ?_, fun _ => Except.forall'.mpr ⟨fun _ => ?_, fun _ => ?_⟩⟩
        case' ok.some =>
          intro tok u t' r
          cases r
          all_goals
            simp only [Prog.all_pure, Prog.allowed_cons, Prog.allowed_nil, keyGuard, reduceCtorEq,
              Effect.createToken.injEq, false_implies, implies_true, and_true, true_and, forall_eq']
            exact fun _ _ => ⟨x, ch, publicKey, signature, k, by simp, hm.1, hm.2 ▸ hv, by simp [hm.2], rfl, rfl⟩
  all_goals simp only [Prog.all_pure, Prog.all_crash, Prog.allowed_cons, Prog.allowed_nil, keyGuard,
    reduceCtorEq, Effect.createToken.injEq, forall_eq', ne_eq, eq_self_iff_true, not_true_eq_false,
    false_implies, implies_true, and_self, forall_const]

end Service

namespace Handler

variable (h : Handler) (a : ApiRequest)

theorem createAccount_allowed (ha : ∃ b, a.call = .createAccount b) (r : Request)
    (body : Option CreateAccountRequest) :
    (h.createAccount r body).All fun l _ => ∀ past, Allowed (keyGuard h.prims a) past l := by
  rcases body with _ | req
  · simp [createAccount]
  simp only [createAccount, Prog.pure_eq, Prog.pure_bind', Prog.all_ite]
  refine ⟨fun _ => by simp, fun _ => ⟨fun _ => by simp, fun _ => ?_⟩⟩
  refine All.allowed_bind (Service.verifyAndCreateToken_allowed _ _ a _ _ _ _ _) fun res => ?_
  rcases res with e | tok
  · simp
  simp only [Stmt.getAccountKeyByPublicKey, Stmt.createAccount, Stmt.createAccountKey, Prog.effect,
    Prog.exec_bind, Prog.pure_bind', Prog.all_exec, Effect.Answer]
  rintro (e | (_ | k))
  case' ok.none =>
    rintro (e | acc)
    case' ok =>
      intro res
      cases res
      all_goals
        simp only [Prog.all_pure, Prog.allowed_cons, Prog.allowed_nil, keyGuard, reduceCtorEq,
          Effect.createAccountKey.injEq, false_implies, implies_true, and_true, true_and, forall_eq']
        exact fun _ => .inl ⟨ha, _, acc, List.mem_append_right _ (List.mem_singleton_self _), rfl⟩
  all_goals simp only [Prog.all_pure, Prog.all_crash, Prog.allowed_cons, Prog.allowed_nil, keyGuard,
    reduceCtorEq, false_implies, implies_true, and_self, forall_const]

theorem addAccountKey_allowed (ha : ∃ b, a.call = .addAccountKey b) (body : Option AddKeyRequest) :
    (h.addAccountKey a.request body).All fun l _ => ∀ past, Allowed (keyGuard h.prims a) past l := by
  simp only [addAccountKey, validateToken, Service.validateToken, Stmt.getAccount, Stmt.getToken,
    Prog.effect, Prog.exec_bind, Prog.pure_bind', Prog.pure_eq, Prog.all_exec, Prog.all_ite, Effect.Answer]
  refine ⟨fun _ => ?_, fun _ => ?given⟩
  case' given =>
    refine Except.forall'.mpr ⟨fun e => ?_, Option.forall.mpr ⟨?_, fun acc => ?found⟩⟩
    case' found =>
      by_cases ht : getToken a.request = ""
      · simp [ht, keyGuard]
      simp only [ht, if_false, Prog.exec_bind, Prog.all_exec, Prog.pure_bind']
      refine Except.forall'.mpr ⟨fun e => ?_, Option.forall.mpr ⟨?_, fun tok => ?valid⟩⟩
      case' valid =>
        simp only [Prog.pure_bind', Prog.all_ite, ne_eq]
        refine ⟨fun _ => ?_, fun hA => ?owner⟩
        case' owner =>
          rcases body with _ | req
          case' some =>
            simp only [Prog.all_ite]
            refine ⟨fun _ => ?_, fun _ => All.allowed_bind_mono (keyGuard_monotone _ a) [_, _]
              (fun _ => by simp only [Prog.allowed_cons, Prog.allowed_nil, keyGuard, reduceCtorEq,
                false_implies, implies_true, and_self])
              (Service.verifyAndCreateToken_allowed _ _ a _ _ _ _ _) fun res => ?verified⟩
            case' verified =>
              rcases res with e | _
              case' error =>
                split
                case h_3 _ _ heq => cases heq
              case' ok =>
                simp only [Stmt.getAccountKeyByPublicKey, Stmt.createAccountKey, Prog.effect, Prog.exec_bind,
                  Prog.pure_bind', Prog.all_exec, Effect.Answer]
                refine Except.forall'.mpr ⟨fun e => ?_, Option.forall.mpr ⟨fun res => ?key, fun _ => ?_⟩⟩
                case' key =>
                  cases res
                  all_goals
                    simp only [Prog.all_pure, Prog.allowed_cons, Prog.allowed_nil, List.cons_append,
                      List.nil_append, keyGuard, reduceCtorEq, Effect.createAccountKey.injEq, false_implies,
                      implies_true, and_true, true_and, forall_eq']
                    exact fun _ => .inr ⟨.inl ha, tok, by simp, not_not.mp hA⟩
  all_goals simp only [Prog.all_pure, Prog.all_crash, Prog.pure_bind', Prog.allowed_cons, Prog.allowed_nil,
    List.cons_append, List.nil_append, keyGuard, reduceCtorEq, false_implies, implies_true, and_self,
    forall_const]

theorem deleteAccountKey_allowed (ha : a.call = .deleteAccountKey) :
    (deleteAccountKey a.request).All fun l _ => ∀ past, Allowed (keyGuard h.prims a) past l := by
  simp only [deleteAccountKey, validateToken, Service.validateToken, Stmt.getAccountKey, Stmt.getToken,
    Stmt.revokeAccountKey, Prog.effect, Prog.exec_bind, Prog.pure_bind', Prog.pure_eq, Prog.all_exec,
    Prog.all_ite, Effect.Answer]
  refine ⟨fun _ => ?_, fun _ => ?given⟩
  case' given =>
    by_cases ht : getToken a.request = ""
    · simp [ht]
    simp only [ht, if_false, Prog.exec_bind, Prog.all_exec, Prog.pure_bind']
    refine Except.forall'.mpr ⟨fun e => ?_, Option.forall.mpr ⟨?_, fun tok => ?valid⟩⟩
    case' valid =>
      simp only [Prog.pure_bind', Prog.all_ite, Prog.all_exec, ne_eq]
      refine ⟨fun _ => ?_, fun hA => Except.forall'.mpr ⟨fun e => ?_, Option.forall.mpr ⟨?_, fun key => ?found⟩⟩⟩
      case' found =>
        simp only [Prog.all_ite, Prog.all_exec]
        refine ⟨fun _ => ?_, fun hk => ⟨fun _ => ?_, fun hid res => ?revoke⟩⟩
        case' revoke =>
          cases res
          all_goals
            simp only [Prog.all_pure, Prog.allowed_cons, Prog.allowed_nil, List.cons_append,
              List.nil_append, keyGuard, reduceCtorEq, Effect.revokeAccountKey.injEq, false_implies,
              implies_true, and_true, true_and, forall_eq']
            exact fun _ => ⟨ha, key, tok, by simp, by simp, (not_not.mp hk).trans (not_not.mp hA).symm, hid⟩
  all_goals simp only [Prog.all_pure, Prog.all_crash, Prog.pure_bind', Prog.allowed_cons, Prog.allowed_nil,
    List.cons_append, List.nil_append, keyGuard, reduceCtorEq, false_implies, implies_true, and_self,
    forall_const]

theorem protect_allowed (routing : Routing) {next : Context → Prog Response} (r : Request)
    (hn : ∀ ctx, (next ctx).All fun l _ => ∀ past, Allowed (keyGuard h.prims a) past l) :
    (protect routing next r).All fun l _ => ∀ past, Allowed (keyGuard h.prims a) past l := by
  cases routing
  case bare => exact hn _
  case requireAuth =>
    refine All.allowed_bind ?_ fun res => ?_
    · refine (Within.ite (.ret _) (Within.bind (Within.effect (Effect.writesIn_getToken [] _))
        fun _ => ?_)).allowed fun e he _ => keyGuard_of_writesIn he (by simp) (by simp)
      split <;> exact .ret _
    · split
      · exact hn _
      · simp

theorem verifyChallenge_allowed (body : Option VerifyRequest) :
    (h.verifyChallenge body).All fun l _ => ∀ past, Allowed (keyGuard h.prims a) past l := by
  rcases body with _ | req
  · simp [verifyChallenge]
  simp only [verifyChallenge, Prog.pure_eq, Prog.pure_bind', Prog.all_ite]
  refine ⟨fun _ => by simp, fun _ => ?_⟩
  refine All.allowed_bind (Service.verifyAndCreateToken_allowed _ _ a _ _ _ _ _) fun res => ?_
  cases res <;> simp

-- Every route's writes to `account_keys`, and every token it binds to an account, are allowed by
-- what the request read before.
theorem serve_guarded (routing : Routing) : Guarded (h.serve routing) (keyGuard h.prims) := by
  rintro ⟨call, r⟩
  suffices h' : (h.serve routing ⟨call, r⟩).All fun l _ => ∀ past, Allowed (keyGuard h.prims ⟨call, r⟩) past l from
    h'.imp fun _ _ hl => hl []
  cases call
  case verifyChallenge body => exact verifyChallenge_allowed h _ body
  case createAccount body => exact protect_allowed h _ routing r fun _ => createAccount_allowed h _ ⟨body, rfl⟩ r body
  case addAccountKey body => exact protect_allowed h _ routing r fun _ => addAccountKey_allowed h _ ⟨body, rfl⟩ body
  case deleteAccountKey => exact protect_allowed h _ routing r fun _ => deleteAccountKey_allowed h _ rfl
  all_goals exact (serve_within h routing _).allowed fun e he _ =>
    keyGuard_of_writesIn he (by simp [Call.tables]) (by simp [Call.tables])

end Handler

end Slashclaw
