import Slashclaw.Api.Routes
import Slashclaw.Execution.Schedule
import Slashclaw.Effect.Failure

namespace Slashclaw

open Execution Relation Prog

-- The errors that `VerifyChallenge` and `CreateAccount` answer with a 4xx: all but the store's
-- and the secp256k1 stub's.
def AuthError.client : AuthError → Bool
  | .db _ | .notImplemented => false
  | _ => true

section Verify

variable {P : Primitives} {pk msg sig : String} {e : AuthError}

theorem verifyEd25519_client (h : verifyEd25519 P pk msg sig = .error e) : e.client := by
  unfold verifyEd25519 at h
  repeat' split at h
  all_goals cases h <;> rfl

theorem parseRSAPublicKey_client (h : parseRSAPublicKey P pk = .error e) : e.client := by
  unfold parseRSAPublicKey at h
  repeat' split at h
  all_goals cases h <;> rfl

theorem verifyRSA_client {check : RSAPublicKey → List UInt8 → List UInt8 → Bool}
    (h : verifyRSA P check pk msg sig = .error e) : e.client := by
  unfold verifyRSA at h
  split at h
  · cases h
    exact parseRSAPublicKey_client ‹_›
  · split at h <;> cases h
    rfl

-- The verifier fails with a 4xx error for every algorithm but secp256k1, whose stub always fails.
theorem verifySignature_error {alg : String} (h : verifySignature P alg pk msg sig = .error e) :
    e.client ∨ (e = .notImplemented ∧ alg = algSecp256k1) := by
  unfold verifySignature at h
  split_ifs at h with h₁ h₂ h₃ h₄
  · exact .inl (verifyEd25519_client h)
  · exact .inl (verifyRSA_client h)
  · exact .inl (verifyRSA_client h)
  · cases h
    exact .inr ⟨rfl, h₄⟩
  · cases h
    exact .inl rfl

end Verify

namespace Service

variable (P : Primitives) (svc : Service)

theorem createChallenge_ok (agentID alg : String) :
    (svc.createChallenge agentID alg).Ok fun r => ∀ e, r = .error e → e = .invalidAlgorithm := by
  simp only [createChallenge, Env.randomToken, Env.uuid, Env.now, Stmt.createChallenge, Prog.pure_eq]
  repeat' first
    | refine Ok.stmt fun _ _ => ?_
    | refine Ok.ite (fun _ => ?_) (fun _ => ?_)
    | (refine .pure ?_; simp; done)
    | (exfalso; cases ‹Effect.failed _ _ = false›)
    | split

theorem verifyAndCreateToken_ok (agentID alg publicKey x signature : String) :
    (svc.verifyAndCreateToken P agentID alg publicKey x signature).Ok fun r =>
      ∀ e, r = .error e → e.client ∨ (e = .notImplemented ∧ alg = algSecp256k1) := by
  simp only [verifyAndCreateToken, verifyAndCreateToken.issue, Env.randomToken, Env.uuid, Env.now,
    Stmt.getChallenge, Stmt.deleteChallenge, Stmt.getAccountKeyByPublicKey, Stmt.createToken, Prog.pure_eq]
  repeat' first
    | refine Ok.stmt fun _ _ => ?_
    | refine Ok.ite (fun _ => ?_) (fun _ => ?_)
    | refine Ok.bind (R := fun _ => True) ?_ fun _ _ => ?_
    | exact .crash
    | (refine .pure ?_; simp [AuthError.client]; done)
    | (refine .pure fun _ he => ?_; cases he; exact verifySignature_error ‹_›)
    | (exfalso; cases ‹Effect.failed _ _ = false›; done)
    | split

end Service

-- The routes of the auth subsystem.
def Call.auth : Call → Bool
  | .createChallenge _ | .verifyChallenge _ | .createAccount _ | .getAccount | .addAccountKey _
  | .deleteAccountKey => true
  | _ => false

-- The request asks to verify a secp256k1 signature.
def Call.secp256k1 : Call → Prop
  | .verifyChallenge (some req) => req.algorithm = algSecp256k1
  | .createAccount (some req) => req.algorithm = algSecp256k1
  | _ => False

namespace Handler

variable (h : Handler)

theorem verifyError_secp {e : AuthError} {alg : String}
    (hv : e.client ∨ (e = .notImplemented ∧ alg = algSecp256k1)) (h500 : (verifyError e).status = 500) :
    alg = algSecp256k1 := by
  rcases hv with hc | ⟨-, hs⟩
  · cases e <;> simp_all [verifyError, AuthError.client]
  · exact hs

theorem protect_ok (routing : Routing) {next : Context → Prog Response} (r : Request) {Q : Response → Prop}
    (hn : ∀ ctx, (next ctx).Ok Q) (h401 : Q (writeError 401 "authentication required")) :
    (protect routing next r).Ok Q := by
  cases routing
  case bare => exact hn _
  case requireAuth =>
    simp only [protect, requireAuth, validateToken, Service.validateToken, Stmt.getToken, Prog.pure_eq]
    refine Ok.bind (R := fun _ => True) ?_ fun _ _ => ?_
    · refine Ok.ite (fun _ => .pure trivial) fun _ => Ok.stmt fun a _ => ?_
      split <;> exact .pure trivial
    · split
      · exact hn _
      · exact .pure h401

-- With no statement answering an error, a route of the auth subsystem answers 500 only to a
-- request to verify a secp256k1 signature.
theorem serve_ok (routing : Routing) (a : ApiRequest) (ha : a.call.auth) :
    (h.serve routing a).Ok fun resp => resp.status = 500 → a.call.secp256k1 := by
  obtain ⟨call, r⟩ := a
  cases call <;> simp only [Call.auth, Bool.false_eq_true] at ha <;> simp only [serve]
  all_goals try refine protect_ok routing r (fun _ => ?_) (by simp)
  all_goals simp only [createChallenge, verifyChallenge, createAccount, getAccount, addAccountKey,
    deleteAccountKey, validateToken, Service.validateToken, Stmt.getAccount, Stmt.getToken,
    Stmt.getAccountKeyByPublicKey, Stmt.createAccount, Stmt.createAccountKey, Stmt.getAccountKey,
    Stmt.revokeAccountKey, Prog.pure_eq]
  all_goals repeat' first
    | with_reducible first
      | refine Ok.stmt fun _ _ => ?_
      | refine Ok.ite (fun _ => ?_) (fun _ => ?_)
      | refine Ok.bind (Service.verifyAndCreateToken_ok _ _ _ _ _ _ _) fun _ hv => ?_
      | refine Ok.bind (Service.createChallenge_ok _ _ _) fun _ hv => ?_
      | refine Ok.bind (R := fun _ => True) ?_ fun _ _ => ?_
    | (refine .pure ?_; simp [Call.secp256k1]; done)
    | exact .pure (verifyError_secp (hv _ rfl))
    | (exfalso; cases ‹Effect.failed _ _ = false›; done)
    | exact absurd (hv _ rfl) ‹_›
    | split

theorem serve_ok_getAccount :
    Call.getAccount.auth ∧ ((Handler.ofConfig .plain Config.load).serve .bare ⟨.getAccount, .ofHeaders "" ""⟩).Ok
      fun resp => resp.status = 500 → Call.getAccount.secp256k1 :=
  ⟨rfl, serve_ok _ .bare ⟨.getAccount, .ofHeaders "" ""⟩ rfl⟩

-- The secp256k1 verifier is a stub: a challenge for it is issued, and its verification answers
-- 500 although no statement failed.
set_option maxRecDepth 4000 in
theorem verifyChallenge_secp256k1_500 :
    let s := (State.init 0).run ((Handler.ofConfig .plain Config.load).serve .bare) false
      ([.spawn ⟨.createChallenge (some ⟨"agent", algSecp256k1⟩), .ofHeaders "" ""⟩] ++
        List.replicate 4 (.exec 0 ⟨second, false, "ch", by decide⟩) ++
        [.spawn ⟨.verifyChallenge (some ⟨"agent", algSecp256k1, "key", "ch", "sig"⟩), .ofHeaders "" ""⟩] ++
        List.replicate 2 (.exec 1 ⟨second, false, "ch", by decide⟩))
    ReflTransGen (Step ((Handler.ofConfig .plain Config.load).serve .bare)) (.init 0) s ∧
      (∀ x ∈ s.trace, x.event.effect.failed x.event.answer = false) ∧
      (s.procs.map (·.prog.result)) = [some (writeJSON 200 (.challenge "ch" (second + 300 * second))),
        some (writeError 500 "verification failed")] := by
  intro s
  exact ⟨State.run_steps _ _ _, by decide⟩

end Handler

end Slashclaw
