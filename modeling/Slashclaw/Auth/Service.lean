import Slashclaw.Auth.Verify

namespace Slashclaw

structure Service where
  challengeTTL : Duration
  tokenTTL : Duration

-- `s[:n]`: the first `n` bytes of `s`'s UTF-8 encoding; Go panics when `s` is shorter. The cut may
-- fall inside a character, leaving a Go string that is not valid UTF-8, so the result spells each
-- byte as the character of that code. This spelling is one-to-one and the same as `s`'s own text
-- on ASCII, and a key id is only stored and compared.
def bytePrefix (s : String) (n : Nat) : String :=
  ⟨(s.toUTF8.data.toList.take n).map fun b => Char.ofNat b.toNat⟩

namespace Service

variable (P : Primitives) (svc : Service)

def createChallenge (agentID alg : String) : Prog (Except AuthError Challenge) := do
  if !isValidAlgorithm alg then return .error .invalidAlgorithm
  let challengeBytes ← Env.randomToken
  let id ← Env.uuid
  let now ← Env.now
  let challenge : Challenge :=
    { id, agentID, algorithm := alg, challenge := challengeBytes, expiresAt := now + svc.challengeTTL }
  match ← Stmt.createChallenge challenge with
  | .error e => return .error (.db e)
  | .ok _ => return .ok challenge

def verifyAndCreateToken (agentID alg publicKey challengeStr signature : String) :
    Prog (Except AuthError Token) := do
  match ← Stmt.getChallenge challengeStr with
  | .error e => return .error (.db e)
  | .ok none => return .error .challengeNotFound
  | .ok (some challenge) =>
    if (← Env.now) > challenge.expiresAt then return .error .challengeExpired
    if challenge.agentID ≠ agentID ∨ challenge.algorithm ≠ alg then
      return .error .challengeNotFound
    match verifySignature P alg publicKey challengeStr signature with
    | .error e => return .error e
    | .ok false => return .error .invalidSignature
    | .ok true => issue agentID alg publicKey challenge
where
  -- Everything after the signature has been accepted.
  issue (agentID alg publicKey : String) (challenge : Challenge) : Prog (Except AuthError Token) := do
    let _ ← Stmt.deleteChallenge challenge.id
    match ← Stmt.getAccountKeyByPublicKey alg publicKey with
    | .error e => return .error (.db e)
    | .ok accountKey =>
      let tokenBytes ← Env.randomToken
      let id ← Env.uuid
      let now ← Env.now
      let (accountID, keyID) ← match accountKey with
        | some k => pure (k.accountID, k.id)
        | none =>
          if publicKey.utf8ByteSize < 16 then Prog.crash
          else pure ("", "unregistered:" ++ bytePrefix publicKey 16)
      let token : Token :=
        { id, accountID, keyID, agentID, token := tokenBytes, expiresAt := now + svc.tokenTTL }
      match ← Stmt.createToken token with
      | .error e => return .error (.db e)
      | .ok _ => return .ok token

def validateToken (tokenStr : String) : Prog (Except AuthError (Option Token)) := do
  match ← Stmt.getToken tokenStr with
  | .error e => return .error (.db e)
  | .ok token => return .ok token

end Service

end Slashclaw
