import Slashclaw.Api.Content

namespace Slashclaw

structure ChallengeRequest where
  agentID : String
  algorithm : String
  deriving DecidableEq, Repr

structure VerifyRequest where
  agentID : String
  algorithm : String
  publicKey : String
  challenge : String
  signature : String
  deriving DecidableEq, Repr

structure CreateAccountRequest where
  displayName : String
  bio : String
  homepageURL : String
  publicKey : String
  algorithm : String
  signature : String
  challenge : String
  deriving DecidableEq, Repr

structure AddKeyRequest where
  publicKey : String
  algorithm : String
  signature : String
  challenge : String
  deriving DecidableEq, Repr

namespace Handler

variable (h : Handler)

def createChallenge (body : Option ChallengeRequest) : Prog Response := do
  let some req := body | return writeError 400 "invalid JSON"
  if req.agentID = "" then return writeError 400 "agent_id is required"
  if req.algorithm = "" then return writeError 400 "alg is required"
  match ← h.auth.createChallenge req.agentID req.algorithm with
  | .error .invalidAlgorithm =>
    return writeError 400 "invalid algorithm; supported: ed25519, secp256k1, rsa-pss, rsa-sha256"
  | .error _ => return writeError 500 "failed to create challenge"
  | .ok challenge => return writeJSON 200 (.challenge challenge.challenge challenge.expiresAt)

-- The `switch err` that `VerifyChallenge` and `CreateAccount` make after `VerifyAndCreateToken`.
def verifyError : AuthError → Response
  | .invalidAlgorithm => writeError 400 "invalid algorithm"
  | .invalidPublicKey => writeError 400 "invalid public key format"
  | .invalidSignature => writeError 401 "invalid signature"
  | .challengeNotFound | .challengeExpired => writeError 400 "challenge expired or not found"
  | _ => writeError 500 "verification failed"

def verifyChallenge (body : Option VerifyRequest) : Prog Response := do
  let some req := body | return writeError 400 "invalid JSON"
  if req.agentID = "" ∨ req.algorithm = "" ∨ req.publicKey = "" ∨ req.challenge = "" ∨
      req.signature = "" then
    return writeError 400 "all fields are required: agent_id, alg, public_key, challenge, signature"
  match ← h.auth.verifyAndCreateToken h.prims req.agentID req.algorithm req.publicKey req.challenge
      req.signature with
  | .error e => return verifyError e
  | .ok token => return writeJSON 200 (.verified token.token token.expiresAt token.keyID token.accountID)

def createAccount (r : Request) (body : Option CreateAccountRequest) : Prog Response := do
  let some req := body | return writeError 400 "invalid JSON"
  if req.displayName = "" then return writeError 400 "display_name is required"
  if req.publicKey = "" ∨ req.algorithm = "" ∨ req.signature = "" ∨ req.challenge = "" then
    return writeError 400 "public_key, alg, signature, and challenge are required"
  let agentID := if getAgentID r = "" then req.displayName else getAgentID r
  match ← h.auth.verifyAndCreateToken h.prims agentID req.algorithm req.publicKey req.challenge
      req.signature with
  | .error e => return verifyError e
  | .ok _ =>
    match ← Stmt.getAccountKeyByPublicKey req.algorithm req.publicKey with
    | .error _ => return writeError 500 "database error"
    | .ok (some _) => return writeError 409 "public key is already registered to an account"
    | .ok none =>
      let account : Account :=
        { id := "", displayName := req.displayName, bio := req.bio, homepageURL := req.homepageURL,
          createdAt := zeroTime }
      match ← Stmt.createAccount account with
      | .error _ => return writeError 500 "failed to create account"
      | .ok account =>
        let key : AccountKey :=
          { id := "", accountID := account.id, algorithm := req.algorithm, publicKey := req.publicKey,
            createdAt := zeroTime, revokedAt := none }
        match ← Stmt.createAccountKey key with
        | .error _ => return writeError 500 "failed to create account key"
        | .ok key => return writeJSON 201 (.accountCreated account.id key.id)

def getAccount (r : Request) : Prog Response := do
  let id := r.pathID
  if id = "" then return writeError 400 "account id required"
  match ← Stmt.getAccount id with
  | .error _ => return writeError 500 "database error"
  | .ok none => return writeError 404 "account not found"
  | .ok (some account) => return writeJSON 200 (.account account)

def addAccountKey (r : Request) (body : Option AddKeyRequest) : Prog Response := do
  let accountID := r.pathID
  if accountID = "" then return writeError 400 "account id required"
  match ← Stmt.getAccount accountID with
  | .error _ => return writeError 500 "database error"
  | .ok none => return writeError 404 "account not found"
  | .ok (some _) =>
    let .ok (some token) ← validateToken r | return writeError 401 "authentication required"
    if token.accountID ≠ accountID then return writeError 403 "not authorized to modify this account"
    let some req := body | return writeError 400 "invalid JSON"
    if req.publicKey = "" ∨ req.algorithm = "" ∨ req.signature = "" ∨ req.challenge = "" then
      return writeError 400 "public_key, alg, signature, and challenge are required"
    match ← h.auth.verifyAndCreateToken h.prims token.agentID req.algorithm req.publicKey req.challenge
        req.signature with
    | .error .invalidSignature => return writeError 401 "invalid signature for new key"
    | .error _ => return writeError 400 "verification failed"
    | .ok _ =>
      match ← Stmt.getAccountKeyByPublicKey req.algorithm req.publicKey with
      | .error _ => return writeError 500 "database error"
      | .ok (some _) => return writeError 409 "public key is already registered"
      | .ok none =>
        let key : AccountKey :=
          { id := "", accountID, algorithm := req.algorithm, publicKey := req.publicKey,
            createdAt := zeroTime, revokedAt := none }
        match ← Stmt.createAccountKey key with
        | .error _ => return writeError 500 "failed to create account key"
        | .ok key => return writeJSON 201 (.keyAdded key.id)

def deleteAccountKey (r : Request) : Prog Response := do
  let accountID := r.pathID
  let keyID := r.pathKeyID
  if accountID = "" ∨ keyID = "" then return writeError 400 "account id and key id required"
  let .ok (some token) ← validateToken r | return writeError 401 "authentication required"
  if token.accountID ≠ accountID then return writeError 403 "not authorized to modify this account"
  match ← Stmt.getAccountKey keyID with
  | .error _ => return writeError 500 "database error"
  | .ok none => return writeError 404 "key not found"
  | .ok (some key) =>
    if key.accountID ≠ accountID then return writeError 403 "key does not belong to this account"
    if key.id = token.keyID then return writeError 400 "cannot revoke the key currently in use"
    match ← Stmt.revokeAccountKey keyID with
    | .error _ => return writeError 500 "failed to revoke key"
    | .ok () => return writeJSON 200 .ok

end Handler

end Slashclaw
