import Slashclaw.Auth.Service

namespace Slashclaw

-- The fields of `config.Config` that the handlers read.
structure Config where
  adminSecret : String
  storyRateLimit : Int
  commentRateLimit : Int
  voteRateLimit : Int
  rateLimitWindow : Duration
  challengeTTL : Duration
  tokenTTL : Duration
  duplicateWindow : Duration

-- `config.Load` with no variable of the environment set.
def Config.load : Config :=
  ⟨"", 10, 60, 120, 3600 * second, 300 * second, 24 * 3600 * second, 30 * 24 * 3600 * second⟩

-- The parts of an `http.Request` the handlers read: its headers (`""` when absent, as
-- `Header.Get` returns), `RemoteAddr` and the path values of the route.
structure Request where
  agentID : String
  forwardedFor : String
  realIP : String
  remoteAddr : String
  authorization : String
  adminSecret : String
  pathID : String
  pathKeyID : String
  deriving DecidableEq, Repr

-- A request from `1.2.3.4` with the given `Authorization` and `X-Agent-Id` headers.
def Request.ofHeaders (authorization agentID : String) : Request :=
  ⟨agentID, "", "1.2.3.4", "", authorization, "", "", ""⟩

-- The values the middlewares put in the request context.
structure Context where
  agentID : Option String
  verified : Option Bool
  accountID : Option String
  deriving DecidableEq, Repr

def Context.empty : Context :=
  ⟨none, none, none⟩

inductive Body
  | error (message : String) (retryAfter : Int)
  | challenge (challenge : String) (expiresAt : Time)
  | verified (accessToken : String) (expiresAt : Time) (keyID accountID : String)
  | accountCreated (accountID keyID : String)
  | account (account : Account)
  | keyAdded (keyID : String)
  | ok
  | storyCreated (id : String) (existing : Bool)
  | story (story : Story)
  | commentCreated (id : String)
  deriving DecidableEq, Repr

structure Response where
  status : Nat
  retryAfter : Option String
  body : Body
  deriving DecidableEq, Repr

def writeJSON (status : Nat) (body : Body) : Response :=
  ⟨status, none, body⟩

def writeError (status : Nat) (message : String) : Response :=
  writeJSON status (.error message 0)

@[simp] theorem writeJSON_status (status : Nat) (body : Body) : (writeJSON status body).status = status :=
  rfl

@[simp] theorem writeError_status (status : Nat) (message : String) : (writeError status message).status = status :=
  rfl

-- `string(rune(x))`: `x` wrapped to an `int32`, and U+FFFD when that is no Unicode scalar value.
def runeString (x : Int) : String :=
  let r := (x + 2 ^ 31) % 2 ^ 32 - 2 ^ 31
  if 0 ≤ r ∧ r ≤ 0x10FFFF ∧ ¬(0xD800 ≤ r ∧ r ≤ 0xDFFF) then String.singleton (Char.ofNat r.toNat)
  else "�"

def writeRateLimited (retryAfter : Int) : Response :=
  ⟨429, some (runeString retryAfter), .error "rate limit exceeded" retryAfter⟩

-- `unicode.IsSpace`, the set `strings.TrimSpace` removes.
def isGoSpace (c : Char) : Bool :=
  c == ' ' || c == '\t' || c == '\n' || c == '\x0B' || c == '\x0C' || c == '\r' || c == '\x85' ||
    c == '\xA0' || c.val == 0x1680 || (0x2000 ≤ c.val && c.val ≤ 0x200A) || c.val == 0x2028 ||
    c.val == 0x2029 || c.val == 0x202F || c.val == 0x205F || c.val == 0x3000

def trimSpace (s : String) : String :=
  String.mk ((s.data.dropWhile isGoSpace).reverse.dropWhile isGoSpace).reverse

def getAgentID (r : Request) : String :=
  r.agentID

-- `strings.Split(xff, ",")[0]` is the text before the first comma, and `addr[:idx]` with
-- `idx := strings.LastIndex(addr, ":")` the text before the last colon.
def getClientIP (r : Request) : String :=
  if r.forwardedFor ≠ "" then trimSpace (String.mk (r.forwardedFor.data.takeWhile (· != ',')))
  else if r.realIP ≠ "" then r.realIP
  else match r.remoteAddr.data.reverse.dropWhile (· != ':') with
    | _ :: before => String.mk before.reverse
    | [] => r.remoteAddr

def getToken (r : Request) : String :=
  if "Bearer ".data.isPrefixOf r.authorization.data then String.mk (r.authorization.data.drop 7)
  else ""

def hexDigit (n : Nat) : Char :=
  if n < 10 then Char.ofNat (48 + n) else Char.ofNat (87 + n)

-- `auth.HashIP`: the hex encoding of the first 16 bytes of the SHA-256 of the address.
def hashIP (P : Primitives) (ip : String) : String :=
  String.join <| ((P.sha256 ip.toUTF8.data.toList).take 16).map fun b =>
    String.mk [hexDigit (b.toNat / 16), hexDigit (b.toNat % 16)]

-- The dependencies of `api.Handler`; its store and limiter are the shared `World`.
structure Handler where
  prims : Primitives
  cfg : Config
  auth : Service

namespace Handler

variable (h : Handler)

def validateToken (r : Request) : Prog (Except AuthError (Option Token)) :=
  let tokenStr := getToken r
  if tokenStr = "" then pure (.ok none) else Service.validateToken tokenStr

def rateLimitKey (action ip agentID : String) : String :=
  if agentID ≠ "" then action ++ ":" ++ ip ++ ":" ++ agentID else action ++ ":" ++ ip

-- `int(d.Seconds())`, truncating towards zero.
def durationSeconds (d : Duration) : Int :=
  d.tdiv second

def checkRateLimit (r : Request) (action : String) (limit : Int) : Prog (Bool × Int) := do
  let key := rateLimitKey action (getClientIP r) (getAgentID r)
  if ← Env.allow key limit h.cfg.rateLimitWindow then return (true, 0)
  let d ← Env.retryAfter key h.cfg.rateLimitWindow
  return (false, durationSeconds d)

def isAdmin (r : Request) : Bool :=
  h.cfg.adminSecret != "" && r.adminSecret == h.cfg.adminSecret

def tokenContext (token : Token) : Context :=
  ⟨some token.agentID, some true, if token.accountID ≠ "" then some token.accountID else none⟩

def requireAuth (next : Context → Prog Response) (r : Request) : Prog Response := do
  match ← validateToken r with
  | .ok (some token) => next (tokenContext token)
  | _ => return writeError 401 "authentication required"

def optionalAuth (next : Context → Prog Response) (r : Request) : Prog Response := do
  match ← validateToken r with
  | .ok (some token) => next (tokenContext token)
  | _ =>
    if r.agentID ≠ "" then next ⟨some r.agentID, some false, none⟩ else next .empty

def getAuthFromContext (ctx : Context) : String × Bool × String :=
  (ctx.agentID.getD "", ctx.verified.getD false, ctx.accountID.getD "")

end Handler

end Slashclaw
