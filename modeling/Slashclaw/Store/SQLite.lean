import Slashclaw.Store.Rows

namespace Slashclaw

-- `nullString` writes `""` as SQL `NULL`, and `NULL = ?` is never true: the comparison a query
-- makes against such a column.
def nullEq (column param : String) : Bool :=
  column != "" && column == param

-- Two rows clash under `UNIQUE(target_type, target_id, ip_hash, agent_id)` only when no column
-- of the key is `NULL`.
def Vote.uniqueClash (a b : Vote) : Bool :=
  a.targetType == b.targetType && a.targetID == b.targetID &&
    nullEq a.ipHash b.ipHash && nullEq a.agentID b.agentID

-- `datetime('now')` against an `expires_at` text written with second precision.
def Challenge.live (c : Challenge) (now : Time) : Bool :=
  now / second < c.expiresAt / second

def Token.live (t : Token) (now : Time) : Bool :=
  now / second < t.expiresAt / second

def AccountKey.active (k : AccountKey) : Bool :=
  k.revokedAt.isNone

-- An `INSERT`: rejected when a row clashes with it on a `PRIMARY KEY` or `UNIQUE` constraint, or
-- when a `FOREIGN KEY` it carries has no parent row.
def insertRow (rows : List ρ) (clash : ρ → Bool) (parentExists : Bool) (row : ρ) :
    Except DBError (List ρ) :=
  if rows.any clash || !parentExists then .error .constraint else .ok (rows ++ [row])

namespace Store

variable (s : Store)

-- Stories

-- `CreateStory` first fills an empty id with a fresh uuid and a zero `CreatedAt` with the clock,
-- and hands the row back to its caller; so do the other `Create` statements below.
def createStory (story : Story) (uuid : String) (now : Time) : Except DBError (Story × Store) :=
  let story := { story with
    id := if story.id = "" then uuid else story.id
    createdAt := if story.createdAt = zeroTime then now else story.createdAt }
  (insertRow s.stories (·.id == story.id) true story).map fun rows => (story, { s with stories := rows })

def getStory (id : String) : Option Story :=
  s.stories.find? fun st => st.id == id && !st.hidden

-- The driver binds `since` as `Format("2006-01-02 15:04:05.999999999-07:00")`, its clock reading in
-- its own zone and then the offset, and `created_at` holds that text of a UTC instant; `created_at >
-- ?` compares the texts, which for four-digit years is the order of the two clock readings, equal
-- readings counting as not after (`+00:00` is the least offset text).
def findStoryByURL (url : String) (since : LocalTime) : Option Story :=
  (s.stories.filter fun st => nullEq st.url url && since.wall < st.createdAt && !st.hidden)
    |>.foldl (fun acc st => match acc with
      | some best => if best.createdAt < st.createdAt then some st else some best
      | none => some st) none

def updateStoryScore (id : String) (delta : Int) : Store :=
  { s with stories := s.stories.map fun st => if st.id == id then { st with score := st.score + delta } else st }

def updateStoryCommentCount (id : String) (delta : Int) : Store :=
  { s with stories := s.stories.map fun st =>
      if st.id == id then { st with commentCount := st.commentCount + delta } else st }

def hideStory (id : String) : Store :=
  { s with stories := s.stories.map fun st => if st.id == id then { st with hidden := true } else st }

-- Comments

def createComment (c : Comment) (uuid : String) (now : Time) : Except DBError (Comment × Store) :=
  let c := { c with
    id := if c.id = "" then uuid else c.id
    createdAt := if c.createdAt = zeroTime then now else c.createdAt }
  (insertRow s.comments (·.id == c.id) (s.stories.any (·.id == c.storyID)) c).map fun rows =>
    (c, { s with comments := rows })

def getComment (id : String) : Option Comment :=
  s.comments.find? fun c => c.id == id && !c.hidden

def updateCommentScore (id : String) (delta : Int) : Store :=
  { s with comments := s.comments.map fun c => if c.id == id then { c with score := c.score + delta } else c }

def hideComment (id : String) : Store :=
  { s with comments := s.comments.map fun c => if c.id == id then { c with hidden := true } else c }

-- Votes

def createVote (v : Vote) (uuid : String) (now : Time) : Except DBError (Vote × Store) :=
  let v := { v with
    id := if v.id = "" then uuid else v.id
    createdAt := if v.createdAt = zeroTime then now else v.createdAt }
  (insertRow s.votes (fun w => w.id == v.id || w.uniqueClash v) true v).map fun rows =>
    (v, { s with votes := rows })

def getVote (targetType targetID ipHash agentID : String) : Option Vote :=
  s.votes.find? fun v => v.targetType == targetType && v.targetID == targetID &&
    (nullEq v.ipHash ipHash || nullEq v.agentID agentID)

def updateVote (id : String) (value : Int) : Store :=
  { s with votes := s.votes.map fun v => if v.id == id then { v with value := value } else v }

-- Accounts

def createAccount (a : Account) (uuid : String) (now : Time) : Except DBError (Account × Store) :=
  let a := { a with
    id := if a.id = "" then uuid else a.id
    createdAt := if a.createdAt = zeroTime then now else a.createdAt }
  (insertRow s.accounts (·.id == a.id) true a).map fun rows => (a, { s with accounts := rows })

-- `GetAccount` scans the row without looking for `sql.ErrNoRows`: a missing account is an error,
-- never the `nil` its callers test for.
def getAccount (id : String) : Except DBError (Option Account) :=
  match s.accounts.find? (·.id == id) with
  | some a => .ok (some a)
  | none => .error .noRows

-- Account keys

def createAccountKey (k : AccountKey) (uuid : String) (now : Time) :
    Except DBError (AccountKey × Store) :=
  let k := { k with
    id := if k.id = "" then uuid else k.id
    createdAt := if k.createdAt = zeroTime then now else k.createdAt }
  (insertRow s.accountKeys
      (fun k' => k'.id == k.id || (k'.algorithm == k.algorithm && k'.publicKey == k.publicKey))
      (s.accounts.any (·.id == k.accountID)) { k with revokedAt := none }).map fun rows =>
    (k, { s with accountKeys := rows })

def getAccountKey (id : String) : Except DBError (Option AccountKey) :=
  match s.accountKeys.find? (·.id == id) with
  | some k => .ok (some k)
  | none => .error .noRows

def getAccountKeyByPublicKey (alg publicKey : String) : Option AccountKey :=
  s.accountKeys.find? fun k => k.algorithm == alg && k.publicKey == publicKey && k.active

def revokeAccountKey (id : String) (now : Time) : Store :=
  { s with accountKeys := s.accountKeys.map fun k => if k.id == id then { k with revokedAt := some now } else k }

-- Challenges and tokens store `expires_at` as text with second precision.

def createChallenge (c : Challenge) (uuid : String) : Except DBError (Challenge × Store) :=
  let c := { c with id := if c.id = "" then uuid else c.id }
  (insertRow s.challenges (fun c' => c'.id == c.id || c'.challenge == c.challenge) true
      { c with expiresAt := truncSecond c.expiresAt }).map fun rows => (c, { s with challenges := rows })

def getChallenge (challenge : String) (now : Time) : Option Challenge :=
  s.challenges.find? fun c => c.challenge == challenge && c.live now

def deleteChallenge (id : String) : Store :=
  { s with challenges := s.challenges.filter (·.id != id) }

def createToken (t : Token) (uuid : String) : Except DBError (Token × Store) :=
  let t := { t with id := if t.id = "" then uuid else t.id }
  (insertRow s.tokens (fun t' => t'.id == t.id || t'.token == t.token) true
      { t with expiresAt := truncSecond t.expiresAt }).map fun rows => (t, { s with tokens := rows })

def getToken (token : String) (now : Time) : Option Token :=
  s.tokens.find? fun t => t.token == token && t.live now

-- `expires_at < datetime('now')`; nothing in the server calls it.
def deleteExpiredTokens (now : Time) : Store :=
  { s with tokens := s.tokens.filter fun t => !(t.expiresAt / second < now / second) }

end Store

end Slashclaw
