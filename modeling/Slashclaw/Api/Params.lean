import Slashclaw.Api.Handler
import Slashclaw.Store.Listing

namespace Slashclaw

-- The digit loop of `ParseUint` in base 10 (Go's `strconv`, not under `src/`), from the value `n`
-- of the digits before: `none` at the first byte that is not a decimal digit. Its overflow checks
-- answer a range error exactly when the value passes `2^64 - 1`, which `atoi` rejects as well.
def parseDigits : List Char → Nat → Option Nat
  | [], n => some n
  | c :: cs, n => if c.isDigit then parseDigits cs (10 * n + (c.toNat - '0'.toNat)) else none

-- `ParseInt` picks off a leading sign: whether it is `-`, and the bytes after it.
def splitSign : List Char → Bool × List Char
  | '+' :: ds => (false, ds)
  | '-' :: ds => (true, ds)
  | ds => (false, ds)

-- `strconv.Atoi` on a 64-bit platform, which is `ParseInt(s, 10, 0)`: a `+` or `-` may lead, then
-- come the decimal digits, at least one, and the value must fit an `int`. `none` stands for the
-- `*NumError`, of syntax or of range; both callers ignore the value returned with it.
def atoi (s : String) : Option Int :=
  let (neg, digits) := splitSign s.toList
  if digits = [] then none
  else match parseDigits digits 0 with
    | none => none
    | some un =>
      if neg then if un ≤ 2 ^ 63 then some (-un) else none
      else if un < 2 ^ 63 then some un else none

-- `r.URL.Query().Get`: the first value of each parameter, decoded, and `""` when it is absent.
abbrev Query := String → String

-- The options `ListStories` reads from its query.
def listOptions (query : Query) : ListOptions :=
  let sort : SortOrder := match query "sort" with
    | "new" => .new
    | "discussed" => .discussed
    | _ => .top
  let limit : Int :=
    if query "limit" ≠ "" then
      match atoi (query "limit") with
      | some l => if l > 0 ∧ l ≤ 100 then l else 30
      | none => 30
    else 30
  ⟨sort, limit, query "cursor"⟩

-- The options `ListComments` reads from its query.
def commentListOptions (query : Query) : CommentListOptions :=
  let sort : SortOrder := match query "sort" with
    | "new" => .new
    | _ => .top
  let view : ViewMode := match query "view" with
    | "flat" => .flat
    | _ => .tree
  ⟨sort, view⟩

structure ListStoriesResponse where
  stories : List Story
  nextCursor : String
  deriving DecidableEq, Repr

namespace Handler

-- `ListStories` on the database `st` at the clock reading `now`. The model's queries do not fail,
-- so its 500 answer is left out.
def listStories (st : Store) (now : Time) (query : Query) : ListStoriesResponse :=
  let (stories, nextCursor) := st.listStories now (listOptions query)
  ⟨stories, nextCursor⟩

-- `ListComments` on the database `st`: the error it answers, or the rows it writes with 200 and,
-- with `view=tree`, the forest over them. Its 500 answers are left out, as above.
def listComments (st : Store) (r : Request) (query : Query) :
    Except Response (List Comment × Option CommentForest) :=
  let storyID := r.pathID
  if storyID = "" then .error (writeError 400 "story id required")
  else match st.getStory storyID with
    | none => .error (writeError 404 "story not found")
    | some _ => .ok (st.listComments storyID (commentListOptions query))

end Handler

-- `getEnv`, `getEnvInt` and `getEnvDuration` over the environment `env` (`os.Getenv`, `""` for an
-- unset variable). `time.ParseDuration` is given as `parseDuration`, since it computes fractions in
-- float64.
def getEnv (env : String → String) (key defaultVal : String) : String :=
  if env key ≠ "" then env key else defaultVal

def getEnvInt (env : String → String) (key : String) (defaultVal : Int) : Int :=
  if env key ≠ "" then
    match atoi (env key) with
    | some i => i
    | none => defaultVal
  else defaultVal

def getEnvDuration (parseDuration : String → Option Duration) (env : String → String) (key : String)
    (defaultVal : Duration) : Duration :=
  if env key ≠ "" then
    match parseDuration (env key) with
    | some d => d
    | none => defaultVal
  else defaultVal

-- `config.Load`, with the fields the handlers read.
def Config.loadFrom (parseDuration : String → Option Duration) (env : String → String) : Config :=
  ⟨getEnv env "ADMIN_SECRET" "", getEnvInt env "STORY_RATE_LIMIT" 10, getEnvInt env "COMMENT_RATE_LIMIT" 60,
    getEnvInt env "VOTE_RATE_LIMIT" 120, getEnvDuration parseDuration env "RATE_LIMIT_WINDOW" (3600 * second),
    getEnvDuration parseDuration env "CHALLENGE_TTL" (300 * second),
    getEnvDuration parseDuration env "TOKEN_TTL" (24 * 3600 * second),
    getEnvDuration parseDuration env "DUPLICATE_WINDOW" (30 * 24 * 3600 * second)⟩

end Slashclaw
