import Mathlib.Algebra.Group.Int
import Mathlib.Data.List.Basic

namespace Slashclaw

-- Instants and durations count nanoseconds since the Unix epoch, as Go's `time.Time` and
-- `time.Duration` do.
abbrev Time := Int
abbrev Duration := Int

def second : Duration := 1000000000

-- A `time.Time` in a zone: the instant, and the zone's offset from UTC there.
structure LocalTime where
  instant : Time
  offset : Duration
  deriving DecidableEq, Repr

-- The zone's clock reading, which `Format` writes: the instant moved by the offset.
def LocalTime.wall (t : LocalTime) : Time :=
  t.instant + t.offset

-- Go's zero `time.Time` (January 1, year 1, UTC), which `IsZero` tests for.
def zeroTime : Time := -62135596800 * second

-- What a `DATETIME` column written as `Format("2006-01-02 15:04:05")` reads back as: the
-- instant truncated to its second.
def truncSecond (t : Time) : Time :=
  t / second * second

structure Story where
  id : String
  title : String
  url : String
  text : String
  tags : List String
  score : Int
  commentCount : Int
  createdAt : Time
  hidden : Bool
  agentID : String
  agentVerified : Bool
  deriving DecidableEq, Repr

structure Comment where
  id : String
  storyID : String
  parentID : String
  text : String
  score : Int
  createdAt : Time
  hidden : Bool
  agentID : String
  agentVerified : Bool
  deriving DecidableEq, Repr

structure Vote where
  id : String
  targetType : String
  targetID : String
  value : Int
  createdAt : Time
  ipHash : String
  agentID : String
  agentVerified : Bool
  deriving DecidableEq, Repr

structure Account where
  id : String
  displayName : String
  bio : String
  homepageURL : String
  createdAt : Time
  deriving DecidableEq, Repr

structure AccountKey where
  id : String
  accountID : String
  algorithm : String
  publicKey : String
  createdAt : Time
  revokedAt : Option Time
  deriving DecidableEq, Repr

structure Challenge where
  id : String
  agentID : String
  algorithm : String
  challenge : String
  expiresAt : Time
  deriving DecidableEq, Repr

structure Token where
  id : String
  accountID : String
  keyID : String
  agentID : String
  token : String
  expiresAt : Time
  deriving DecidableEq, Repr

-- The errors a statement of `SQLiteStore` can return: `sql.ErrNoRows` from a `QueryRow` that
-- matched nothing, a rejection by a `PRIMARY KEY`, `UNIQUE` or `FOREIGN KEY` constraint, and
-- every other failure of the database (I/O, locking, a closed handle).
inductive DBError
  | noRows
  | constraint
  | infra
  deriving DecidableEq, Repr

-- The tables of the schema created by `SQLiteStore.migrate`, each in rowid order.
structure Store where
  stories : List Story
  comments : List Comment
  votes : List Vote
  accounts : List Account
  accountKeys : List AccountKey
  challenges : List Challenge
  tokens : List Token
  deriving DecidableEq, Repr

namespace Store

def empty : Store :=
  ⟨[], [], [], [], [], [], []⟩

end Store

end Slashclaw
