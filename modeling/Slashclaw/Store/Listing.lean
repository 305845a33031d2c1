import Slashclaw.Store.SQLite

namespace Slashclaw

inductive SortOrder
  | top
  | new
  | discussed
  deriving DecidableEq, Repr

structure ListOptions where
  sort : SortOrder
  limit : Int
  cursor : String
  deriving DecidableEq, Repr

inductive ViewMode
  | tree
  | flat
  deriving DecidableEq, Repr

structure CommentListOptions where
  sort : SortOrder
  view : ViewMode
  deriving DecidableEq, Repr

def hour : Duration := 3600 * second

-- The `ORDER BY` of `ListStories` as the test "`a` may come before `b`". The `top` rank
-- `score - hours since created_at` is compared scaled by an hour, in exact arithmetic rather
-- than in SQLite's floating point. Rows that tie come in the table's order.
def storyOrder (sort : SortOrder) (now : Time) (a b : Story) : Bool :=
  match sort with
  | .new => b.createdAt ≤ a.createdAt
  | .discussed => b.commentCount < a.commentCount || (a.commentCount == b.commentCount && b.createdAt ≤ a.createdAt)
  | .top => b.score * hour - (now - b.createdAt) ≤ a.score * hour - (now - a.createdAt)

-- The `ORDER BY` of `ListComments`: `created_at DESC` for `new`, `score DESC, created_at ASC`
-- otherwise.
def commentOrder (sort : SortOrder) (a b : Comment) : Bool :=
  match sort with
  | .new => b.createdAt ≤ a.createdAt
  | _ => b.score < a.score || (a.score == b.score && a.createdAt ≤ b.createdAt)

-- `byID`, filled in the order of `comments`: each id to the position of the last comment that
-- carries it. Positions stand for the `*Comment` pointers of the slice.
def commentsByID : Nat → List Comment → (String → Option Nat) → String → Option Nat
  | _, [], byID => byID
  | i, c :: cs, byID => commentsByID (i + 1) cs fun id => if id = c.id then some i else byID id

-- What `buildCommentTree` builds over the positions of its argument: the roots, and the
-- `Children` appended to each comment through the shared pointers.
structure CommentForest where
  roots : List Nat
  children : Nat → List Nat

-- The second loop of `buildCommentTree`, from position `i` on.
def attachComments (byID : String → Option Nat) : Nat → List Comment → CommentForest → CommentForest
  | _, [], f => f
  | i, c :: cs, f =>
    attachComments byID (i + 1) cs <|
      if c.parentID = "" then { f with roots := f.roots ++ [i] }
      else match byID c.parentID with
        | some p => { f with children := fun j => if j = p then f.children j ++ [i] else f.children j }
        | none => f

-- The comments come with empty `Children`, as `scanCommentRows` leaves them.
def buildCommentTree (comments : List Comment) : CommentForest :=
  attachComments (commentsByID 0 comments fun _ => none) 0 comments ⟨[], fun _ => []⟩

namespace Store

variable (s : Store)

-- `opts.Cursor` reaches no part of the query.
def listStories (now : Time) (opts : ListOptions) : List Story × String :=
  let limit := if opts.limit ≤ 0 ∨ opts.limit > 100 then 30 else opts.limit
  let stories := ((s.stories.filter (!·.hidden)).mergeSort (storyOrder opts.sort now)).take (limit + 1).toNat
  if limit < stories.length then
    let stories := stories.take limit.toNat
    (stories, (stories.getLast?.map (·.id)).getD "")
  else (stories, "")

def commentRows (storyID : String) (sort : SortOrder) : List Comment :=
  (s.comments.filter fun c => c.storyID == storyID && !c.hidden).mergeSort (commentOrder sort)

-- The rows of the query, and with `view=tree` the forest `buildCommentTree` built over them.
def listComments (storyID : String) (opts : CommentListOptions) : List Comment × Option CommentForest :=
  let comments := s.commentRows storyID opts.sort
  if opts.view = .tree then (comments, some (buildCommentTree comments)) else (comments, none)

end Store

end Slashclaw
