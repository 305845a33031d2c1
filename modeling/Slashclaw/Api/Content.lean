import Slashclaw.Api.Handler

namespace Slashclaw

structure CreateStoryRequest where
  title : String
  url : String
  text : String
  tags : List String
  deriving DecidableEq, Repr

structure CreateCommentRequest where
  storyID : String
  parentID : String
  text : String
  deriving DecidableEq, Repr

structure CreateVoteRequest where
  targetType : String
  targetID : String
  value : Int
  deriving DecidableEq, Repr

structure HideRequest where
  targetType : String
  targetID : String
  deriving DecidableEq, Repr

namespace Handler

variable (h : Handler)

-- `body` is what `json.NewDecoder(r.Body).Decode` produced, `none` when it failed.
def createStory (r : Request) (body : Option CreateStoryRequest) : Prog Response := do
  let (allowed, retryAfter) ← h.checkRateLimit r "story" h.cfg.storyRateLimit
  if !allowed then return writeRateLimited retryAfter
  let some req := body | return writeError 400 "invalid JSON"
  let titleLen := req.title.length
  if titleLen < 8 ∨ titleLen > 180 then return writeError 400 "title must be 8-180 characters"
  let hasURL := req.url != ""
  let hasText := req.text != ""
  if hasURL == hasText then return writeError 400 "exactly one of url or text must be provided"
  if hasURL then
    if !h.prims.parseRequestURI req.url then return writeError 400 "invalid URL format"
    let since := h.prims.inLocal ((← Env.now) - h.cfg.duplicateWindow)
    match ← Stmt.findStoryByURL req.url since with
    | .error _ => return writeError 500 "database error"
    | .ok (some existing) => return writeJSON 200 (.storyCreated existing.id true)
    | .ok none => insert r req
  else insert r req
where
  -- From the tag check on, shared by both branches of `if hasURL`.
  insert (r : Request) (req : CreateStoryRequest) : Prog Response := do
    if req.tags.length > 5 then return writeError 400 "maximum 5 tags allowed"
    let token := (← validateToken r).toOption.join
    let agentID := getAgentID r
    let agentVerified := token.isSome
    let agentID := match token with
      | some t => if agentID = "" then t.agentID else agentID
      | none => agentID
    let story : Story :=
      { id := "", title := req.title, url := req.url, text := req.text, tags := req.tags, score := 0,
        commentCount := 0, createdAt := zeroTime, hidden := false, agentID, agentVerified }
    match ← Stmt.createStory story with
    | .error _ => return writeError 500 "failed to create story"
    | .ok story => return writeJSON 201 (.storyCreated story.id false)

def getStory (r : Request) : Prog Response := do
  let id := r.pathID
  if id = "" then return writeError 400 "story id required"
  match ← Stmt.getStory id with
  | .error _ => return writeError 500 "database error"
  | .ok none => return writeError 404 "story not found"
  | .ok (some story) => return writeJSON 200 (.story story)

def createComment (r : Request) (ctx : Context) (body : Option CreateCommentRequest) :
    Prog Response := do
  let (allowed, retryAfter) ← h.checkRateLimit r "comment" h.cfg.commentRateLimit
  if !allowed then return writeRateLimited retryAfter
  let some req := body | return writeError 400 "invalid JSON"
  if req.storyID = "" then return writeError 400 "story_id is required"
  if req.text = "" then return writeError 400 "text is required"
  match ← Stmt.getStory req.storyID with
  | .error _ => return writeError 500 "database error"
  | .ok none => return writeError 404 "story not found"
  | .ok (some _) =>
    if req.parentID ≠ "" then
      match ← Stmt.getComment req.parentID with
      | .error _ => return writeError 500 "database error"
      | .ok none => return writeError 404 "parent comment not found"
      | .ok (some parent) =>
        if parent.storyID ≠ req.storyID then
          return writeError 400 "parent comment is from a different story"
        insert ctx req
    else insert ctx req
where
  -- From the attribution on, after the story and the parent have been checked.
  insert (ctx : Context) (req : CreateCommentRequest) : Prog Response := do
    let (agentID, agentVerified, _) := getAuthFromContext ctx
    let comment : Comment :=
      { id := "", storyID := req.storyID, parentID := req.parentID, text := req.text, score := 0,
        createdAt := zeroTime, hidden := false, agentID, agentVerified }
    match ← Stmt.createComment comment with
    | .error _ => return writeError 500 "failed to create comment"
    | .ok comment =>
      let _ ← Stmt.updateStoryCommentCount req.storyID 1
      return writeJSON 201 (.commentCreated comment.id)

-- `if req.TargetType == "story" { UpdateStoryScore } else { UpdateCommentScore }`, whose error
-- `CreateVote` discards.
def updateScore (req : CreateVoteRequest) (delta : Int) : Prog (Except DBError Unit) :=
  if req.targetType = "story" then Stmt.updateStoryScore req.targetID delta
  else Stmt.updateCommentScore req.targetID delta

def createVote (r : Request) (ctx : Context) (body : Option CreateVoteRequest) : Prog Response := do
  let (allowed, retryAfter) ← h.checkRateLimit r "vote" h.cfg.voteRateLimit
  if !allowed then return writeRateLimited retryAfter
  let some req := body | return writeError 400 "invalid JSON"
  if req.targetType ≠ "story" ∧ req.targetType ≠ "comment" then
    return writeError 400 "target_type must be 'story' or 'comment'"
  if req.value ≠ 1 ∧ req.value ≠ -1 then return writeError 400 "value must be 1 or -1"
  let (agentID, agentVerified, _) := getAuthFromContext ctx
  if req.targetType = "story" then
    match ← Stmt.getStory req.targetID with
    | .error _ => return writeError 500 "database error"
    | .ok none => return writeError 404 "story not found"
    | .ok (some story) =>
      if story.agentID ≠ "" ∧ story.agentID = agentID then
        return writeError 403 "cannot vote on your own content"
      cast r req agentID agentVerified
  else
    match ← Stmt.getComment req.targetID with
    | .error _ => return writeError 500 "database error"
    | .ok none => return writeError 404 "comment not found"
    | .ok (some comment) =>
      if comment.agentID ≠ "" ∧ comment.agentID = agentID then
        return writeError 403 "cannot vote on your own content"
      cast r req agentID agentVerified
where
  -- From the IP hash on, after the target has been checked.
  cast (r : Request) (req : CreateVoteRequest) (agentID : String) (agentVerified : Bool) :
      Prog Response := do
    let ipHash := hashIP h.prims (getClientIP r)
    match ← Stmt.getVote req.targetType req.targetID ipHash agentID with
    | .error _ => return writeError 500 "database error"
    | .ok (some existingVote) =>
      if existingVote.value ≠ req.value then
        match ← Stmt.updateVote existingVote.id req.value with
        | .error _ => return writeError 500 "failed to update vote"
        | .ok () =>
          let _ ← updateScore req (req.value - existingVote.value)
          return writeJSON 200 .ok
      else return writeJSON 200 .ok
    | .ok none =>
      let vote : Vote :=
        { id := "", targetType := req.targetType, targetID := req.targetID, value := req.value,
          createdAt := zeroTime, ipHash, agentID, agentVerified }
      match ← Stmt.createVote vote with
      | .error _ => return writeError 500 "failed to create vote"
      | .ok _ =>
        let _ ← updateScore req req.value
        return writeJSON 200 .ok

def hide (r : Request) (body : Option HideRequest) : Prog Response := do
  if !h.isAdmin r then return writeError 401 "admin authentication required"
  let some req := body | return writeError 400 "invalid JSON"
  if req.targetType ≠ "story" ∧ req.targetType ≠ "comment" then
    return writeError 400 "target_type must be 'story' or 'comment'"
  if req.targetID = "" then return writeError 400 "target_id is required"
  if req.targetType = "story" then
    match ← Stmt.getStory req.targetID with
    | .error _ => return writeError 500 "database error"
    | .ok none => return writeError 404 "story not found"
    | .ok (some _) => return finish (← Stmt.hideStory req.targetID)
  else
    match ← Stmt.getComment req.targetID with
    | .error _ => return writeError 500 "database error"
    | .ok none => return writeError 404 "comment not found"
    | .ok (some _) => return finish (← Stmt.hideComment req.targetID)
where
  finish : Except DBError Unit → Response
    | .error _ => writeError 500 "failed to hide content"
    | .ok () => writeJSON 200 .ok

end Handler

end Slashclaw
