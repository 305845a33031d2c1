import Slashclaw.Api.Routes
import Slashclaw.Effect.Footprint

namespace Slashclaw

open Prog

-- The tables each route may write, whatever the database answers.
def Call.tables : Call → List Table
  | .createStory _ => [.stories]
  | .getStory | .getAccount => []
  | .createComment _ => [.comments, .stories]
  | .createVote _ => [.votes, .stories, .comments]
  | .hide _ => [.stories, .comments]
  | .createChallenge _ => [.challenges]
  | .verifyChallenge _ => [.challenges, .tokens]
  | .createAccount _ => [.challenges, .tokens, .accounts, .accountKeys]
  | .addAccountKey _ => [.challenges, .tokens, .accountKeys]
  | .deleteAccountKey => [.accountKeys]

theorem Service.verifyAndCreateToken_within (P : Primitives) (svc : Service)
    (agentID alg publicKey x signature : String) :
    Within (fun e => e.writesIn [.challenges, .tokens]) (svc.verifyAndCreateToken P agentID alg publicKey x signature) := by
  unfold verifyAndCreateToken verifyAndCreateToken.issue
  repeat
    first
    | refine Within.bind ?_ fun _ => ?_
    | refine Within.ite ?_ ?_
    | exact Within.effect rfl
    | exact Within.pure _
    | exact Within.crash
    | split

namespace Handler

variable {P : Effect → Prop}

theorem protect_within (routing : Routing) {next : Context → Prog Response} (r : Request)
    (hn : ∀ ctx, Within P (next ctx)) (ht : ∀ x, P (.getToken x)) : Within P (protect routing next r) := by
  cases routing
  case bare => exact hn _
  case requireAuth =>
    refine Within.bind (Within.ite (.pure _) (Within.bind (Within.effect (ht _)) fun _ => ?_)) fun _ => ?_
    · split <;> exact .pure _
    · split
      · exact hn _
      · exact .pure _


theorem serve_within (h : Handler) (routing : Routing) (a : ApiRequest) :
    Within (fun e => e.writesIn a.call.tables) (h.serve routing a) := by
  rcases a with ⟨call, r⟩
  cases call <;> simp only [serve] <;>
    try with_reducible refine protect_within routing r (fun _ => ?_) (Effect.writesIn_getToken _)
  all_goals
    simp only [validateToken, Service.validateToken, checkRateLimit, createStory, createStory.insert,
      getStory, createComment, createComment.insert, createVote, createVote.cast, updateScore, hide,
      hide.finish, createChallenge, Service.createChallenge, verifyChallenge, createAccount, getAccount,
      addAccountKey, deleteAccountKey, Stmt.createStory, Stmt.getStory, Stmt.findStoryByURL,
      Stmt.updateStoryScore, Stmt.updateStoryCommentCount, Stmt.hideStory, Stmt.createComment,
      Stmt.getComment, Stmt.updateCommentScore, Stmt.hideComment, Stmt.createVote, Stmt.getVote,
      Stmt.updateVote, Stmt.createAccount, Stmt.getAccount, Stmt.createAccountKey, Stmt.getAccountKey,
      Stmt.getAccountKeyByPublicKey, Stmt.revokeAccountKey, Stmt.createChallenge, Stmt.getToken, Env.now,
      Env.uuid, Env.randomToken, Env.allow, Env.retryAfter]
    repeat'
      first
      | rfl
      | with_reducible first
        | refine Within.bind ?_ fun _ => ?_
        | refine Within.ite ?_ ?_
        | refine Within.effect ?_
        | refine Within.exec ?_ fun _ => ?_
        | exact Within.ret _
        | exact Within.pure _
        | exact Within.crash
      | split
      | dsimp only
  -- what is left are the calls of `VerifyAndCreateToken`

  all_goals exact (Service.verifyAndCreateToken_within _ _ _ _ _ _ _).mono fun _ he =>
    Effect.writesIn_mono he (by simp [Call.tables])

end Handler

end Slashclaw
