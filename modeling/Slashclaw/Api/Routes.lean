import Slashclaw.Api.Accounts

namespace Slashclaw

-- A route of the API with the body `json.Decode` produced for it (`none` when decoding failed).
inductive Call
  | createStory (body : Option CreateStoryRequest)
  | getStory
  | createComment (body : Option CreateCommentRequest)
  | createVote (body : Option CreateVoteRequest)
  | hide (body : Option HideRequest)
  | createChallenge (body : Option ChallengeRequest)
  | verifyChallenge (body : Option VerifyRequest)
  | createAccount (body : Option CreateAccountRequest)
  | getAccount
  | addAccountKey (body : Option AddKeyRequest)
  | deleteAccountKey
  deriving DecidableEq, Repr

-- The two `main` functions of `cmd`: one registers every handler bare, the other wraps the
-- write routes in `RequireAuth`.
inductive Routing
  | bare
  | requireAuth
  deriving DecidableEq, Repr

structure ApiRequest where
  call : Call
  request : Request
  deriving DecidableEq, Repr

namespace Handler

def protect (routing : Routing) (next : Context → Prog Response) (r : Request) : Prog Response :=
  match routing with
  | .bare => next .empty
  | .requireAuth => requireAuth next r

variable (h : Handler)

def serve (routing : Routing) (a : ApiRequest) : Prog Response :=
  let r := a.request
  match a.call with
  | .createStory body => protect routing (fun _ => h.createStory r body) r
  | .getStory => getStory r
  | .createComment body => protect routing (fun ctx => h.createComment r ctx body) r
  | .createVote body => protect routing (fun ctx => h.createVote r ctx body) r
  | .hide body => h.hide r body
  | .createChallenge body => h.createChallenge body
  | .verifyChallenge body => h.verifyChallenge body
  | .createAccount body => protect routing (fun _ => h.createAccount r body) r
  | .getAccount => getAccount r
  | .addAccountKey body => protect routing (fun _ => h.addAccountKey r body) r
  | .deleteAccountKey => protect routing (fun _ => deleteAccountKey r) r

end Handler

-- `main`: the handler built from the configuration, with `auth.NewService(store, ChallengeTTL,
-- TokenTTL)`.
def Handler.ofConfig (P : Primitives) (cfg : Config) : Handler :=
  ⟨P, cfg, ⟨cfg.challengeTTL, cfg.tokenTTL⟩⟩

end Slashclaw
