import Slashclaw.Store.Rows
import Slashclaw.Store.SQLite
import Slashclaw.Store.Listing
import Slashclaw.Store.DateTime
import Slashclaw.Store.Theorems.DateTime
import Slashclaw.Store.Theorems.CommentTree
import Slashclaw.Store.Theorems.Pages
import Slashclaw.Store.Theorems.Insert
import Slashclaw.Store.Theorems.Keys
import Slashclaw.Store.Theorems.Content
import Slashclaw.RateLimit.Memory
import Slashclaw.RateLimit.Theorems.Window
import Slashclaw.Effect.Prog
import Slashclaw.Effect.Replay
import Slashclaw.Effect.Footprint
import Slashclaw.Effect.Allowed
import Slashclaw.Effect.Failure
import Slashclaw.Effect.Reads
import Slashclaw.Auth.Verify
import Slashclaw.Auth.Service
import Slashclaw.Api.Handler
import Slashclaw.Api.Content
import Slashclaw.Api.Accounts
import Slashclaw.Api.Routes
import Slashclaw.Api.Params
import Slashclaw.Execution.State
import Slashclaw.Execution.Theorems.Basic
import Slashclaw.Execution.Theorems.Sequential
import Slashclaw.Execution.Theorems.Timed
import Slashclaw.Execution.Theorems.Trace
import Slashclaw.Execution.Schedule
import Slashclaw.Auth.Theorems.Challenge
import Slashclaw.Auth.Theorems.Token
import Slashclaw.Api.Theorems.Footprint
import Slashclaw.Api.Theorems.Keys
import Slashclaw.Api.Theorems.KeyOrigin
import Slashclaw.Api.Theorems.Registration
import Slashclaw.Api.Theorems.Status
import Slashclaw.Api.Theorems.RateLimit
import Slashclaw.Api.Theorems.Comments
import Slashclaw.Api.Theorems.Expiry
import Slashclaw.Api.Theorems.Revocation
import Slashclaw.Api.Theorems.CreateStory
import Slashclaw.Api.Theorems.ErrorAnswers
import Slashclaw.Api.Theorems.Votes
import Slashclaw.Api.Theorems.Tallies
import Slashclaw.Api.Theorems.References
import Slashclaw.Api.Theorems.Visibility
import Slashclaw.Api.Theorems.Params
import Slashclaw.Api.Theorems.Listing
