import Slashclaw.Api.Routes
import Slashclaw.Execution.Schedule
import Slashclaw.Auth.Theorems.Challenge
import Slashclaw.Execution.Theorems.Trace
import Slashclaw.Store.Theorems.DateTime
import Slashclaw.Store.Theorems.Insert

namespace Slashclaw

open Execution Relation

-- The challenge rows hold `expires_at` to the second, as they read back from its text.
def Store.ChallengesWhole (s : Store) : Prop :=
  ∀ c ∈ s.challenges, truncSecond c.expiresAt = c.expiresAt

theorem truncSecond_idem (t : Time) : truncSecond (truncSecond t) = truncSecond t := by
  unfold truncSecond
  rw [Int.mul_ediv_cancel _ (by decide)]

theorem Effect.Can.challengesWhole {s s' : Store} {e : Effect} {a : e.Answer} (h : Effect.Can s e a s')
    (hs : s.ChallengesWhole) : s'.ChallengesWhole := by
  cases he : e.createsChallenge
  · exact fun c hc => hs c ((h.challenges_sublist he).subset hc)
  · cases e <;> cases he
    obtain ⟨u, -, h⟩ := h
    rcases h.cases with ⟨_, -, rfl⟩ | ⟨b, hr, -⟩
    · exact hs
    · obtain ⟨-, -, rfl⟩ := Store.createChallenge_eq_ok.mp hr
      intro c hc
      rcases List.mem_append.mp hc with hc | hc
      · exact hs c hc
      · rw [List.mem_singleton.mp hc]
        exact truncSecond_idem _

-- What the texts of `expires_at` decide at the instant `n`: the two comparisons the queries make are
-- the comparisons of whole seconds; the lookups and the deletion of the store are those queries; a
-- deletion keeps what a lookup returns; and in every run of the server a challenge found live at `n`
-- is not past its `ExpiresAt` at `n`.
def ExpiryByText (n : Time) : Prop :=
  (∀ e, FourDigitYear e → expiresAtStr (truncSecond e) = expiresAtStr e ∧
    (datetimeNow n < expiresAtStr e ↔ n / second < e / second) ∧
    (expiresAtStr e < datetimeNow n ↔ e / second < n / second)) ∧
  (∀ (s : Store) x, ((s.getChallenge x n).isSome ↔ ∃ c ∈ s.challenges, c.challenge = x ∧ n / second < c.expiresAt / second) ∧
    ((s.getToken x n).isSome ↔ ∃ t ∈ s.tokens, t.token = x ∧ n / second < t.expiresAt / second)) ∧
  (∀ (s : Store) x, (∀ c ∈ s.challenges, FourDigitYear c.expiresAt) →
    s.getChallenge x n = s.challenges.find? fun c => c.challenge == x && decide (datetimeNow n < expiresAtStr c.expiresAt)) ∧
  (∀ (s : Store) x, (∀ t ∈ s.tokens, FourDigitYear t.expiresAt) →
    s.getToken x n = s.tokens.find? fun t => t.token == x && decide (datetimeNow n < expiresAtStr t.expiresAt)) ∧
  (∀ s : Store, (∀ t ∈ s.tokens, FourDigitYear t.expiresAt) →
    (s.deleteExpiredTokens n).tokens = s.tokens.filter fun t => !decide (expiresAtStr t.expiresAt < datetimeNow n)) ∧
  (∀ (s : Store) t, t ∈ s.tokens → t.live n → t ∈ (s.deleteExpiredTokens n).tokens) ∧
  ∀ (h : Handler) routing (s : State ApiRequest Response), Reachable (h.serve routing) s →
    ∀ x c, s.world.store.getChallenge x n = some c → ¬ n > c.expiresAt

namespace Handler

variable (h : Handler) (routing : Routing) {s : State ApiRequest Response}

theorem challengesWhole_of_reachable (hr : Reachable (h.serve routing) s) : s.world.store.ChallengesWhole :=
  have ⟨_, hr⟩ := hr
  Step.store_inv _ (fun _ _ _ _ hc hs => hc.challengesWhole hs) (fun c h => absurd h (List.not_mem_nil c)) hr

theorem getChallenge_not_expired (hr : Reachable (h.serve routing) s) {x : String} {n : Time} {c : Challenge}
    (hg : s.world.store.getChallenge x n = some c) : ¬ n > c.expiresAt := by
  have hc := List.mem_of_find?_eq_some hg
  have hl := List.find?_some hg
  simp only [Bool.and_eq_true] at hl
  exact Challenge.not_expired (h.challengesWhole_of_reachable routing hr c hc) hl.2

end Handler

-- At every instant of a four-digit year, and for every clock reading of 1970 to 2099 moved by any
-- `time.Duration`, which has one.
theorem expiresAt_text_order (n : Time) (hn : FourDigitYear n) :
    (∀ now ttl : Time, 0 ≤ now → now < 4102444800 * second → -2 ^ 63 ≤ ttl → ttl < 2 ^ 63 →
      FourDigitYear (now + ttl)) ∧ ExpiryByText n :=
  ⟨fun _ _ h₁ h₂ h₃ h₄ => fourDigitYear_add h₁ h₂ h₃ h₄,
    fun e he => ⟨expiresAtStr_truncSecond e, datetimeNow_lt_expiresAtStr he hn, expiresAtStr_lt_datetimeNow he hn⟩,
    fun s x => ⟨s.getChallenge_isSome x, s.getToken_isSome x⟩,
    fun s x hs => s.getChallenge_text x hn hs,
    fun s x hs => s.getToken_text x hn hs,
    fun s hs => s.deleteExpiredTokens_text hn hs,
    fun s _ ht hl => s.mem_deleteExpiredTokens ht hl,
    fun h routing _ hr _ _ hg => h.getChallenge_not_expired routing hr hg⟩

theorem expiresAt_text_order_epoch :
    FourDigitYear 0 ∧ (∀ now ttl : Time, 0 ≤ now → now < 4102444800 * second → -2 ^ 63 ≤ ttl → ttl < 2 ^ 63 →
      FourDigitYear (now + ttl)) ∧ ExpiryByText 0 :=
  ⟨by decide, expiresAt_text_order 0 (by decide)⟩

end Slashclaw
