import Slashclaw.Api.Routes
import Slashclaw.Execution.Schedule
import Slashclaw.RateLimit.Theorems.Window
import Mathlib.Data.Nat.Digits

namespace Slashclaw

open Execution Relation

section Decimal

-- `Nat.toDigitsCore` only puts digits in front of its accumulator.
theorem length_le_toDigitsCore (b : Nat) : ∀ (f n : Nat) (ds : List Char),
    ds.length ≤ (Nat.toDigitsCore b f n ds).length
  | 0, _, _ => le_rfl
  | f + 1, n, ds => by
    simp only [Nat.toDigitsCore]
    split
    · exact Nat.le_succ _
    · exact (Nat.le_succ _).trans (length_le_toDigitsCore b f (n / b) (_ :: ds))

theorem toDigitsCore_succ_length (b f n : Nat) (ds : List Char) :
    ds.length + 1 ≤ (Nat.toDigitsCore b (f + 1) n ds).length := by
  simp only [Nat.toDigitsCore]
  split
  · exact le_rfl
  · exact length_le_toDigitsCore b f (n / b) (_ :: ds)

theorem one_le_toString_length (n : Nat) : 1 ≤ (toString n).length :=
  toDigitsCore_succ_length 10 n n []

-- A number of two digits or more is written with two characters or more.
theorem two_le_toString_length {n : Nat} (h : 10 ≤ n) : 2 ≤ (toString n).length := by
  obtain ⟨m, rfl⟩ : ∃ m, n = m + 1 := ⟨n - 1, by omega⟩
  show 2 ≤ (Nat.toDigitsCore 10 (m + 1 + 1) (m + 1) []).length
  rw [Nat.toDigitsCore, if_neg (by omega)]
  exact toDigitsCore_succ_length 10 m ((m + 1) / 10) [_]

end Decimal

-- `string(rune(x))` is always one character.
theorem runeString_length (x : Int) : (runeString x).length = 1 := by
  simp only [runeString]
  split <;> rfl

-- The `Retry-After` header of a 429 is never the decimal rendering of the seconds it carries:
-- one character against two or more, or against the digit of the same value.
theorem runeString_ne_toString (x : Int) : runeString x ≠ toString x := by
  intro h
  have hl := congrArg String.length h
  rw [runeString_length] at hl
  match x, h, hl with
  | .negSucc n, _, hl =>
    have : 2 ≤ ("-" ++ toString (n + 1)).length := by
      rw [String.length_append]
      exact Nat.add_le_add_left (one_le_toString_length _) 1
    exact absurd hl (by show 1 ≠ ("-" ++ toString (n + 1)).length; omega)
  | .ofNat n, h, hl =>
    if hn : 10 ≤ n then
      exact absurd hl (by show 1 ≠ (toString n).length; have := two_le_toString_length hn; omega)
    else
      have hsmall : ∀ n < 10, runeString (Int.ofNat n) ≠ toString (Int.ofNat n) := by decide
      exact hsmall n (by omega) h

theorem writeRateLimited_retryAfter (r : Int) : (writeRateLimited r).retryAfter ≠ some (toString r) :=
  fun h => runeString_ne_toString r (Option.some.inj h)

namespace Handler

-- Two story requests from one address under two `X-Agent-Id` values, with one story allowed per
-- window: both pass the limiter (each then fails on its body), since each pair of address and
-- agent has a bucket of its own; a limiter keyed by the address alone rejects the second.
theorem createStory_agents_bypass :
    let h : Handler := Handler.ofConfig .plain { Config.load with storyRateLimit := 1 }
    let s := (State.init 0).run (h.serve .bare) false
      [.spawn ⟨.createStory none, .ofHeaders "" "a"⟩, .exec 0 ⟨second, false, "x", by decide⟩,
        .spawn ⟨.createStory none, .ofHeaders "" "b"⟩, .exec 1 ⟨second, false, "x", by decide⟩]
    ReflTransGen (Step (h.serve .bare)) (.init 0) s ∧
      getClientIP (.ofHeaders "" "a") = getClientIP (.ofHeaders "" "b") ∧
      s.procs.map (·.prog.result) = [some (writeError 400 "invalid JSON"), some (writeError 400 "invalid JSON")] ∧
      MemoryLimiter.new.run [(second, .allow "story:1.2.3.4" 1 (3600 * second)),
        (second, .allow "story:1.2.3.4" 1 (3600 * second))] = [.allowed true, .allowed false] := by
  intro h s
  exact ⟨State.run_steps _ _ _, rfl, by decide, by decide⟩

-- A second story request from the same agent in the window is rejected with 429, the body
-- carrying 3600 seconds and the header the single character U+0E10.
theorem createStory_retryAfter_rune :
    let h : Handler := Handler.ofConfig .plain { Config.load with storyRateLimit := 1 }
    let s := (State.init 0).run (h.serve .bare) false
      [.spawn ⟨.createStory none, .ofHeaders "" "a"⟩, .exec 0 ⟨second, false, "x", by decide⟩,
        .spawn ⟨.createStory none, .ofHeaders "" "a"⟩, .exec 1 ⟨second, false, "x", by decide⟩,
        .exec 1 ⟨second, false, "x", by decide⟩]
    ReflTransGen (Step (h.serve .bare)) (.init 0) s ∧
      s.procs.map (·.prog.result) = [some (writeError 400 "invalid JSON"), some (writeRateLimited 3600)] ∧
      (writeRateLimited 3600).retryAfter = some "\u0E10" ∧ (writeRateLimited 3600).retryAfter ≠ some "3600" := by
  intro h s
  exact ⟨State.run_steps _ _ _, by decide, by decide, writeRateLimited_retryAfter 3600⟩

end Handler

end Slashclaw
