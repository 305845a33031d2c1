import Slashclaw.Effect.Replay
import Slashclaw.Effect.Footprint

namespace Slashclaw

-- A statement that writes no table leaves the database as it found it.
theorem Effect.Can.eq_of_read {s s' : Store} {e : Effect} {a : e.Answer} (h : Effect.Can s e a s')
    (he : e.table = none) : s' = s := by
  cases e <;> cases he
  case uuid | randomToken => exact h.2
  case getChallenge | getToken => exact h.elim fun _ h => h.read_eq
  case getAccount | getAccountKey => exact h.map_eq
  all_goals first
    | exact h
    | exact h.read_eq

theorem replays_reads {s s' : Store} {l : List Prog.Event} (h : Replays s l s')
    (hl : ∀ ev ∈ l, ev.effect.table = none) : s' = s := by
  induction l generalizing s with
  | nil => exact h
  | cons ev l ih =>
    obtain ⟨s₁, hc, h⟩ := h
    rw [ih h fun ev' h' => hl ev' (.tail _ h'), hc.eq_of_read (hl ev (.head _))]

end Slashclaw
