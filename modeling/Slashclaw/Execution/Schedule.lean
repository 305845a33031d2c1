import Slashclaw.Execution.Theorems.Basic

namespace Slashclaw.Execution

open Relation

variable {Req α : Type} (handle : Req → Prog α)

-- A run written down step by step: what arrives, which request moves with which answers, and
-- the cleanup ticks.
inductive Action (Req : Type)
  | spawn (req : Req)
  | exec (i : Nat) (c : Choice)
  | cleanup (t : Time)

namespace State

-- One scheduled step, `none` when it cannot be taken; with `seq` a request arrives only once
-- every earlier one has answered.
def act (seq : Bool) (s : State Req α) : Action Req → Option (State Req α)
  | .spawn req => if seq ∧ ¬s.procs.all (decide ·.prog.Done) then none else some (s.spawn handle req)
  | .exec i c => if s.world.clock ≤ c.time then s.exec i c else none
  | .cleanup t => if s.world.clock ≤ t then some (s.cleanup t) else none

-- The schedule played from `s`, skipping the steps that cannot be taken.
def run (seq : Bool) (s : State Req α) : List (Action Req) → State Req α
  | [] => s
  | a :: as => ((s.act handle seq a).getD s).run seq as

variable {handle} {s s' : State Req α}

theorem act_step {seq : Bool} {a : Action Req} (h : s.act handle seq a = some s') : Step handle s s' := by
  cases a with
  | spawn req =>
    simp only [act] at h
    split at h <;> cases h
    exact .spawn s req
  | exec i c =>
    simp only [act] at h
    split at h
    · exact .exec i c ‹_› h
    · cases h
  | cleanup t =>
    simp only [act] at h
    split at h <;> cases h
    exact .cleanup s t ‹_›

theorem act_seqStep {a : Action Req} (h : s.act handle true a = some s') : SeqStep handle s s' := by
  cases a with
  | spawn req =>
    simp only [act] at h
    split at h <;> cases h
    rename_i hq
    simp only [true_and, not_not, List.all_eq_true, decide_eq_true_eq] at hq
    exact .spawn hq req
  | exec i c =>
    simp only [act] at h
    split at h
    · exact .exec i c ‹_› h
    · cases h
  | cleanup t =>
    simp only [act] at h
    split at h <;> cases h
    exact .cleanup s t ‹_›

theorem run_steps (seq : Bool) (s : State Req α) (as : List (Action Req)) :
    ReflTransGen (Step handle) s (s.run handle seq as) := by
  induction as generalizing s with
  | nil => exact .refl
  | cons a as ih =>
    cases h : s.act handle seq a with
    | none => simpa [run, h] using ih s
    | some s' => simpa [run, h] using ReflTransGen.head (act_step h) (ih s')

theorem run_seqSteps (s : State Req α) (as : List (Action Req)) :
    ReflTransGen (SeqStep handle) s (s.run handle true as) := by
  induction as generalizing s with
  | nil => exact .refl
  | cons a as ih =>
    cases h : s.act handle true a with
    | none => simpa [run, h] using ih s
    | some s' => simpa [run, h] using ReflTransGen.head (act_seqStep h) (ih s')

end State

end Slashclaw.Execution
