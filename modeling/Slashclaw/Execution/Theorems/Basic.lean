import Slashclaw.Execution.State

namespace Slashclaw.Execution

variable {Req α : Type} {handle : Req → Prog α} {s s' : State Req α}

theorem SeqStep.toStep (h : SeqStep handle s s') : Step handle s s' := by
  cases h
  case spawn _ req => exact .spawn s req
  case exec i c hc h => exact .exec i c hc h
  case cleanup t ht => exact .cleanup s t ht

theorem SeqReachable.reachable (h : SeqReachable handle s) : Reachable handle s :=
  let ⟨t, h⟩ := h
  ⟨t, h.mono fun _ _ => SeqStep.toStep⟩

namespace State

theorem exec_eq_some {i : Nat} {c : Choice} (h : s.exec i c = some s') :
    ∃ req e k, s.procs[i]? = some ⟨req, .exec e k⟩ ∧
      s' = ⟨(e.run c s.world).2, s.procs.set i ⟨req, k (e.run c s.world).1⟩,
        s.trace ++ [⟨i, c.time, s.world, ⟨e, (e.run c s.world).1⟩⟩]⟩ := by
  unfold exec at h
  split at h
  · cases h
    exact ⟨_, _, _, ‹_›, rfl⟩
  · cases h

@[simp] theorem log_mk (w : World) (ps : List (Proc Req α)) (tr : List Entry) (i : Nat) :
    (State.mk w ps tr).log i = traceLog tr i := rfl

end State

theorem traceLog_append_of_ne {tr : List Entry} {x : Entry} {j : Nat} (hj : j ≠ x.proc) :
    traceLog (tr ++ [x]) j = traceLog tr j := by
  simp [traceLog, List.filterMap_append, Ne.symm hj]

theorem traceLog_append_self (tr : List Entry) (x : Entry) :
    traceLog (tr ++ [x]) x.proc = traceLog tr x.proc ++ [x.event] := by
  simp [traceLog, List.filterMap_append]

theorem mem_traceLog {tr : List Entry} {i : Nat} {ev : Prog.Event} :
    ev ∈ traceLog tr i ↔ ∃ x ∈ tr, x.proc = i ∧ x.event = ev := by
  simp [traceLog]

namespace State

-- Every request's log is a path of its handler, ending in what remains of it; the trace only
-- names requests that have arrived; every answer in it is the one the world gave.
structure Wf (handle : Req → Prog α) (s : State Req α) : Prop where
  steps : ∀ i p, s.procs[i]? = some p → Prog.Steps (handle p.req) (s.log i) p.prog
  bound : ∀ x ∈ s.trace, x.proc < s.procs.length
  sound : ∀ x ∈ s.trace, ∃ c : Choice, c.time = x.time ∧
    x.event = ⟨x.event.effect, (x.event.effect.run c x.world).1⟩

theorem wf_start (w : World) : Wf handle (start w : State Req α) :=
  ⟨fun _ _ h => by simp [start] at h, fun _ h => by simp [start] at h,
    fun _ h => by simp [start] at h⟩

theorem log_eq_nil_of_bound (hb : ∀ x ∈ s.trace, x.proc < s.procs.length) :
    traceLog s.trace s.procs.length = [] := by
  simp only [traceLog, List.filterMap_eq_nil_iff]
  intro x hx
  simp [Nat.ne_of_lt (hb x hx)]

end State

open State in
theorem Step.wf (hs : Step handle s s') (hw : Wf handle s) : Wf handle s' := by
  cases hs with
  | spawn req =>
    refine ⟨fun i p hp => ?_, fun p hp => ?_, hw.sound⟩
    · simp only [State.spawn, List.getElem?_append] at hp
      split at hp
      · exact hw.steps i p hp
      · have hi : i = s.procs.length := by
          have := (List.getElem?_eq_some_iff.mp hp).1
          simp at this; omega
        subst hi
        simp at hp; subst hp
        simpa [State.spawn, log_eq_nil_of_bound hw.bound] using Prog.Steps.refl (handle req)
    · exact Nat.lt_of_lt_of_le (hw.bound p hp) (by simp [State.spawn])
  | exec i c hc h =>
    obtain ⟨req, e, k, hi, rfl⟩ := exec_eq_some h
    refine ⟨fun j p hp => ?_, fun x hx => ?_, fun x hx => ?_⟩
    · by_cases hij : j = i
      · subst hij
        rw [List.getElem?_set_self (List.getElem?_eq_some_iff.mp hi).1] at hp
        cases hp
        rw [log_mk, traceLog_append_self]
        exact (hw.steps j _ hi).snoc _
      · rw [List.getElem?_set_ne (Ne.symm hij)] at hp
        rw [log_mk, traceLog_append_of_ne hij]
        exact hw.steps j p hp
    · simp only [List.mem_append, List.mem_singleton] at hx
      rcases hx with hx | rfl
      · simpa using hw.bound x hx
      · simpa using (List.getElem?_eq_some_iff.mp hi).1
    · simp only [List.mem_append, List.mem_singleton] at hx
      rcases hx with hx | rfl
      · exact hw.sound x hx
      · exact ⟨c, rfl, rfl⟩
  | cleanup t ht => exact ⟨hw.1, hw.2, hw.3⟩

-- An invariant: holds at the start and is kept by every step of a well-formed state, so it
-- holds all along a run.
theorem Step.run_induction {P : State Req α → Prop} {w : World}
    (h₀ : P (.start w)) (hs : ∀ s s', State.Wf handle s → Step handle s s' → P s → P s')
    (h : Relation.ReflTransGen (Step handle) (.start w) s) : State.Wf handle s ∧ P s := by
  induction h with
  | refl => exact ⟨State.wf_start w, h₀⟩
  | tail _ h₂ ih => exact ⟨h₂.wf ih.1, hs _ _ ih.1 h₂ ih.2⟩

theorem Reachable.induction {P : State Req α → Prop} (h₀ : ∀ t, P (.init t))
    (hs : ∀ s s', State.Wf handle s → Step handle s s' → P s → P s')
    (h : Reachable handle s) : P s :=
  let ⟨t, h⟩ := h
  (Step.run_induction (h₀ t) hs h).2

theorem Reachable.wf (h : Reachable handle s) : State.Wf handle s :=
  let ⟨_, h⟩ := h
  (Step.run_induction (P := fun _ => True) trivial (fun _ _ _ _ _ => trivial) h).1

end Slashclaw.Execution
