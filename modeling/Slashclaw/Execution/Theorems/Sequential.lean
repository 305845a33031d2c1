import Slashclaw.Execution.Theorems.Basic
import Slashclaw.Effect.Replay

namespace Slashclaw.Execution

open Relation

variable {Req α : Type} {handle : Req → Prog α} {s s' : State Req α}

-- The requests that have answered, with what they answered (`none` after a panic).
def results (ps : List (Proc Req α)) : List (Req × Option α) :=
  ps.map fun p => (p.req, p.prog.result)

section Hoare

variable (handle) (R : Req → Prop) (Bad : Prog.Event → Prop)
  (Inv : Store → List (Req × Option α) → Prop)

-- While requests are served one at a time, every request but the last has answered, and the last
-- one, run from here on, ends in a database satisfying `Inv` with it added to the history.
def SeqInv (s : State Req α) : Prop :=
  (∀ x ∈ s.trace, ¬Bad x.event) → (∀ p ∈ s.procs, R p.req) →
    (s.procs = [] ∧ Inv s.world.store []) ∨
    ∃ ps p, s.procs = ps ++ [p] ∧ (∀ q ∈ ps, q.prog.Done) ∧
      p.prog.All fun l r => ∀ st, Replays s.world.store l st → (∀ ev ∈ l, ¬Bad ev) →
        Inv st (results ps ++ [(p.req, r)])

theorem done_all {p : Prog α} {Q : List Prog.Event → Option α → Prop} (hd : p.Done) (h : p.All Q) :
    Q [] p.result := by
  cases p with
  | pure a => exact h
  | exec e k => exact hd.elim
  | crash => exact h

theorem results_append (ps : List (Proc Req α)) (p : Proc Req α) :
    results (ps ++ [p]) = results ps ++ [(p.req, p.prog.result)] := by
  simp [results]

variable {handle R Bad Inv}

theorem SeqInv.quiescent (hi : SeqInv R Bad Inv s) (hb : ∀ x ∈ s.trace, ¬Bad x.event)
    (hR : ∀ p ∈ s.procs, R p.req) (hq : s.Quiescent) : Inv s.world.store (results s.procs) := by
  rcases hi hb hR with ⟨h, hI⟩ | ⟨ps, p, h, -, hw⟩
  · simpa [h, results] using hI
  · rw [h, results_append]
    exact done_all (hq p (by simp [h])) hw _ rfl (by simp)

theorem map_req_set {ps : List (Proc Req α)} {i : Nat} {p : Proc Req α} (q : Proc Req α)
    (h : ps[i]? = some p) (hq : q.req = p.req) : (ps.set i q).map Proc.req = ps.map Proc.req := by
  apply List.ext_getElem?
  intro n
  simp only [List.getElem?_map, List.getElem?_set]
  split_ifs with h₁ h₂
  · subst h₁; simp [h, hq]
  · exact absurd (List.getElem?_eq_some_iff.mp h).1 h₂
  · rfl

-- Served one at a time, the request that takes a step is the last one received.
theorem exec_last {ps : List (Proc Req α)} {p : Proc Req α} {i : Nat} {req : Req} {e : Effect}
    {k : e.Answer → Prog α} (hd : ∀ q ∈ ps, q.prog.Done) (hi : (ps ++ [p])[i]? = some ⟨req, .exec e k⟩) :
    i = ps.length ∧ p = ⟨req, .exec e k⟩ := by
  rcases Nat.lt_or_ge i ps.length with hlt | hge
  · rw [List.getElem?_append_left hlt] at hi
    exact absurd (hd _ (List.getElem?_mem hi)) id
  · obtain rfl : i = ps.length := by
      have := (List.getElem?_eq_some_iff.mp hi).1
      simp at this; omega
    simp only [List.getElem?_append_right (Nat.le_refl _), Nat.sub_self, List.getElem?_cons_zero,
      Option.some.injEq] at hi
    exact ⟨rfl, hi⟩

-- A step leaves the requests received as they were.
theorem forall_req_of_set {ps : List (Proc Req α)} {i : Nat} {p : Proc Req α} (q : Proc Req α)
    (h : ps[i]? = some p) (hq : q.req = p.req) (hR : ∀ x ∈ ps.set i q, R x.req) : ∀ x ∈ ps, R x.req := by
  intro x hx
  have : x.req ∈ (ps.set i q).map Proc.req := by
    rw [map_req_set q h hq]; exact List.mem_map_of_mem _ hx
  obtain ⟨y, hy, he⟩ := List.mem_map.mp this
  exact he ▸ hR y hy

-- A request's handler, run alone from any database satisfying `Inv`, keeps it.
def Preserves (handle : Req → Prog α) (R : Req → Prop) (Bad : Prog.Event → Prop)
    (Inv : Store → List (Req × Option α) → Prop) : Prop :=
  ∀ req st hist, R req → Inv st hist →
    (handle req).All fun l r => ∀ st', Replays st l st' → (∀ ev ∈ l, ¬Bad ev) → Inv st' (hist ++ [(req, r)])

theorem SeqStep.seqInv (hp : Preserves handle R Bad Inv) (hs : SeqStep handle s s')
    (hi : SeqInv R Bad Inv s) : SeqInv R Bad Inv s' := by
  cases hs with
  | spawn hq req =>
    intro hb hR
    simp only [State.spawn, List.mem_append, List.mem_singleton] at hR
    exact .inr ⟨s.procs, _, rfl, hq, hp req _ _ (hR _ (.inr rfl))
      (hi.quiescent hb (fun p hp => hR p (.inl hp)) hq)⟩
  | exec i c hc h =>
    obtain ⟨req, e, k, hi', rfl⟩ := State.exec_eq_some h
    intro hb hR
    simp only [List.mem_append, List.mem_singleton] at hb
    rcases hi (fun x hx => hb x (.inl hx)) (forall_req_of_set ⟨req, k (e.run c s.world).1⟩ hi' rfl hR) with ⟨h, -⟩ | ⟨ps, p, h, hd, hw⟩
    · simp [h] at hi'
    · rw [h] at hi' ⊢
      obtain ⟨rfl, rfl⟩ := exec_last hd hi'
      refine .inr ⟨ps, ⟨req, k (e.run c s.world).1⟩, by simp, hd, ?_⟩
      exact (hw (e.run c s.world).1).imp fun l r hq st hr hl =>
        hq st ⟨_, Effect.can_run c s.world e, hr⟩ (by simpa [forall_eq_or_imp] using ⟨hb _ (.inr rfl), hl⟩)
  | cleanup t ht => exact hi

theorem SeqStep.seqInv_run {w : World} (h₀ : Inv w.store []) (hp : Preserves handle R Bad Inv)
    (h : ReflTransGen (SeqStep handle) (.start w) s) : SeqInv R Bad Inv s := by
  induction h with
  | refl => exact fun _ _ => .inl ⟨rfl, h₀⟩
  | tail _ hs ih => exact hs.seqInv hp ih

-- Serving requests one at a time, an invariant of the database and of the answers so far that
-- every handler keeps holds whenever no request is in flight.
theorem SeqStep.hoare {w : World} (h₀ : Inv w.store []) (hp : Preserves handle R Bad Inv)
    (h : ReflTransGen (SeqStep handle) (.start w) s) (hR : ∀ p ∈ s.procs, R p.req)
    (hb : ∀ x ∈ s.trace, ¬Bad x.event) (hq : s.Quiescent) : Inv s.world.store (results s.procs) :=
  (SeqStep.seqInv_run h₀ hp h).quiescent hb hR hq

end Hoare

end Slashclaw.Execution
