import Slashclaw.Execution.Theorems.Basic
import Slashclaw.Effect.Allowed
import Slashclaw.Effect.Replay

namespace Slashclaw.Execution

open Relation

variable {Req α : Type} {handle : Req → Prog α} {s s' : State Req α}

-- Every effect of every handler is allowed by `J`, judged on the request and its own log.
def Guarded (handle : Req → Prog α) (J : Req → List Prog.Event → Effect → Prop) : Prop :=
  ∀ req, (handle req).All fun l _ => Prog.Allowed (J req) [] l

theorem traceLog_append_cons (tr₁ tr₂ : List Entry) (x : Entry) :
    traceLog (tr₁ ++ x :: tr₂) x.proc = traceLog tr₁ x.proc ++ x.event :: traceLog tr₂ x.proc := by
  simp [traceLog, List.filterMap_append]

namespace State.Wf

variable {J : Req → List Prog.Event → Effect → Prop}

-- The next effect of a request in flight is allowed, judged on what the request has done so far.
theorem allowed_next (hw : Wf handle s) (hJ : Guarded handle J) {i : Nat} {req : Req} {e : Effect}
    {k : e.Answer → Prog α} (hi : s.procs[i]? = some ⟨req, .exec e k⟩) : J req (s.log i) e := by
  have hs := (hw.steps i _ hi).snoc e.someAnswer
  simpa using ((hJ req).ongoing (Prog.allowed_prefixClosed []) hs).last

-- Every effect of the trace was allowed, judged on the effects its request performed before it.
theorem allowed_entry (hw : Wf handle s) (hJ : Guarded handle J) {tr₁ tr₂ : List Entry} {x : Entry}
    (ht : s.trace = tr₁ ++ x :: tr₂) :
    ∃ p, s.procs[x.proc]? = some p ∧ J p.req (traceLog tr₁ x.proc) x.event.effect := by
  have hx := hw.bound x (ht ▸ List.mem_append_right _ (.head _))
  refine ⟨_, List.getElem?_eq_getElem hx, ?_⟩
  have hs := hw.steps x.proc _ (List.getElem?_eq_getElem hx)
  rw [State.log, ht, traceLog_append_cons] at hs
  simpa using ((hJ _).ongoing (Prog.allowed_prefixClosed []) hs).last

-- The answer of an effect of the trace is the one its world gave at its time.
theorem entry_run (hw : Wf handle s) {x : Entry} (hx : x ∈ s.trace) {e : Effect} {a : e.Answer}
    (he : x.event = ⟨e, a⟩) : ∃ c : Choice, c.time = x.time ∧ (e.run c x.world).1 = a := by
  obtain ⟨c, hc, hev⟩ := hw.sound x hx
  rw [he] at hev
  exact ⟨c, hc, (eq_of_heq (Prog.Event.mk.inj hev).2).symm⟩

-- An event of a request's log over part of the trace, with the entry that recorded it.
theorem read_entry (hw : Wf handle s) {tr : List Entry} (htr : tr ⊆ s.trace) {i : Nat} {e : Effect}
    {a : e.Answer} (hm : ⟨e, a⟩ ∈ traceLog tr i) :
    ∃ y ∈ tr, y.proc = i ∧ y.event = ⟨e, a⟩ ∧ ∃ c : Choice, c.time = y.time ∧ (e.run c y.world).1 = a :=
  have ⟨y, hy, hp, he⟩ := mem_traceLog.mp hm
  ⟨y, hy, hp, he, hw.entry_run (htr hy) he⟩

end State.Wf

-- A step of the run is a step of the database that `Effect.Can` allows, or leaves it alone.
theorem Step.can (hs : Step handle s s') :
    (s'.world.store = s.world.store ∧ s'.trace = s.trace) ∨
      ∃ i c e req k, s.procs[i]? = some ⟨req, .exec e k⟩ ∧ s'.trace = s.trace ++ [⟨i, c.time, s.world, ⟨e, (e.run c s.world).1⟩⟩] ∧
      Effect.Can s.world.store e (e.run c s.world).1 s'.world.store := by
  cases hs with
  | spawn req => exact .inl ⟨rfl, rfl⟩
  | exec i c _ h =>
    obtain ⟨req, e, k, hi, rfl⟩ := State.exec_eq_some h
    exact .inr ⟨i, c, e, req, k, hi, rfl, Effect.can_run c s.world e⟩
  | cleanup t _ => exact .inl ⟨rfl, rfl⟩

-- A property of databases that every statement keeps holds all along a run.
theorem Step.store_inv (I : Store → Prop) (hI : ∀ st e a st', Effect.Can st e a st' → I st → I st')
    {w : World} (h₀ : I w.store) (h : ReflTransGen (Step handle) (.start w) s) : I s.world.store := by
  induction h with
  | refl => exact h₀
  | tail _ hs ih =>
    rcases hs.can with ⟨heq, -⟩ | ⟨_, _, _, _, _, _, _, hc⟩
    · exact heq ▸ ih
    · exact hI _ _ _ _ hc ih

-- Where each row of a table comes from: it was there at the start, or an effect of the trace
-- wrote it.
theorem Step.provenance {ρ : Type} (f : Store → List ρ) (Produced : Prog.Event → ρ → Prop)
    (hf : ∀ st e a st', Effect.Can st e a st' → ∀ r ∈ f st', r ∈ f st ∨ Produced ⟨e, a⟩ r) {w : World}
    (h : ReflTransGen (Step handle) (.start w) s) :
    ∀ r ∈ f s.world.store, r ∈ f w.store ∨ ∃ x ∈ s.trace, Produced x.event r := by
  induction h with
  | refl => exact fun r hr => .inl hr
  | tail _ hs ih =>
    rcases hs.can with ⟨heq, htr⟩ | ⟨_, _, _, _, _, -, htr, hc⟩
    · rw [heq, htr]
      exact ih
    · intro r hr
      rw [htr]
      rcases hf _ _ _ _ hc r hr with hr | hr
      · exact (ih r hr).imp_right fun ⟨x, hx, hp⟩ => ⟨x, List.mem_append_left _ hx, hp⟩
      · exact .inr ⟨_, List.mem_append_right _ (.head _), hr⟩

section Chain

variable {R : Entry → Store → Prop}

-- Each effect of the trace is related by `R` to the database of every later effect and to the
-- current one.
def Chain (R : Entry → Store → Prop) (s : State Req α) : Prop :=
  s.trace.Pairwise (fun y x => R y x.world.store) ∧ ∀ y ∈ s.trace, R y s.world.store

-- A relation between an effect and a database that holds of the database the effect leaves and
-- that every later statement keeps holds between each effect and every later moment of a run.
theorem Step.chain (hnew : ∀ (x : Entry) st', Effect.Can x.world.store x.event.effect x.event.answer st' → R x st')
    (hkeep : ∀ y st e a st', Effect.Can st e a st' → R y st → R y st') {w : World}
    (h : ReflTransGen (Step handle) (.start w) s) : Chain R s := by
  induction h with
  | refl => exact ⟨.nil, by simp [State.start]⟩
  | tail _ hs ih =>
    obtain ⟨hp, hc⟩ := ih
    unfold Chain
    rcases hs.can with ⟨heq, htr⟩ | ⟨i, c, e, -, -, -, htr, hcan⟩
    · rw [heq, htr]
      exact ⟨hp, hc⟩
    · rw [htr]
      refine ⟨List.pairwise_append.mpr ⟨hp, List.pairwise_singleton _ _, fun y hy x hx => ?_⟩, ?_⟩
      · rw [List.mem_singleton.mp hx]
        exact hc y hy
      · simp only [List.mem_append, List.mem_singleton]
        rintro y (hy | rfl)
        · exact hkeep _ _ _ _ _ hcan (hc y hy)
        · exact hnew _ _ hcan

theorem pairwise_rel_or {β : Type} {r : β → β → Prop} {l : List β} (hp : l.Pairwise r) {x y : β}
    (hx : x ∈ l) (hy : y ∈ l) (hne : x ≠ y) : r x y ∨ r y x := by
  induction hp with
  | nil => cases hx
  | cons hr _ ih =>
    rcases List.mem_cons.mp hx with rfl | hx' <;> rcases List.mem_cons.mp hy with rfl | hy'
    · exact absurd rfl hne
    · exact .inl (hr _ hy')
    · exact .inr (hr _ hx')
    · exact ih hx' hy'

-- Of two effects of the trace, one came first.
theorem Chain.rel_or_rel (hc : Chain R s) {x y : Entry} (hx : x ∈ s.trace) (hy : y ∈ s.trace)
    (hne : x ≠ y) : R x y.world.store ∨ R y x.world.store :=
  pairwise_rel_or hc.1 hx hy hne

end Chain

end Slashclaw.Execution
