import Slashclaw.Execution.Theorems.Sequential
import Slashclaw.Effect.Footprint

namespace Slashclaw

-- `ReplaysAt t s l s'`: from the database `s` at the clock reading `t`, the effects of the log `l`
-- may have answered as they did, each at a reading no earlier than the one before, and left `s'`.
-- Of the limiter nothing is kept: any state of it may answer.
def ReplaysAt : Time → Store → List Prog.Event → Store → Prop
  | _, s, [], s' => s' = s
  | t, s, ⟨e, a⟩ :: l, s' => ∃ (c : Choice) (lim : MemoryLimiter), t ≤ c.time ∧
      (e.run c ⟨s, lim, c.time⟩).1 = a ∧ ReplaysAt c.time (e.run c ⟨s, lim, c.time⟩).2.store l s'

@[simp] theorem replaysAt_nil {t : Time} {s s' : Store} : ReplaysAt t s [] s' ↔ s' = s := Iff.rfl

@[simp] theorem replaysAt_cons {t : Time} {s s' : Store} {e : Effect} {a : e.Answer} {l : List Prog.Event} :
    ReplaysAt t s (⟨e, a⟩ :: l) s' ↔ ∃ (c : Choice) (lim : MemoryLimiter), t ≤ c.time ∧
      (e.run c ⟨s, lim, c.time⟩).1 = a ∧ ReplaysAt c.time (e.run c ⟨s, lim, c.time⟩).2.store l s' := Iff.rfl

theorem World.exec_clock {β : Type} (w : World) (fail : Bool) (f : Store → Except DBError (β × Store)) :
    (w.exec fail f).2.clock = w.clock := by
  unfold World.exec
  split
  · rfl
  · split <;> rfl

-- Every statement runs at the clock reading of its step.
@[simp] theorem Effect.run_clock (c : Choice) (w : World) (e : Effect) : (e.run c w).2.clock = c.time := by
  cases e
  all_goals first
    | rfl
    | exact World.exec_clock _ _ _

namespace ReplaysAt

variable {t t₀ : Time} {s s' : Store} {l : List Prog.Event}

theorem mono (h : ReplaysAt t s l s') (ht : t₀ ≤ t) : ReplaysAt t₀ s l s' := by
  match l, h with
  | [], h => exact h
  | ⟨_, _⟩ :: _, ⟨c, lim, hc, ha, hr⟩ => exact ⟨c, lim, Int.le_trans ht hc, ha, hr⟩

theorem replays (h : ReplaysAt t s l s') : Replays s l s' := by
  induction l generalizing t s with
  | nil => exact h
  | cons ev l ih =>
    obtain ⟨e, a⟩ := ev
    obtain ⟨c, lim, -, rfl, hr⟩ := h
    exact ⟨_, Effect.can_run c _ e, ih hr⟩

theorem append_elim {l' : List Prog.Event} (h : ReplaysAt t s (l ++ l') s') :
    ∃ t', t ≤ t' ∧ ∃ s₁, ReplaysAt t s l s₁ ∧ ReplaysAt t' s₁ l' s' := by
  induction l generalizing t s with
  | nil => exact ⟨t, Int.le_refl t, s, rfl, h⟩
  | cons ev l ih =>
    obtain ⟨e, a⟩ := ev
    obtain ⟨c, lim, hc, ha, hr⟩ := h
    obtain ⟨t', ht', s₁, h₁, h₂⟩ := ih hr
    exact ⟨t', Int.le_trans hc ht', s₁, ⟨c, lim, hc, ha, h₁⟩, h₂⟩

end ReplaysAt

-- A log that keeps the database property `I`, from any database and any clock reading.
def KeepsAt (I : Store → Prop) (l : List Prog.Event) : Prop :=
  ∀ t st st', ReplaysAt t st l st' → I st → I st'

namespace KeepsAt

variable {I : Store → Prop} {P : Effect → Prop} {l : List Prog.Event}

theorem nil : KeepsAt I [] := fun _ _ _ h hs => (show _ = _ from h) ▸ hs

-- A log of statements each of which keeps `I`.
theorem of_forall (hI : ∀ st e a st', Effect.Can st e a st' → P e → I st → I st')
    (hl : ∀ ev ∈ l, P ev.effect) : KeepsAt I l := by
  intro t st st' h hs
  induction l generalizing t st with
  | nil => exact (show _ = _ from h) ▸ hs
  | cons ev l ih =>
    obtain ⟨e, a⟩ := ev
    obtain ⟨c, lim, -, rfl, h⟩ := h
    exact ih (fun ev h' => hl ev (.tail _ h')) _ _ h (hI _ _ _ _ (Effect.can_run c _ e) (hl _ (.head _)) hs)

theorem append {l' : List Prog.Event} (h : KeepsAt I l) (h' : KeepsAt I l') : KeepsAt I (l ++ l') :=
  fun t st st' hr hs =>
    have ⟨t', _, s₁, h₁, h₂⟩ := hr.append_elim
    h' t' s₁ st' h₂ (h t st s₁ h₁ hs)

end KeepsAt

-- A program whose statements keep `I`, then programs each run of which keeps it.
theorem Prog.all_keepsAt_bind {α β : Type} {I : Store → Prop} {P : Effect → Prop}
    (hI : ∀ st e a st', Effect.Can st e a st' → P e → I st → I st') {p : Prog β} {f : β → Prog α}
    (hp : Prog.Within P p) (hf : ∀ b, (f b).All fun l _ => KeepsAt I l) : (p >>= f).All fun l _ => KeepsAt I l :=
  Prog.all_bind.mpr <| hp.all.imp fun l r hl => by
    have hk := KeepsAt.of_forall hI hl
    cases r with
    | none => exact hk
    | some b => exact (hf b).imp fun _ _ h' => hk.append h'

namespace Execution

open Relation

variable {Req α : Type} {handle : Req → Prog α} {s s' : State Req α}

section Hoare

variable (R : Req → Prop) (Bad : Prog.Event → Prop) (Inv : Store → List (Req × Option α) → Prop)

-- `SeqInv` with the clock: what remains of the last request is replayed from the current reading.
def SeqInvAt (s : State Req α) : Prop :=
  (∀ x ∈ s.trace, ¬Bad x.event) → (∀ p ∈ s.procs, R p.req) →
    (s.procs = [] ∧ Inv s.world.store []) ∨
    ∃ ps p, s.procs = ps ++ [p] ∧ (∀ q ∈ ps, q.prog.Done) ∧
      p.prog.All fun l r => ∀ st, ReplaysAt s.world.clock s.world.store l st → (∀ ev ∈ l, ¬Bad ev) →
        Inv st (results ps ++ [(p.req, r)])

-- A request's handler, run alone from any database satisfying `Inv` and from any clock reading,
-- keeps it.
def PreservesAt (handle : Req → Prog α) : Prop :=
  ∀ req st hist t, R req → Inv st hist →
    (handle req).All fun l r => ∀ st', ReplaysAt t st l st' → (∀ ev ∈ l, ¬Bad ev) →
      Inv st' (hist ++ [(req, r)])

variable {R Bad Inv}

theorem SeqInvAt.quiescent (hi : SeqInvAt R Bad Inv s) (hb : ∀ x ∈ s.trace, ¬Bad x.event)
    (hR : ∀ p ∈ s.procs, R p.req) (hq : s.Quiescent) : Inv s.world.store (results s.procs) := by
  rcases hi hb hR with ⟨h, hI⟩ | ⟨ps, p, h, -, hw⟩
  · simpa [h, results] using hI
  · rw [h, results_append]
    exact done_all (hq p (by simp [h])) hw _ rfl (by simp)

theorem SeqStep.seqInvAt (hp : PreservesAt R Bad Inv handle) (hs : SeqStep handle s s')
    (hi : SeqInvAt R Bad Inv s) : SeqInvAt R Bad Inv s' := by
  cases hs with
  | spawn hq req =>
    intro hb hR
    simp only [State.spawn, List.mem_append, List.mem_singleton] at hR
    exact .inr ⟨s.procs, _, rfl, hq, hp req _ _ _ (hR _ (.inr rfl))
      (hi.quiescent hb (fun p hp => hR p (.inl hp)) hq)⟩
  | exec i c hc h =>
    obtain ⟨req, e, k, hi', rfl⟩ := State.exec_eq_some h
    intro hb hR
    simp only [List.mem_append, List.mem_singleton] at hb
    rcases hi (fun x hx => hb x (.inl hx)) (forall_req_of_set ⟨req, k (e.run c s.world).1⟩ hi' rfl hR) with
      ⟨h, -⟩ | ⟨ps, p, h, hd, hw⟩
    · simp [h] at hi'
    · rw [h] at hi' ⊢
      obtain ⟨rfl, rfl⟩ := exec_last hd hi'
      refine .inr ⟨ps, ⟨req, k (e.run c s.world).1⟩, by simp, hd, ?_⟩
      refine (hw (e.run c s.world).1).imp fun l r hq st hr hl => hq st ⟨c, s.world.limiter, hc, rfl, ?_⟩
        (by simpa [forall_eq_or_imp] using ⟨hb _ (.inr rfl), hl⟩)
      simpa using hr
  | cleanup t ht =>
    intro hb hR
    rcases hi hb hR with h | ⟨ps, p, h, hd, hw⟩
    · exact .inl h
    · exact .inr ⟨ps, p, h, hd, hw.imp fun l r hq st hr => hq st (hr.mono ht)⟩

theorem SeqStep.seqInvAt_run {w : World} (h₀ : Inv w.store []) (hp : PreservesAt R Bad Inv handle)
    (h : ReflTransGen (SeqStep handle) (.start w) s) : SeqInvAt R Bad Inv s := by
  induction h with
  | refl => exact fun _ _ => .inl ⟨rfl, h₀⟩
  | tail _ hs ih => exact hs.seqInvAt hp ih

-- `SeqStep.hoare` for handlers whose invariant rests on the clock never going back.
theorem SeqStep.hoareAt {w : World} (h₀ : Inv w.store []) (hp : PreservesAt R Bad Inv handle)
    (h : ReflTransGen (SeqStep handle) (.start w) s) (hR : ∀ p ∈ s.procs, R p.req)
    (hb : ∀ x ∈ s.trace, ¬Bad x.event) (hq : s.Quiescent) : Inv s.world.store (results s.procs) :=
  (SeqStep.seqInvAt_run h₀ hp h).quiescent hb hR hq

end Hoare

end Execution

end Slashclaw
