import Slashclaw.RateLimit.Memory
import Mathlib.Data.List.Sort

namespace Slashclaw

namespace MemoryLimiter

-- A call of the `Limiter` interface, or a tick of `StartCleanup`. `Remaining` takes a window it
-- does not read, so the model leaves it out.
inductive Call
  | allow (key : String) (limit : Int) (window : Duration)
  | remaining (key : String) (limit : Int)
  | retryAfter (key : String)
  | cleanup
  deriving DecidableEq, Repr

inductive Answer
  | allowed (ok : Bool)
  | remaining (n : Int)
  | retryAfter (d : Duration)
  | cleaned
  deriving DecidableEq, Repr

def Call.key? : Call → Option String
  | .allow key .. | .remaining key _ | .retryAfter key => some key
  | .cleanup => none

-- One call, made at the clock reading `now`; the mutex makes it atomic.
def call (l : MemoryLimiter) (now : Time) : Call → Answer × MemoryLimiter
  | .allow key limit window => ((.allowed (l.allow key now limit window).1), (l.allow key now limit window).2)
  | .remaining key limit => (.remaining (l.remaining key now limit), l)
  | .retryAfter key => (.retryAfter (l.retryAfter key now), l)
  | .cleanup => (.cleaned, l.cleanup now)

-- The answers to a run of timed calls.
def run (l : MemoryLimiter) : List (Time × Call) → List Answer
  | [] => []
  | (t, c) :: cs => (l.call t c).1 :: (l.call t c).2.run cs

-- The answers of a run to the calls on `key`, in order.
def answersOn (key : String) (as : List Answer) (cs : List (Time × Call)) : List Answer :=
  (as.zip cs).filterMap fun (a, c) => if c.2.key? = some key then some a else none

def onKey (key : String) (c : Time × Call) : Bool :=
  c.2.key? = some key

-- A bucket that is absent or whose window has passed at `now`: every method treats the two alike.
def Dead (now : Time) (o : Option Bucket) : Prop :=
  ∀ b, o = some b → now > b.resetTime

-- Two buckets of one key that no call from `now` on can tell apart.
def Agree (now : Time) (o o' : Option Bucket) : Prop :=
  o = o' ∨ (Dead now o ∧ Dead now o')

@[simp] theorem agree_refl (now : Time) (o : Option Bucket) : Agree now o o :=
  .inl rfl

theorem Dead.mono {t t' : Time} {o : Option Bucket} (h : Dead t o) (ht : t ≤ t') : Dead t' o :=
  fun b hb => lt_of_lt_of_le (h b hb) ht

theorem Agree.trans {t : Time} {o₁ o₂ o₃ : Option Bucket} (h₁ : Agree t o₁ o₂) (h₂ : Agree t o₂ o₃) :
    Agree t o₁ o₃ := by
  rcases h₁ with rfl | ⟨d₁, d₂⟩ <;> rcases h₂ with rfl | ⟨d₂', d₃⟩
  · exact .inl rfl
  · exact .inr ⟨d₂', d₃⟩
  · exact .inr ⟨d₁, d₂⟩
  · exact .inr ⟨d₁, d₃⟩

theorem Agree.mono {t t' : Time} {o o' : Option Bucket} (h : Agree t o o') (ht : t ≤ t') : Agree t' o o' :=
  h.imp_right fun ⟨h₁, h₂⟩ => ⟨h₁.mono ht, h₂.mono ht⟩

@[simp] theorem set_buckets (l : MemoryLimiter) (key k : String) (b : Bucket) :
    (l.set key b).buckets k = if k = key then some b else l.buckets k :=
  rfl

variable {l l' : MemoryLimiter} {now : Time} {key : String}

-- What each method does to the bucket of another key: nothing.
theorem call_buckets_ne {c : Call} (hc : c.key? ≠ some key) (hcl : c ≠ .cleanup) :
    (l.call now c).2.buckets key = l.buckets key := by
  cases c with
  | allow k limit window =>
    have hk : key ≠ k := fun h => hc (h ▸ rfl)
    simp only [call, allow]
    split
    · split_ifs <;> simp [hk]
    · simp [hk]
  | remaining => rfl
  | retryAfter => rfl
  | cleanup => exact absurd rfl hcl

theorem cleanup_agree : Agree now ((l.cleanup now).buckets key) (l.buckets key) := by
  simp only [cleanup]
  split
  · next b hb =>
    split_ifs with h
    · refine .inr ⟨(fun _ h' => nomatch h'), fun b' h' => ?_⟩
      rw [hb] at h'
      cases h'
      exact h
    · exact .inl hb.symm
  · next hb => exact .inl hb.symm

-- On a dead bucket every method acts as on a missing one.
theorem allow_dead {limit : Int} {window : Duration} (hd : Dead now (l.buckets key)) :
    l.allow key now limit window = (true, l.set key ⟨1, now + window⟩) := by
  unfold allow
  split
  · next b hb => rw [if_pos (hd b hb)]
  · rfl

theorem remaining_dead {limit : Int} (hd : Dead now (l.buckets key)) : l.remaining key now limit = limit := by
  unfold remaining
  split
  · next b hb => rw [if_pos (hd b hb)]
  · rfl

theorem retryAfter_dead (hd : Dead now (l.buckets key)) : l.retryAfter key now = 0 := by
  unfold retryAfter
  split
  · next b hb => rw [if_pos (hd b hb)]
  · rfl

-- A call on `key` answers alike on two limiters whose buckets of `key` agree, and leaves them
-- agreeing.
theorem call_agree {c : Call} (hc : c.key? = some key) (h : Agree now (l.buckets key) (l'.buckets key)) :
    (l.call now c).1 = (l'.call now c).1 ∧
      Agree now ((l.call now c).2.buckets key) ((l'.call now c).2.buckets key) := by
  cases c <;> simp only [Call.key?, Option.some.injEq, reduceCtorEq] at hc <;> subst hc
  all_goals rcases h with heq | ⟨hd, hd'⟩
  case allow.inl =>
    simp only [call, allow, heq]
    split
    · split_ifs <;> simp [heq]
    · simp
  case allow.inr => simp [call, allow_dead hd, allow_dead hd', Agree]
  case remaining.inl => simp [call, remaining, heq]
  case remaining.inr => simp [call, remaining_dead hd, remaining_dead hd', Agree, hd, hd']
  case retryAfter.inl => simp [call, retryAfter, heq]
  case retryAfter.inr => simp [call, retryAfter_dead hd, retryAfter_dead hd', Agree, hd, hd']

@[simp] theorem answersOn_nil (key : String) (as : List Answer) : answersOn key as [] = [] := by
  simp [answersOn]

theorem answersOn_cons (key : String) (a : Answer) (as : List Answer) (c : Time × Call)
    (cs : List (Time × Call)) :
    answersOn key (a :: as) (c :: cs) =
      if c.2.key? = some key then a :: answersOn key as cs else answersOn key as cs := by
  by_cases h : c.2.key? = some key <;> simp [answersOn, h]

-- The answers to the calls on `key` do not see the other keys' calls nor `Cleanup`.
theorem answersOn_run_agree (key : String) :
    ∀ (cs : List (Time × Call)) (l l' : MemoryLimiter), cs.Pairwise (fun a b => a.1 ≤ b.1) →
      (∀ c ∈ cs.head?, Agree c.1 (l.buckets key) (l'.buckets key)) →
      answersOn key (l.run cs) cs = l'.run (cs.filter (onKey key))
  | [], _, _, _, _ => by simp [run]
  | (t₀, c) :: cs, l, l', hs, h => by
    have hs' := List.pairwise_cons.mp hs
    have h₀ := h _ rfl
    have next : ∀ {o o'}, Agree t₀ o o' → ∀ c ∈ cs.head?, Agree c.1 o o' :=
      fun ha c hc => ha.mono (hs'.1 c (List.mem_of_mem_head? hc))
    by_cases hc : c.key? = some key
    · have ⟨ha, hag⟩ := call_agree hc h₀
      simp only [run, answersOn_cons, hc, if_true, List.filter_cons, onKey, decide_True, ha]
      exact congrArg _ (answersOn_run_agree key cs _ _ hs'.2 (next hag))
    · have hag : Agree t₀ ((l.call t₀ c).2.buckets key) (l'.buckets key) := by
        by_cases hcl : c = .cleanup
        · subst hcl
          exact cleanup_agree.trans h₀
        · rw [call_buckets_ne hc hcl]
          exact h₀
      simp only [run, answersOn_cons, hc, if_false, List.filter_cons, onKey, decide_False]
      exact answersOn_run_agree key cs _ _ hs'.2 (next hag)

-- Every run, from a fresh limiter at non-decreasing clock readings: the answers to the calls on
-- `key` are those of the run that keeps only the calls on `key`.
theorem run_answersOn_filter (cs : List (Time × Call)) (hs : cs.Pairwise (fun a b => a.1 ≤ b.1))
    (key : String) : answersOn key (new.run cs) cs = new.run (cs.filter (onKey key)) :=
  answersOn_run_agree key cs new new hs fun _ _ => .inl rfl

theorem run_answersOn_filter_two :
    [((0 : Time), Call.allow "a" 1 10), (1, .cleanup)].Pairwise (fun a b => a.1 ≤ b.1) ∧
      answersOn "a" (new.run [(0, .allow "a" 1 10), (1, .cleanup)]) [(0, .allow "a" 1 10), (1, .cleanup)] =
        new.run ([(0, .allow "a" 1 10), (1, .cleanup)].filter (onKey "a")) :=
  ⟨by decide, run_answersOn_filter _ (by decide) "a"⟩

-- Every call on `key` carries the limit `L` and, for `Allow`, the window `W`.
def Call.Uses (key : String) (L : Int) (W : Duration) : Call → Prop
  | .allow k limit window => k = key → limit = L ∧ window = W
  | .remaining k limit => k = key → limit = L
  | _ => True

-- A fixed window of one key: when it opened and how many `Allow` calls it has seen.
structure Window where
  opened : Time
  calls : Nat
  deriving DecidableEq, Repr

-- The law of one key with limit `L` and window `W`: a window opens at an `Allow` when none is live
-- and lasts `W`; its first `max L 1` `Allow` calls are admitted, `Remaining` is `L` less the
-- admitted calls (at least 0) while a window is live and `L` otherwise, and `RetryAfter` is the
-- time left of the live window.
def windowCall (L : Int) (W : Duration) (w : Option Window) (now : Time) : Call → Answer × Option Window
  | .allow .. =>
    match w with
    | some w =>
      if now ≤ w.opened + W then (.allowed (decide ((w.calls + 1 : Int) ≤ max L 1)), some ⟨w.opened, w.calls + 1⟩)
      else (.allowed true, some ⟨now, 1⟩)
    | none => (.allowed true, some ⟨now, 1⟩)
  | .remaining .. =>
    (.remaining (match w with
      | some w => if now ≤ w.opened + W then max (L - min (w.calls : Int) (max L 1)) 0 else L
      | none => L), w)
  | .retryAfter _ =>
    (.retryAfter (match w with
      | some w => if now ≤ w.opened + W then w.opened + W - now else 0
      | none => 0), w)
  | .cleanup => (.cleaned, w)

def windowRun (L : Int) (W : Duration) (w : Option Window) : List (Time × Call) → List Answer
  | [] => []
  | (t, c) :: cs => (windowCall L W w t c).1 :: windowRun L W (windowCall L W w t c).2 cs

-- The bucket of a key holds the window's admitted calls and its end.
def Tracks (L : Int) (W : Duration) : Option Bucket → Option Window → Prop
  | none, none => True
  | some b, some w => b.count = min (w.calls : Int) (max L 1) ∧ b.resetTime = w.opened + W ∧ 1 ≤ w.calls
  | _, _ => False

variable {L : Int} {W : Duration}

theorem call_tracks (now : Time) {c : Call} {w : Option Window} (hc : c.key? = some key) (hu : c.Uses key L W)
    (h : Tracks L W (l.buckets key) w) :
    (l.call now c).1 = (windowCall L W w now c).1 ∧
      Tracks L W ((l.call now c).2.buckets key) (windowCall L W w now c).2 := by
  cases c with
  | cleanup => cases hc
  | allow k limit window =>
    simp only [Call.key?, Option.some.injEq] at hc
    subst k
    obtain ⟨rfl, rfl⟩ := hu rfl
    simp only [call, windowCall, allow]
    rcases ho : l.buckets key with _ | b <;> rcases w with _ | w <;> simp only [ho, Tracks] at h ⊢
    · simp [Tracks]
    · obtain ⟨hcnt, hrt, h1⟩ := h
      by_cases hlive : now ≤ w.opened + window
      · have hnot : ¬now > b.resetTime := not_lt.mpr (hrt ▸ hlive)
        by_cases hf : b.count ≥ limit
        · simp only [hnot, hf, hlive, if_true, if_false, ho, Answer.allowed.injEq, Tracks]
          refine ⟨(decide_eq_false ?_).symm, ?_, hrt, by omega⟩ <;> omega
        · simp only [hnot, hf, hlive, if_true, if_false, set_buckets, Answer.allowed.injEq, Tracks]
          refine ⟨(decide_eq_true ?_).symm, ?_, hrt, by omega⟩ <;> omega
      · have hdead : now > b.resetTime := hrt ▸ not_le.mp hlive
        simp only [hdead, hlive, if_true, if_false, set_buckets, Tracks]
        refine ⟨trivial, ?_, trivial, le_rfl⟩
        omega
  | remaining k limit =>
    simp only [Call.key?, Option.some.injEq] at hc
    subst k
    obtain rfl := hu rfl
    simp only [call, windowCall, remaining, Answer.remaining.injEq]
    rcases ho : l.buckets key with _ | b <;> rcases w with _ | w <;> simp only [ho, Tracks] at h ⊢
    · simp
    · obtain ⟨hcnt, hrt, h1⟩ := h
      by_cases hlive : now ≤ w.opened + W
      · have hnot : ¬now > w.opened + W := not_lt.mpr hlive
        simp only [hrt, hcnt, hnot, hlive, h1, if_true, if_false, and_self]
      · have hdead : now > w.opened + W := not_le.mp hlive
        simp only [hrt, hcnt, hdead, hlive, h1, if_true, if_false, and_self]
  | retryAfter k =>
    simp only [Call.key?, Option.some.injEq] at hc
    subst k
    simp only [call, windowCall, retryAfter, Answer.retryAfter.injEq]
    rcases ho : l.buckets key with _ | b <;> rcases w with _ | w <;> simp only [ho, Tracks] at h ⊢
    · simp
    · obtain ⟨hcnt, hrt, h1⟩ := h
      by_cases hlive : now ≤ w.opened + W
      · have hnot : ¬now > w.opened + W := not_lt.mpr hlive
        simp only [hrt, hcnt, hnot, hlive, h1, if_true, if_false, and_self]
      · have hdead : now > w.opened + W := not_le.mp hlive
        simp only [hrt, hcnt, hdead, hlive, h1, if_true, if_false, and_self]

-- A run of calls on `key` alone answers as the window law does.
theorem run_tracks (hu : ∀ c ∈ cs, c.2.Uses key L W) (hk : ∀ c ∈ cs, onKey key c) :
    ∀ {l : MemoryLimiter} {w : Option Window}, Tracks L W (l.buckets key) w → l.run cs = windowRun L W w cs := by
  induction cs with
  | nil => intro _ _ _; rfl
  | cons c cs ih =>
    intro l w h
    obtain ⟨ha, ht⟩ := call_tracks c.1 (of_decide_eq_true (hk c (.head _))) (hu c (.head _)) h
    simp only [run, windowRun, ha]
    exact congrArg _ (ih (fun c hc => hu c (.tail _ hc)) (fun c hc => hk c (.tail _ hc)) ht)

-- The window of the law opened no later than `t`.
def OpenedBy (t : Time) (w : Option Window) : Prop :=
  ∀ x, w = some x → x.opened ≤ t

theorem windowCall_openedBy {w : Option Window} {c : Call} (h : OpenedBy now w) :
    OpenedBy now (windowCall L W w now c).2 := by
  intro x hx
  cases c <;> simp only [windowCall] at hx
  case allow =>
    rcases w with _ | w
    · cases hx
      exact le_rfl
    · dsimp only at hx
      by_cases hl : now ≤ w.opened + W
      · rw [if_pos hl] at hx
        cases hx
        exact h w rfl
      · rw [if_neg hl] at hx
        cases hx
        exact le_rfl
  all_goals exact h x hx

@[simp] theorem openedBy_none (t : Time) : OpenedBy t none :=
  fun _ h => nomatch h

-- A window opened by `now` ends at most `W` after `now`, so `RetryAfter` is at most `max W 0`.
theorem windowCall_retryAfter {w : Option Window} {c : Call} {d : Duration} (h : OpenedBy now w)
    (hd : (windowCall L W w now c).1 = .retryAfter d) : 0 ≤ d ∧ d ≤ max W 0 := by
  cases c with
  | allow =>
    rcases w with _ | w
    · cases hd
    · dsimp only [windowCall] at hd
      split at hd <;> cases hd
  | remaining => cases hd
  | cleanup => cases hd
  | retryAfter =>
    simp only [windowCall, Answer.retryAfter.injEq] at hd
    subst hd
    rcases w with _ | w
    · simp
    · have := h w rfl
      unfold Time Duration at *
      dsimp only
      split <;> constructor <;> omega

theorem windowRun_retryAfter {d : Duration} :
    ∀ {cs : List (Time × Call)} {w : Option Window} {t : Time}, cs.Pairwise (fun a b => a.1 ≤ b.1) →
      (∀ c ∈ cs, t ≤ c.1) → OpenedBy t w → .retryAfter d ∈ windowRun L W w cs → 0 ≤ d ∧ d ≤ max W 0
  | [], _, _, _, _, _, hd => nomatch hd
  | (t₀, c) :: cs, w, t, hs, ht, hw, hd => by
    have hw₀ : OpenedBy t₀ w := fun x hx => (hw x hx).trans (ht _ (.head _))
    rcases List.mem_cons.mp hd with hd | hd
    · exact windowCall_retryAfter hw₀ hd.symm
    · exact windowRun_retryAfter (List.pairwise_cons.mp hs).2 (List.pairwise_cons.mp hs).1
        (windowCall_openedBy hw₀) hd

end MemoryLimiter

end Slashclaw
