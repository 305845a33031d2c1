import Slashclaw.Effect.Footprint

namespace Slashclaw

-- Every statement may fail; the clock, the random sources and the limiter always answer.
def Effect.someAnswer : (e : Effect) → e.Answer
  | .now | .retryAfter .. => 0
  | .uuid | .randomToken => ""
  | .allow .. => false
  | .createStory _ | .getStory _ | .findStoryByURL .. | .updateStoryScore .. | .updateStoryCommentCount ..
  | .hideStory _ | .createComment _ | .getComment _ | .updateCommentScore .. | .hideComment _
  | .createVote _ | .getVote .. | .updateVote .. | .createAccount _ | .getAccount _
  | .createAccountKey _ | .getAccountKey _ | .getAccountKeyByPublicKey .. | .revokeAccountKey _
  | .createChallenge _ | .getChallenge _ | .deleteChallenge _ | .createToken _ | .getToken _ =>
    .error .infra

namespace Prog

variable {α β : Type} {Q : List Event → Option α → Prop}

-- Every handler has a finished run: answer each effect somehow and it returns or panics.
theorem All.exists_run {p : Prog α} (h : p.All Q) : ∃ l r, Q l r := by
  induction p generalizing Q with
  | pure a => exact ⟨_, _, h⟩
  | exec e k ih =>
    have ⟨l, r, h⟩ := ih _ (h e.someAnswer)
    exact ⟨_, r, h⟩
  | crash => exact ⟨_, _, h⟩

def PrefixClosed (P : List Event → Prop) : Prop :=
  ∀ l l', P (l ++ l') → P l

-- A property of the logs of finished runs that survives cutting a log short holds of the log of
-- every run still in progress.
theorem All.ongoing {P : List Event → Prop} {p q : Prog α} {l : List Event} (h : p.All fun l _ => P l)
    (hP : PrefixClosed P) (hs : Steps p l q) : P l :=
  have ⟨l', _, h⟩ := (h.steps hs).exists_run
  hP l l' h

theorem All.append {F : List Event → Prop} {p : Prog β} {f : β → Prog α} (hp : p.All fun l _ => F l)
    (hf : ∀ b, (f b).All fun l _ => F l) (hF : ∀ l l', F l → F l' → F (l ++ l')) :
    (p >>= f).All fun l _ => F l :=
  all_bind.mpr <| hp.imp fun l r h => by
    cases r with
    | none => exact h
    | some b => exact (hf b).imp fun l' _ h' => hF l l' h h'

-- `Allowed J past l`: each effect of `l` is allowed by `J`, judged on the events before it: those
-- of `past`, then those of `l` before it.
def Allowed (J : List Event → Effect → Prop) : List Event → List Event → Prop
  | _, [] => True
  | past, ev :: l => J past ev.effect ∧ Allowed J (past ++ [ev]) l

variable {J J' : List Event → Effect → Prop}

@[simp] theorem allowed_nil (past : List Event) : Allowed J past [] := trivial

@[simp] theorem allowed_cons (past : List Event) (ev : Event) (l : List Event) :
    Allowed J past (ev :: l) ↔ J past ev.effect ∧ Allowed J (past ++ [ev]) l := Iff.rfl

theorem allowed_append (past l l' : List Event) :
    Allowed J past (l ++ l') ↔ Allowed J past l ∧ Allowed J (past ++ l) l' := by
  induction l generalizing past with
  | nil => simp
  | cons ev l ih => simp [ih, and_assoc]

theorem allowed_prefixClosed (past : List Event) : PrefixClosed (Allowed J past) :=
  fun l l' h => ((allowed_append past l l').mp h).1

-- A guard that only asks for events to have happened before: more history allows no less.
def Monotone (J : List Event → Effect → Prop) : Prop :=
  ∀ past past' e, past ⊆ past' → J past e → J past' e

theorem Allowed.mono (hJ : Monotone J) {past past' l : List Event} (hp : past ⊆ past')
    (h : Allowed J past l) : Allowed J past' l := by
  induction l generalizing past past' with
  | nil => trivial
  | cons ev l ih =>
    refine ⟨hJ _ _ _ hp h.1, ih (fun x hx => ?_) h.2⟩
    simp only [List.mem_append] at hx ⊢
    exact hx.imp_left (@hp x)

theorem Allowed.of_forall {past l : List Event} (h : ∀ ev ∈ l, ∀ past, J past ev.effect) :
    Allowed J past l := by
  induction l generalizing past with
  | nil => trivial
  | cons ev l ih =>
    exact ⟨h ev (.head _) past, ih fun ev' h' => h ev' (.tail _ h')⟩

theorem Allowed.imp {past l : List Event} (h : Allowed J past l) (hJ : ∀ past e, J past e → J' past e) :
    Allowed J' past l := by
  induction l generalizing past with
  | nil => trivial
  | cons ev l ih => exact ⟨hJ _ _ h.1, ih h.2⟩

-- Logs whose effects are allowed on their own account, whatever came before, compose.
theorem allowed_append_of_forall {l l' : List Event} (h : ∀ past, Allowed J past l)
    (h' : ∀ past, Allowed J past l') (past : List Event) : Allowed J past (l ++ l') :=
  (allowed_append past l l').mpr ⟨h past, h' _⟩

theorem All.allowed_bind {p : Prog β} {f : β → Prog α} (hp : p.All fun l _ => ∀ past, Allowed J past l)
    (hf : ∀ b, (f b).All fun l _ => ∀ past, Allowed J past l) :
    (p >>= f).All fun l _ => ∀ past, Allowed J past l :=
  hp.append hf fun _ _ h h' => allowed_append_of_forall h h'

-- With a guard that only asks for events to have happened, the events of `p` may be forgotten
-- when checking what follows it.
theorem All.allowed_bind_mono (hJ : Monotone J) (pre : List Event) {p : Prog β} {f : β → Prog α}
    (hpre : ∀ past, Allowed J past pre) (hp : p.All fun l _ => ∀ past, Allowed J past l)
    (hf : ∀ b, (f b).All fun l _ => ∀ past, Allowed J past (pre ++ l)) :
    (p >>= f).All fun l _ => ∀ past, Allowed J past (pre ++ l) := by
  refine all_bind.mpr <| hp.imp fun l r h => ?_
  cases r with
  | none => exact fun past => (allowed_append past pre l).mpr ⟨hpre past, h _⟩
  | some b =>
    refine (hf b).imp fun l' _ h' past => ?_
    have h' := (allowed_append past pre l').mp (h' past)
    rw [← List.append_assoc, allowed_append, allowed_append]
    refine ⟨⟨h'.1, h _⟩, h'.2.mono hJ fun x hx => ?_⟩
    simp only [List.mem_append] at hx ⊢
    tauto

-- A program whose every effect the guard allows, whatever came before.
theorem Within.allowed {P : Effect → Prop} {p : Prog α} (h : Within P p) (hJ : ∀ e, P e → ∀ past, J past e) :
    p.All fun l _ => ∀ past, Allowed J past l :=
  h.all.imp fun _ _ hl _ => Allowed.of_forall fun ev hev past => hJ _ (hl ev hev) past

-- The guard of the next effect, read off any extension of a log that is allowed.
theorem Allowed.last {past l : List Event} {ev : Event} {l' : List Event}
    (h : Allowed J past (l ++ ev :: l')) : J (past ++ l) ev.effect :=
  ((allowed_append past l _).mp h).2.1

end Prog

end Slashclaw
