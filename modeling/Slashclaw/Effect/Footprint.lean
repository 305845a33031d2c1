import Slashclaw.Effect.Prog

namespace Slashclaw

inductive Table
  | stories
  | comments
  | votes
  | accounts
  | accountKeys
  | challenges
  | tokens
  deriving DecidableEq, Repr

-- The table a statement writes; the clock, the random sources, the limiter and the queries write
-- none.
def Effect.table : Effect → Option Table
  | .now | .uuid | .randomToken | .allow .. | .retryAfter .. | .getStory _ | .findStoryByURL ..
  | .getComment _ | .getVote .. | .getAccount _ | .getAccountKey _ | .getAccountKeyByPublicKey ..
  | .getChallenge _ | .getToken _ => none
  | .createStory _ | .updateStoryScore .. | .updateStoryCommentCount .. | .hideStory _ => some .stories
  | .createComment _ | .updateCommentScore .. | .hideComment _ => some .comments
  | .createVote _ | .updateVote .. => some .votes
  | .createAccount _ => some .accounts
  | .createAccountKey _ | .revokeAccountKey _ => some .accountKeys
  | .createChallenge _ | .deleteChallenge _ => some .challenges
  | .createToken _ => some .tokens

def Effect.writesIn (ts : List Table) (e : Effect) : Bool :=
  match e.table with
  | none => true
  | some t => ts.contains t

theorem Effect.writesIn_mono {ts ts' : List Table} {e : Effect} (h : e.writesIn ts = true) (hs : ts ⊆ ts') :
    e.writesIn ts' = true := by
  unfold Effect.writesIn at *
  split at h
  · simp [*]
  · rename_i t ht
    simp only [ht, List.contains, List.elem_eq_mem, decide_eq_true_eq] at h ⊢
    exact hs h

theorem Effect.writesIn_getToken (ts : List Table) (x : String) : (Effect.getToken x).writesIn ts = true :=
  rfl

namespace Prog

-- `p.Within P`: every effect `p` may perform, whatever the answers, satisfies `P`.
inductive Within (P : Effect → Prop) : Prog α → Prop
  | pure (a : α) : Within P (.pure a)
  | crash : Within P .crash
  | exec {e : Effect} {k : e.Answer → Prog α} : P e → (∀ a, Within P (k a)) → Within P (.exec e k)

variable {α β : Type} {P P' : Effect → Prop}

theorem Within.bind {p : Prog β} {f : β → Prog α} (hp : Within P p) (hf : ∀ b, Within P (f b)) :
    Within P (p >>= f) := by
  induction hp with
  | pure a => exact hf a
  | crash => exact .crash
  | exec he _ ih => exact .exec he ih

theorem Within.ret (a : α) : Within P (Pure.pure a : Prog α) :=
  .pure a

theorem Within.effect {e : Effect} (he : P e) : Within P (effect e) :=
  .exec he .pure

theorem Within.ite {c : Prop} {_ : Decidable c} {p q : Prog α} (hp : Within P p) (hq : Within P q) :
    Within P (if c then p else q) := by
  by_cases h : c
  · rwa [if_pos h]
  · rwa [if_neg h]

theorem Within.mono {p : Prog α} (h : Within P p) (hP : ∀ e, P e → P' e) : Within P' p := by
  induction h with
  | pure a => exact .pure a
  | crash => exact .crash
  | exec he _ ih => exact .exec (hP _ he) ih

-- Every event of a finished run satisfies `P`.
theorem Within.all {p : Prog α} (h : Within P p) : p.All fun l _ => ∀ ev ∈ l, P ev.effect := by
  induction h with
  | pure a => exact fun _ h => nomatch h
  | crash => exact fun _ h => nomatch h
  | exec he _ ih =>
    exact fun a => (ih a).imp fun l _ hl ev hev => by
      rcases List.mem_cons.mp hev with rfl | hev
      · exact he
      · exact hl ev hev

end Prog

end Slashclaw
