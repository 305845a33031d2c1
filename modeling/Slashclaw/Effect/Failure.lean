import Slashclaw.Effect.Prog

namespace Slashclaw

-- The statement answered with an error: an infrastructure failure, a constraint it violates, or a
-- row it did not find. The clock, the random sources and the limiter never fail.
def Effect.failed : (e : Effect) → e.Answer → Bool
  | .now, _ | .retryAfter .., _ | .uuid, _ | .randomToken, _ | .allow .., _ => false
  | .createStory _, a | .getStory _, a | .findStoryByURL .., a | .updateStoryScore .., a
  | .updateStoryCommentCount .., a | .hideStory _, a | .createComment _, a | .getComment _, a
  | .updateCommentScore .., a | .hideComment _, a | .createVote _, a | .getVote .., a
  | .updateVote .., a | .createAccount _, a | .getAccount _, a | .createAccountKey _, a
  | .getAccountKey _, a | .getAccountKeyByPublicKey .., a | .revokeAccountKey _, a
  | .createChallenge _, a | .getChallenge _, a | .deleteChallenge _, a | .createToken _, a
  | .getToken _, a => !a.toBool

namespace Prog

variable {α β : Type} {Q Q' : α → Prop}

-- `p.Ok Q`: in a run of `p` in which no statement answers an error, `p` panics or returns a value
-- satisfying `Q`.
inductive Ok (Q : α → Prop) : Prog α → Prop
  | pure {a : α} : Q a → Ok Q (.pure a)
  | crash : Ok Q .crash
  | exec {e : Effect} {k : e.Answer → Prog α} : (∀ a, e.failed a = false → Ok Q (k a)) → Ok Q (.exec e k)

theorem Ok.ret {a : α} (h : Q a) : Ok Q (Pure.pure a : Prog α) :=
  .pure h

theorem Ok.effect (e : Effect) : Ok (fun a => e.failed a = false) (effect e) :=
  .exec fun _ h => .pure h

theorem Ok.bind {p : Prog β} {f : β → Prog α} {R : β → Prop} (hp : Ok R p) (hf : ∀ b, R b → Ok Q (f b)) :
    Ok Q (p >>= f) := by
  induction hp with
  | pure h => exact hf _ h
  | crash => exact .crash
  | exec _ ih => exact .exec ih

theorem Ok.mono {p : Prog α} (h : Ok Q p) (hQ : ∀ a, Q a → Q' a) : Ok Q' p := by
  induction h with
  | pure h => exact .pure (hQ _ h)
  | crash => exact .crash
  | exec _ ih => exact .exec ih

theorem Ok.ite {c : Prop} {_ : Decidable c} {p q : Prog α} (hp : c → Ok Q p) (hq : ¬c → Ok Q q) :
    Ok Q (if c then p else q) := by
  by_cases h : c
  · rw [if_pos h]
    exact hp h
  · rw [if_neg h]
    exact hq h

-- A statement answered: the answer is no error.
theorem Ok.stmt {e : Effect} {f : e.Answer → Prog α} (hf : ∀ a, e.failed a = false → Ok Q (f a)) :
    Ok Q (Prog.effect e >>= f) :=
  (Ok.effect e).bind hf

-- What `Ok` says of the finished runs.
theorem Ok.all {p : Prog α} (h : Ok Q p) :
    p.All fun l r => (∀ ev ∈ l, ev.effect.failed ev.answer = false) → ∀ a, r = some a → Q a := by
  induction h with
  | pure h => exact fun _ _ he => Option.some.inj he ▸ h
  | crash => exact fun _ _ he => nomatch he
  | exec _ ih =>
    intro a
    by_cases ha : Effect.failed _ a = false
    · exact (ih a ha).imp fun l r hl hf => hl fun ev hev => hf ev (.tail _ hev)
    · exact All.intro fun l r hf => absurd (hf _ (.head _)) ha

end Prog

end Slashclaw
