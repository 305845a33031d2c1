import Slashclaw.Store.SQLite
import Slashclaw.RateLimit.Memory

namespace Slashclaw

-- The atomic actions of a request: a reading of `time.Now()`, a fresh `uuid.New()` or 32 random
-- bytes from `crypto/rand`, one locked call on the `MemoryLimiter`, one SQL statement of
-- `SQLiteStore`.
inductive Effect
  | now
  | uuid
  | randomToken
  | allow (key : String) (limit : Int) (window : Duration)
  | retryAfter (key : String) (window : Duration)
  | createStory (story : Story)
  | getStory (id : String)
  | findStoryByURL (url : String) (since : LocalTime)
  | updateStoryScore (id : String) (delta : Int)
  | updateStoryCommentCount (id : String) (delta : Int)
  | hideStory (id : String)
  | createComment (comment : Comment)
  | getComment (id : String)
  | updateCommentScore (id : String) (delta : Int)
  | hideComment (id : String)
  | createVote (vote : Vote)
  | getVote (targetType targetID ipHash agentID : String)
  | updateVote (id : String) (value : Int)
  | createAccount (account : Account)
  | getAccount (id : String)
  | createAccountKey (key : AccountKey)
  | getAccountKey (id : String)
  | getAccountKeyByPublicKey (alg publicKey : String)
  | revokeAccountKey (id : String)
  | createChallenge (challenge : Challenge)
  | getChallenge (challenge : String)
  | deleteChallenge (id : String)
  | createToken (token : Token)
  | getToken (token : String)

@[reducible] def Effect.Answer : Effect → Type
  | .now => Time
  | .uuid | .randomToken => String
  | .allow .. => Bool
  | .retryAfter .. => Duration
  | .createStory _ => Except DBError Story
  | .getStory _ | .findStoryByURL .. => Except DBError (Option Story)
  | .createComment _ => Except DBError Comment
  | .getComment _ => Except DBError (Option Comment)
  | .createVote _ => Except DBError Vote
  | .getVote .. => Except DBError (Option Vote)
  | .createAccount _ => Except DBError Account
  | .getAccount _ => Except DBError (Option Account)
  | .createAccountKey _ => Except DBError AccountKey
  | .getAccountKey _ => Except DBError (Option AccountKey)
  | .getAccountKeyByPublicKey .. => Except DBError (Option AccountKey)
  | .createChallenge _ => Except DBError Challenge
  | .getChallenge _ => Except DBError (Option Challenge)
  | .createToken _ => Except DBError Token
  | .getToken _ => Except DBError (Option Token)
  | .updateStoryScore .. | .updateStoryCommentCount .. | .hideStory _ | .updateCommentScore ..
  | .hideComment _ | .updateVote .. | .revokeAccountKey _ | .deleteChallenge _ => Except DBError Unit

-- Everything the handlers share: the database, the rate limiter and the clock.
structure World where
  store : Store
  limiter : MemoryLimiter
  clock : Time

def World.init (t : Time) : World :=
  ⟨.empty, .new, t⟩

-- What the environment decides at one step: the clock reading, whether a SQL statement fails for
-- an infrastructure reason, and the value of a fresh uuid or random token (never empty: a uuid
-- has 36 characters, 32 random bytes in base64 have 44).
structure Choice where
  time : Time
  fail : Bool
  fresh : String
  fresh_ne : fresh ≠ ""

-- One SQL statement: a failure leaves the database as it was.
def World.exec (w : World) (fail : Bool) (f : Store → Except DBError (α × Store)) :
    Except DBError α × World :=
  if fail then (.error .infra, w) else
    match f w.store with
    | .ok (a, s) => (.ok a, { w with store := s })
    | .error e => (.error e, w)

def World.read (s : Store) (a : α) : Except DBError (α × Store) :=
  .ok (a, s)

def World.update (s : Store) : Except DBError (Unit × Store) :=
  .ok ((), s)

def Effect.run (c : Choice) (w₀ : World) : (e : Effect) → e.Answer × World :=
  let w := { w₀ with clock := c.time }
  fun
  | .now => (c.time, w)
  | .uuid | .randomToken => (c.fresh, w)
  | .allow key limit window =>
    let r := w.limiter.allow key c.time limit window
    (r.1, { w with limiter := r.2 })
  | .retryAfter key _ => (w.limiter.retryAfter key c.time, w)
  | .createStory st => w.exec c.fail (·.createStory st c.fresh c.time)
  | .getStory id => w.exec c.fail fun s => World.read s (s.getStory id)
  | .findStoryByURL url since => w.exec c.fail fun s => World.read s (s.findStoryByURL url since)
  | .updateStoryScore id d => w.exec c.fail (World.update <| ·.updateStoryScore id d)
  | .updateStoryCommentCount id d => w.exec c.fail (World.update <| ·.updateStoryCommentCount id d)
  | .hideStory id => w.exec c.fail (World.update <| ·.hideStory id)
  | .createComment cm => w.exec c.fail (·.createComment cm c.fresh c.time)
  | .getComment id => w.exec c.fail fun s => World.read s (s.getComment id)
  | .updateCommentScore id d => w.exec c.fail (World.update <| ·.updateCommentScore id d)
  | .hideComment id => w.exec c.fail (World.update <| ·.hideComment id)
  | .createVote v => w.exec c.fail (·.createVote v c.fresh c.time)
  | .getVote tt tid ip ag => w.exec c.fail fun s => World.read s (s.getVote tt tid ip ag)
  | .updateVote id v => w.exec c.fail (World.update <| ·.updateVote id v)
  | .createAccount a => w.exec c.fail (·.createAccount a c.fresh c.time)
  | .getAccount id => w.exec c.fail fun s => (s.getAccount id).map (·, s)
  | .createAccountKey k => w.exec c.fail (·.createAccountKey k c.fresh c.time)
  | .getAccountKey id => w.exec c.fail fun s => (s.getAccountKey id).map (·, s)
  | .getAccountKeyByPublicKey alg pk =>
    w.exec c.fail fun s => World.read s (s.getAccountKeyByPublicKey alg pk)
  | .revokeAccountKey id => w.exec c.fail (World.update <| ·.revokeAccountKey id c.time)
  | .createChallenge ch => w.exec c.fail (·.createChallenge ch c.fresh)
  | .getChallenge str => w.exec c.fail fun s => World.read s (s.getChallenge str c.time)
  | .deleteChallenge id => w.exec c.fail (World.update <| ·.deleteChallenge id)
  | .createToken t => w.exec c.fail (·.createToken t c.fresh)
  | .getToken str => w.exec c.fail fun s => World.read s (s.getToken str c.time)

-- Splitting on the answer of a statement.
theorem Except.forall' {ε α : Type} {P : Except ε α → Prop} :
    (∀ x, P x) ↔ (∀ e, P (.error e)) ∧ ∀ a, P (.ok a) :=
  ⟨fun h => ⟨fun _ => h _, fun _ => h _⟩, fun ⟨h₁, h₂⟩ x => by cases x <;> simp [*]⟩

-- A request handler: its effects in program order, each continuation receiving the answer. A
-- `crash` is a Go runtime panic, after which the request never answers.
inductive Prog (α : Type) : Type
  | pure (a : α)
  | exec (e : Effect) (k : e.Answer → Prog α)
  | crash

namespace Prog

def bind : Prog α → (α → Prog β) → Prog β
  | pure a, f => f a
  | exec e k, f => exec e fun a => (k a).bind f
  | crash, _ => crash

instance : Monad Prog where
  pure := pure
  bind := bind

@[simp] theorem pure_bind' (a : α) (f : α → Prog β) : (pure a : Prog α) >>= f = f a := rfl

@[simp] theorem exec_bind (e : Effect) (k : e.Answer → Prog α) (f : α → Prog β) :
    exec e k >>= f = exec e fun a => k a >>= f := rfl

@[simp] theorem crash_bind (f : α → Prog β) : (crash : Prog α) >>= f = crash := rfl

@[simp] theorem pure_eq (a : α) : (Pure.pure a : Prog α) = pure a := rfl

@[simp] theorem ite_bind {c : Prop} [Decidable c] (p q : Prog α) (f : α → Prog β) :
    (if c then p else q) >>= f = if c then p >>= f else q >>= f :=
  apply_ite (· >>= f) c p q

def effect (e : Effect) : Prog e.Answer :=
  exec e pure

structure Event where
  effect : Effect
  answer : effect.Answer

-- `Steps p l q`: `p` performs the effects of `l`, with their answers, and continues as `q`.
inductive Steps : Prog α → List Event → Prog α → Prop
  | refl (p : Prog α) : Steps p [] p
  | exec {e : Effect} {k : e.Answer → Prog α} (a : e.Answer) {l : List Event} {q : Prog α} :
      Steps (k a) l q → Steps (exec e k) (⟨e, a⟩ :: l) q

-- `p.All Q`: whatever the effects answer, every log `l` of a finished run of `p` and its outcome
-- `r` (`none` when it panicked) satisfy `Q l r`.
def All : Prog α → (List Event → Option α → Prop) → Prop
  | pure a, Q => Q [] (some a)
  | exec e k, Q => ∀ a, (k a).All fun l r => Q (⟨e, a⟩ :: l) r
  | crash, Q => Q [] none

variable {α β : Type} {Q Q' : List Event → Option α → Prop}

@[simp] theorem all_pure (a : α) : (pure a).All Q ↔ Q [] (some a) := Iff.rfl

@[simp] theorem all_exec (e : Effect) (k : e.Answer → Prog α) :
    (exec e k).All Q ↔ ∀ a, (k a).All fun l r => Q (⟨e, a⟩ :: l) r := Iff.rfl

@[simp] theorem all_crash : (crash : Prog α).All Q ↔ Q [] none := Iff.rfl

theorem All.imp {p : Prog α} (h : p.All Q) (hq : ∀ l r, Q l r → Q' l r) : p.All Q' := by
  induction p generalizing Q Q' with
  | pure a => exact hq _ _ h
  | exec e k ih => exact fun a => ih a (h a) fun l r => hq _ _
  | crash => exact hq _ _ h

theorem All.and {p : Prog α} (h : p.All Q) (h' : p.All Q') : p.All fun l r => Q l r ∧ Q' l r := by
  induction p generalizing Q Q' with
  | pure a => exact ⟨h, h'⟩
  | exec e k ih => exact fun a => ih a (h a) (h' a)
  | crash => exact ⟨h, h'⟩

theorem all_bind {p : Prog α} {f : α → Prog β} {Q : List Event → Option β → Prop} :
    (p >>= f).All Q ↔ p.All fun l r => r.elim (Q l none) fun a => (f a).All fun l' r' => Q (l ++ l') r' := by
  induction p generalizing Q with
  | pure a => rfl
  | exec e k ih => exact forall_congr' fun a => ih a
  | crash => exact Iff.rfl

theorem All.intro {p : Prog α} (h : ∀ l r, Q l r) : p.All Q := by
  induction p generalizing Q with
  | pure a => exact h _ _
  | exec e k ih => exact fun a => ih a fun l r => h _ _
  | crash => exact h _ _

@[simp] theorem all_ite {c : Prop} [Decidable c] {p q : Prog α} :
    (if c then p else q).All Q ↔ (c → p.All Q) ∧ (¬c → q.All Q) := by
  by_cases hc : c <;> simp [hc]

-- A property of logs that stays true when effects are performed before: it may be checked on
-- the continuation alone.
def SuffixClosed (Q : List Event → Option α → Prop) : Prop :=
  ∀ l l' r, Q l' r → Q (l ++ l') r

theorem all_bind_of_suffixClosed {p : Prog β} {f : β → Prog α} (hQ : SuffixClosed Q)
    (hp : p.All fun l r => r = none → Q l none) (hf : ∀ b, (f b).All Q) : (p >>= f).All Q :=
  all_bind.mpr <| (hp.and (All.intro fun _ _ => True.intro)).imp fun l r ⟨h, _⟩ => by
    cases r with
    | none => exact h rfl
    | some b => exact (hf b).imp fun l' r' => hQ l l' r'

theorem All.steps {p q : Prog α} {l : List Event} (h : p.All Q) (hs : Steps p l q) :
    q.All fun l' r => Q (l ++ l') r := by
  induction hs generalizing Q with
  | refl => exact h
  | exec a _ ih => exact ih (h a)

theorem All.returns {p : Prog α} {l : List Event} {r : α} (h : p.All Q) (hs : Steps p l (pure r)) :
    Q l (some r) := by
  simpa using h.steps hs

theorem All.crashes {p : Prog α} {l : List Event} (h : p.All Q) (hs : Steps p l crash) : Q l none := by
  simpa using h.steps hs

theorem Steps.append {p q q' : Prog α} {l l' : List Event} (hs : Steps p l q) (hs' : Steps q l' q') :
    Steps p (l ++ l') q' := by
  induction hs with
  | refl => exact hs'
  | exec b _ ih => exact .exec b (ih hs')

theorem Steps.snoc {p : Prog α} {l : List Event} {e : Effect} {k : e.Answer → Prog α}
    (hs : Steps p l (Prog.exec e k)) (a : e.Answer) : Steps p (l ++ [⟨e, a⟩]) (k a) :=
  hs.append (.exec a (.refl _))

end Prog

-- The effects as the source issues them: `Stmt` for the statements of `SQLiteStore`, `Env`
-- for the clock, randomness and the rate limiter.
namespace Stmt

def createStory (story : Story) : Prog (Except DBError Story) := Prog.effect (.createStory story)
def getStory (id : String) : Prog (Except DBError (Option Story)) := Prog.effect (.getStory id)
def findStoryByURL (url : String) (since : LocalTime) : Prog (Except DBError (Option Story)) :=
  Prog.effect (.findStoryByURL url since)
def updateStoryScore (id : String) (delta : Int) : Prog (Except DBError Unit) :=
  Prog.effect (.updateStoryScore id delta)
def updateStoryCommentCount (id : String) (delta : Int) : Prog (Except DBError Unit) :=
  Prog.effect (.updateStoryCommentCount id delta)
def hideStory (id : String) : Prog (Except DBError Unit) := Prog.effect (.hideStory id)
def createComment (c : Comment) : Prog (Except DBError Comment) := Prog.effect (.createComment c)
def getComment (id : String) : Prog (Except DBError (Option Comment)) := Prog.effect (.getComment id)
def updateCommentScore (id : String) (delta : Int) : Prog (Except DBError Unit) :=
  Prog.effect (.updateCommentScore id delta)
def hideComment (id : String) : Prog (Except DBError Unit) := Prog.effect (.hideComment id)
def createVote (v : Vote) : Prog (Except DBError Vote) := Prog.effect (.createVote v)
def getVote (targetType targetID ipHash agentID : String) : Prog (Except DBError (Option Vote)) :=
  Prog.effect (.getVote targetType targetID ipHash agentID)
def updateVote (id : String) (value : Int) : Prog (Except DBError Unit) :=
  Prog.effect (.updateVote id value)
def createAccount (a : Account) : Prog (Except DBError Account) := Prog.effect (.createAccount a)
def getAccount (id : String) : Prog (Except DBError (Option Account)) := Prog.effect (.getAccount id)
def createAccountKey (k : AccountKey) : Prog (Except DBError AccountKey) :=
  Prog.effect (.createAccountKey k)
def getAccountKey (id : String) : Prog (Except DBError (Option AccountKey)) :=
  Prog.effect (.getAccountKey id)
def getAccountKeyByPublicKey (alg publicKey : String) : Prog (Except DBError (Option AccountKey)) :=
  Prog.effect (.getAccountKeyByPublicKey alg publicKey)
def revokeAccountKey (id : String) : Prog (Except DBError Unit) := Prog.effect (.revokeAccountKey id)
def createChallenge (c : Challenge) : Prog (Except DBError Challenge) :=
  Prog.effect (.createChallenge c)
def getChallenge (challenge : String) : Prog (Except DBError (Option Challenge)) :=
  Prog.effect (.getChallenge challenge)
def deleteChallenge (id : String) : Prog (Except DBError Unit) := Prog.effect (.deleteChallenge id)
def createToken (t : Token) : Prog (Except DBError Token) := Prog.effect (.createToken t)
def getToken (token : String) : Prog (Except DBError (Option Token)) := Prog.effect (.getToken token)

end Stmt

namespace Env

def now : Prog Time := Prog.effect .now
def uuid : Prog String := Prog.effect .uuid
def randomToken : Prog String := Prog.effect .randomToken
def allow (key : String) (limit : Int) (window : Duration) : Prog Bool :=
  Prog.effect (.allow key limit window)
def retryAfter (key : String) (window : Duration) : Prog Duration :=
  Prog.effect (.retryAfter key window)

end Env

end Slashclaw
