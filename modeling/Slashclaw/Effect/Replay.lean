import Slashclaw.Effect.Prog
import Slashclaw.Store.Theorems.Insert

namespace Slashclaw

namespace Prog.Event

-- The write an effect made, read off its answer: a statement changes the database only when it
-- succeeds, and then as its answer says.
def apply (t : Time) (s : Store) : Event → Store
  | ⟨.createStory _, .ok st⟩ => { s with stories := s.stories ++ [st] }
  | ⟨.updateStoryScore id d, .ok ()⟩ => s.updateStoryScore id d
  | ⟨.updateStoryCommentCount id d, .ok ()⟩ => s.updateStoryCommentCount id d
  | ⟨.hideStory id, .ok ()⟩ => s.hideStory id
  | ⟨.createComment _, .ok c⟩ => { s with comments := s.comments ++ [c] }
  | ⟨.updateCommentScore id d, .ok ()⟩ => s.updateCommentScore id d
  | ⟨.hideComment id, .ok ()⟩ => s.hideComment id
  | ⟨.createVote _, .ok v⟩ => { s with votes := s.votes ++ [v] }
  | ⟨.updateVote id v, .ok ()⟩ => s.updateVote id v
  | ⟨.createAccount _, .ok a⟩ => { s with accounts := s.accounts ++ [a] }
  | ⟨.createAccountKey _, .ok k⟩ => { s with accountKeys := s.accountKeys ++ [{ k with revokedAt := none }] }
  | ⟨.revokeAccountKey id, .ok ()⟩ => s.revokeAccountKey id t
  | ⟨.createChallenge _, .ok c⟩ =>
    { s with challenges := s.challenges ++ [{ c with expiresAt := truncSecond c.expiresAt }] }
  | ⟨.deleteChallenge id, .ok ()⟩ => s.deleteChallenge id
  | ⟨.createToken _, .ok tk⟩ => { s with tokens := s.tokens ++ [{ tk with expiresAt := truncSecond tk.expiresAt }] }
  | _ => s

end Prog.Event

-- A statement of `SQLiteStore` on the database `s` whose query computes `r`: it fails for an
-- infrastructure reason and changes nothing, or answers and leaves what the query says.
def Store.Outcome {β : Type} (s : Store) (r : Except DBError (β × Store)) (a : Except DBError β)
    (s' : Store) : Prop :=
  (a = .error .infra ∧ s' = s) ∨
    (a = r.map Prod.fst ∧ s' = match r with | .ok (_, s'') => s'' | .error _ => s)

-- `e.Can s a s'`: run on the database `s`, at some time, with some limiter and fresh values, `e`
-- may answer `a` and leave `s'`. This is what a handler run alone can rely on.
def Effect.Can (s : Store) : (e : Effect) → e.Answer → Store → Prop
  | .now, _, s' | .allow .., _, s' | .retryAfter .., _, s' => s' = s
  | .uuid, a, s' | .randomToken, a, s' => a ≠ "" ∧ s' = s
  | .createStory st, a, s' => ∃ u t, u ≠ "" ∧ s.Outcome (s.createStory st u t) a s'
  | .getStory id, a, s' => s.Outcome (World.read s (s.getStory id)) a s'
  | .findStoryByURL url since, a, s' => s.Outcome (World.read s (s.findStoryByURL url since)) a s'
  | .updateStoryScore id d, a, s' => s.Outcome (World.update (s.updateStoryScore id d)) a s'
  | .updateStoryCommentCount id d, a, s' =>
    s.Outcome (World.update (s.updateStoryCommentCount id d)) a s'
  | .hideStory id, a, s' => s.Outcome (World.update (s.hideStory id)) a s'
  | .createComment c, a, s' => ∃ u t, u ≠ "" ∧ s.Outcome (s.createComment c u t) a s'
  | .getComment id, a, s' => s.Outcome (World.read s (s.getComment id)) a s'
  | .updateCommentScore id d, a, s' => s.Outcome (World.update (s.updateCommentScore id d)) a s'
  | .hideComment id, a, s' => s.Outcome (World.update (s.hideComment id)) a s'
  | .createVote v, a, s' => ∃ u t, u ≠ "" ∧ s.Outcome (s.createVote v u t) a s'
  | .getVote tt tid ip ag, a, s' => s.Outcome (World.read s (s.getVote tt tid ip ag)) a s'
  | .updateVote id v, a, s' => s.Outcome (World.update (s.updateVote id v)) a s'
  | .createAccount acc, a, s' => ∃ u t, u ≠ "" ∧ s.Outcome (s.createAccount acc u t) a s'
  | .getAccount id, a, s' => s.Outcome ((s.getAccount id).map (·, s)) a s'
  | .createAccountKey k, a, s' => ∃ u t, u ≠ "" ∧ s.Outcome (s.createAccountKey k u t) a s'
  | .getAccountKey id, a, s' => s.Outcome ((s.getAccountKey id).map (·, s)) a s'
  | .getAccountKeyByPublicKey alg pk, a, s' =>
    s.Outcome (World.read s (s.getAccountKeyByPublicKey alg pk)) a s'
  | .revokeAccountKey id, a, s' => ∃ t, s.Outcome (World.update (s.revokeAccountKey id t)) a s'
  | .createChallenge c, a, s' => ∃ u, u ≠ "" ∧ s.Outcome (s.createChallenge c u) a s'
  | .getChallenge str, a, s' => ∃ t, s.Outcome (World.read s (s.getChallenge str t)) a s'
  | .deleteChallenge id, a, s' => s.Outcome (World.update (s.deleteChallenge id)) a s'
  | .createToken tk, a, s' => ∃ u, u ≠ "" ∧ s.Outcome (s.createToken tk u) a s'
  | .getToken str, a, s' => ∃ t, s.Outcome (World.read s (s.getToken str t)) a s'

theorem World.exec_outcome {β : Type} (w : World) (fail : Bool) (f : Store → Except DBError (β × Store)) :
    w.store.Outcome (f w.store) (w.exec fail f).1 (w.exec fail f).2.store := by
  unfold World.exec Store.Outcome
  cases fail
  · cases f w.store <;> simp [Except.map]
  · simp

namespace Store.Outcome

variable {β : Type} {s s' : Store} {a : Except DBError β}

theorem cases {r : Except DBError (β × Store)} (h : s.Outcome r a s') :
    (∃ e, a = .error e ∧ s' = s) ∨ ∃ b, r = .ok (b, s') ∧ a = .ok b := by
  rcases h with ⟨rfl, rfl⟩ | ⟨rfl, rfl⟩
  · exact .inl ⟨_, rfl, rfl⟩
  · rcases r with e | ⟨b, s''⟩
    · exact .inl ⟨e, rfl, rfl⟩
    · exact .inr ⟨b, rfl, rfl⟩

theorem read_eq {x : β} (h : s.Outcome (World.read s x) a s') : s' = s := by
  rcases h.cases with ⟨_, -, rfl⟩ | ⟨_, h, -⟩
  · rfl
  · cases h; rfl

theorem map_eq {r : Except DBError β} (h : s.Outcome (r.map (·, s)) a s') : s' = s := by
  rcases h.cases with ⟨_, -, rfl⟩ | ⟨_, h, -⟩
  · rfl
  · cases r <;> cases h; rfl

theorem update {s₁ : Store} {a : Except DBError Unit} (h : s.Outcome (World.update s₁) a s') :
    (s' = s ∧ ∃ e, a = .error e) ∨ (s' = s₁ ∧ a = .ok ()) := by
  rcases h.cases with ⟨e, rfl, rfl⟩ | ⟨_, hr, rfl⟩
  · exact .inl ⟨rfl, e, rfl⟩
  · simp only [World.update, Except.ok.injEq, Prod.mk.injEq] at hr
    exact .inr ⟨hr.2.symm, rfl⟩

-- An `INSERT` that succeeds leaves what its query says.
theorem insert {r : Except DBError (β × Store)} {g : β → Store} (h : s.Outcome r a s')
    (hr : ∀ b s'', r = .ok (b, s'') → s'' = g b) :
    (∃ e, a = .error e ∧ s' = s) ∨ ∃ b, a = .ok b ∧ s' = g b := by
  rcases h.cases with h | ⟨b, hb, rfl⟩
  · exact .inl h
  · exact .inr ⟨b, rfl, hr b s' hb⟩

end Store.Outcome

-- Every answer the world gives is one `Can` allows.
theorem Effect.can_run (c : Choice) (w : World) (e : Effect) :
    Effect.Can w.store e (e.run c w).1 (e.run c w).2.store := by
  cases e
  all_goals first
    | exact rfl
    | exact ⟨c.fresh_ne, rfl⟩
    | exact ⟨c.fresh, c.time, c.fresh_ne, World.exec_outcome _ _ _⟩
    | exact ⟨c.fresh, c.fresh_ne, World.exec_outcome _ _ _⟩
    | exact ⟨c.time, World.exec_outcome _ _ _⟩
    | exact World.exec_outcome _ _ _

-- What a statement may do to the database is what its answer says it did.
theorem Effect.Can.apply {s s' : Store} {e : Effect} {a : e.Answer} (h : Effect.Can s e a s') :
    ∃ t, s' = Prog.Event.apply t s ⟨e, a⟩ := by
  cases e
  case revokeAccountKey id =>
    obtain ⟨t, h⟩ := h
    rcases h.update with ⟨rfl, _, rfl⟩ | ⟨rfl, rfl⟩ <;> exact ⟨t, rfl⟩
  case' createChallenge | createToken => obtain ⟨_, -, h⟩ := h
  case' createStory | createComment | createVote | createAccount | createAccountKey =>
    obtain ⟨_, _, -, h⟩ := h
  case' createStory | createComment | createVote | createAccount | createAccountKey | createChallenge |
      createToken =>
    rcases h.cases with ⟨_, rfl, rfl⟩ | ⟨b, hr, rfl⟩
    · exact ⟨0, rfl⟩
    · simp only [Store.createStory_eq_ok, Store.createComment_eq_ok, Store.createVote_eq_ok,
        Store.createAccount_eq_ok, Store.createAccountKey_eq_ok, Store.createChallenge_eq_ok,
        Store.createToken_eq_ok] at hr
      obtain ⟨-, rfl, rfl⟩ := hr
      exact ⟨0, rfl⟩
  all_goals first
    | exact ⟨0, h⟩
    | exact ⟨0, h.2⟩
    | exact ⟨0, h.read_eq⟩
    | exact ⟨0, h.map_eq⟩
    | exact h.elim fun _ h => ⟨0, h.read_eq⟩
    | exact h.update.elim (fun ⟨h₁, _, h₂⟩ => ⟨0, by subst h₁ h₂; rfl⟩) fun ⟨h₁, h₂⟩ => ⟨0, by subst h₁ h₂; rfl⟩

-- `Replays s l s'`: from the database `s`, the effects of the log `l` may have answered as
-- they did and left `s'`.
def Replays : Store → List Prog.Event → Store → Prop
  | s, [], s' => s' = s
  | s, ⟨e, a⟩ :: l, s' => ∃ s₁, Effect.Can s e a s₁ ∧ Replays s₁ l s'

@[simp] theorem replays_nil {s s' : Store} : Replays s [] s' ↔ s' = s := Iff.rfl

@[simp] theorem replays_cons {s s' : Store} {e : Effect} {a : e.Answer} {l : List Prog.Event} :
    Replays s (⟨e, a⟩ :: l) s' ↔ ∃ s₁, Effect.Can s e a s₁ ∧ Replays s₁ l s' := Iff.rfl

theorem replays_append {s s' : Store} {l l' : List Prog.Event} :
    Replays s (l ++ l') s' ↔ ∃ s₁, Replays s l s₁ ∧ Replays s₁ l' s' := by
  induction l generalizing s with
  | nil => simp
  | cons ev l ih =>
    obtain ⟨e, a⟩ := ev
    simp only [List.cons_append, replays_cons, ih]
    exact ⟨fun ⟨s₂, hc, s₁, h₁, h₂⟩ => ⟨s₁, ⟨s₂, hc, h₁⟩, h₂⟩,
      fun ⟨s₁, ⟨s₂, hc, h₁⟩, h₂⟩ => ⟨s₂, hc, s₁, h₁, h₂⟩⟩

-- A statement that answered ran its query to the end.
theorem World.exec_ok {β : Type} {w : World} {fail : Bool} {f : Store → Except DBError (β × Store)} {b : β}
    (h : (w.exec fail f).1 = .ok b) : ∃ s, f w.store = .ok (b, s) := by
  unfold World.exec at h
  rcases hf : f w.store with _ | ⟨a, s⟩ <;> cases fail <;> simp [hf] at h
  exact ⟨s, by rw [h]⟩

theorem World.exec_read {β : Type} {w : World} {fail : Bool} {g : Store → β} {b : β}
    (h : (w.exec fail fun s => World.read s (g s)).1 = .ok b) : b = g w.store := by
  obtain ⟨_, h⟩ := World.exec_ok h
  simp only [World.read, Except.ok.injEq, Prod.mk.injEq] at h
  exact h.1.symm

namespace Effect

variable {c : Choice} {w : World}

-- The row a lookup returns is in the database, matches the lookup, and is live at the clock
-- reading of the statement.

theorem run_getToken {str : String} {T : Token} (h : ((Effect.getToken str).run c w).1 = .ok (some T)) :
    T ∈ w.store.tokens ∧ T.token = str ∧ T.live c.time := by
  have h := (World.exec_read h).symm
  have hp := List.find?_some h
  simp only [Bool.and_eq_true, beq_iff_eq] at hp
  exact ⟨List.mem_of_find?_eq_some h, hp⟩

theorem run_getChallenge {str : String} {ch : Challenge}
    (h : ((Effect.getChallenge str).run c w).1 = .ok (some ch)) :
    ch ∈ w.store.challenges ∧ ch.challenge = str ∧ ch.live c.time := by
  have h := (World.exec_read h).symm
  have hp := List.find?_some h
  simp only [Bool.and_eq_true, beq_iff_eq] at hp
  exact ⟨List.mem_of_find?_eq_some h, hp⟩

theorem run_getAccountKeyByPublicKey {alg pk : String} {k : AccountKey}
    (h : ((Effect.getAccountKeyByPublicKey alg pk).run c w).1 = .ok (some k)) :
    k ∈ w.store.accountKeys ∧ k.algorithm = alg ∧ k.publicKey = pk ∧ k.active := by
  have h := (World.exec_read h).symm
  have hp := List.find?_some h
  simp only [Bool.and_eq_true, beq_iff_eq, and_assoc] at hp
  exact ⟨List.mem_of_find?_eq_some h, hp⟩

theorem run_getAccountKey {id : String} {k : AccountKey}
    (h : ((Effect.getAccountKey id).run c w).1 = .ok (some k)) : k ∈ w.store.accountKeys ∧ k.id = id := by
  obtain ⟨_, h⟩ := World.exec_ok h
  unfold Store.getAccountKey at h
  split at h
  · next k' hk =>
    obtain ⟨rfl, -⟩ : k' = k ∧ _ := by simpa [Except.map] using h
    exact ⟨List.mem_of_find?_eq_some hk, by simpa using List.find?_some hk⟩
  · simp [Except.map] at h

-- An insert of a key that succeeded found no row with its pair.
theorem run_createAccountKey {k₀ k : AccountKey} (h : ((Effect.createAccountKey k₀).run c w).1 = .ok k) :
    ∀ r ∈ w.store.accountKeys, r.algorithm = k₀.algorithm → r.publicKey ≠ k₀.publicKey := by
  obtain ⟨_, h⟩ := World.exec_ok h
  obtain ⟨hc, -, -⟩ := Store.createAccountKey_eq_ok.mp h
  simp only [Bool.or_eq_false_iff, List.any_eq_false, Bool.or_eq_true, Bool.and_eq_true, beq_iff_eq,
    not_or, not_and] at hc
  exact fun r hr => (hc.1 r hr).2

end Effect

end Slashclaw
