import Slashclaw.Effect.Replay
import Mathlib.Data.List.Nodup

namespace Slashclaw

-- A key row with its revocation forgotten: what no statement changes once the row is written.
def AccountKey.frozen (k : AccountKey) : AccountKey :=
  { k with revokedAt := none }

def Store.keysOf (s : Store) (A : String) : List AccountKey :=
  s.accountKeys.filter (·.accountID == A)

-- `PRIMARY KEY` on `account_keys.id` and `UNIQUE(algorithm, public_key)`.
def Store.KeysUnique (s : Store) : Prop :=
  (s.accountKeys.map (·.id)).Nodup ∧ (s.accountKeys.map fun k => (k.algorithm, k.publicKey)).Nodup

-- No statement deletes an account, a key or a token, and the only change to a written key row is
-- its revocation.
def Store.Grows (s s' : Store) : Prop :=
  s.accounts <+: s'.accounts ∧ s.accountKeys.map AccountKey.frozen <+: s'.accountKeys.map AccountKey.frozen ∧
    s.tokens <+: s'.tokens

namespace Store

variable {s s₁ s₂ : Store}

-- `RevokeAccountKey` writes `revoked_at` and nothing else.
theorem map_revoke {β : Type} (f : AccountKey → β) (hf : ∀ k t, f { k with revokedAt := some t } = f k)
    (id : String) (t : Time) : (s.revokeAccountKey id t).accountKeys.map f = s.accountKeys.map f := by
  simp only [revokeAccountKey, List.map_map]
  congr 1
  funext k
  simp only [Function.comp_apply]
  split
  · exact hf k t
  · rfl

@[simp] theorem frozen_revoke (id : String) (t : Time) :
    (s.revokeAccountKey id t).accountKeys.map AccountKey.frozen = s.accountKeys.map AccountKey.frozen :=
  map_revoke AccountKey.frozen (fun _ _ => rfl) id t

theorem revoke_keysUnique (id : String) (t : Time) (h : s.KeysUnique) :
    (s.revokeAccountKey id t).KeysUnique := by
  unfold KeysUnique
  rw [map_revoke (·.id) (fun _ _ => rfl), map_revoke (fun k => (k.algorithm, k.publicKey)) (fun _ _ => rfl)]
  exact h

theorem keysOf_revoke (id : String) (t : Time) (A : String)
    (h : ∀ k ∈ s.keysOf A, k.id ≠ id) : (s.revokeAccountKey id t).keysOf A = s.keysOf A := by
  have hp : s.accountKeys.filter ((·.accountID == A) ∘
      fun k => if k.id == id then { k with revokedAt := some t } else k) = s.keysOf A :=
    List.filter_congr fun k _ => by simp only [Function.comp_apply]; split <;> rfl
  simp only [keysOf, revokeAccountKey, List.filter_map] at hp ⊢
  rw [hp]
  refine (List.map_congr_left fun k hk => ?_).trans (List.map_id' _)
  simp [h k hk]

theorem Grows.refl (s : Store) : s.Grows s :=
  ⟨List.prefix_refl _, List.prefix_refl _, List.prefix_refl _⟩

theorem Grows.trans (h₁ : s.Grows s₁) (h₂ : s₁.Grows s₂) : s.Grows s₂ :=
  ⟨h₁.1.trans h₂.1, h₁.2.1.trans h₂.2.1, h₁.2.2.trans h₂.2.2⟩

-- A key row lives on with everything but its revocation.
theorem Grows.key_mem (h : s₁.Grows s₂) {k : AccountKey} (hk : k ∈ s₁.accountKeys) :
    ∃ k' ∈ s₂.accountKeys, k'.frozen = k.frozen := by
  simpa using h.2.1.subset (List.mem_map_of_mem _ hk)

-- With unique ids, the row of an id is the one read under that id at any earlier moment.
theorem KeysUnique.accountID_eq (hu : s₂.KeysUnique) (hg : s₁.Grows s₂) {k₁ k₂ : AccountKey}
    (h₁ : k₁ ∈ s₁.accountKeys) (h₂ : k₂ ∈ s₂.accountKeys) (hid : k₂.id = k₁.id) :
    k₂.accountID = k₁.accountID := by
  obtain ⟨k, hk, hf⟩ := hg.key_mem h₁
  have hid' : k.id = k₁.id := congrArg (·.frozen.id) hf
  obtain rfl := List.inj_on_of_nodup_map hu.1 h₂ hk (hid.trans hid'.symm)
  exact congrArg (·.frozen.accountID) hf

end Store

namespace Prog.Event

-- The three ways a statement touches `account_keys`.
theorem apply_accountKeys (t : Time) (s : Store) (ev : Event) :
    (ev.apply t s).accountKeys = s.accountKeys ∨
      (∃ k₀ k, ev = ⟨.createAccountKey k₀, .ok k⟩ ∧
        (ev.apply t s).accountKeys = s.accountKeys ++ [{ k with revokedAt := none }]) ∨
      ∃ id, ev = ⟨.revokeAccountKey id, .ok ()⟩ ∧ ev.apply t s = s.revokeAccountKey id t := by
  obtain ⟨e, a⟩ := ev
  cases e
  case createAccountKey k₀ =>
    rcases a with _ | k
    · exact .inl rfl
    · exact .inr (.inl ⟨k₀, k, rfl, rfl⟩)
  case revokeAccountKey id =>
    rcases a with _ | ⟨⟩
    · exact .inl rfl
    · exact .inr (.inr ⟨id, rfl, rfl⟩)
  all_goals first
    | exact .inl rfl
    | (rcases a with _ | _ <;> exact .inl rfl)

theorem apply_tokens (t : Time) (s : Store) {e : Effect} (a : e.Answer) (he : ∀ T₀, e ≠ .createToken T₀) :
    (apply t s ⟨e, a⟩).tokens = s.tokens := by
  cases e
  case createToken T₀ => exact absurd rfl (he T₀)
  case revokeAccountKey => rcases a with _ | ⟨⟩ <;> rfl
  all_goals first
    | rfl
    | (rcases a with _ | _ <;> rfl)

theorem apply_grows (t : Time) (s : Store) (ev : Event) : s.Grows (ev.apply t s) := by
  obtain ⟨e, a⟩ := ev
  cases e
  case revokeAccountKey id =>
    rcases a with _ | ⟨⟩
    · exact .refl s
    · refine ⟨List.prefix_refl _, ?_, List.prefix_refl _⟩
      show _ <+: (s.revokeAccountKey id t).accountKeys.map _
      simp only [Store.frozen_revoke, List.prefix_refl]
  case createAccount | createAccountKey | createToken =>
    rcases a with _ | _
    · exact .refl s
    · first
        | exact ⟨List.prefix_append _ _, List.prefix_refl _, List.prefix_refl _⟩
        | exact ⟨List.prefix_refl _, List.map_append .. ▸ List.prefix_append _ _, List.prefix_refl _⟩
        | exact ⟨List.prefix_refl _, List.prefix_refl _, List.prefix_append _ _⟩
  all_goals first
    | exact .refl s
    | (rcases a with _ | _ <;> exact .refl s)

end Prog.Event

namespace Effect.Can

variable {s s' : Store} {e : Effect} {a : e.Answer}

theorem grows (h : Effect.Can s e a s') : s.Grows s' := by
  obtain ⟨t, rfl⟩ := h.apply
  exact Prog.Event.apply_grows t s _

theorem keysUnique (h : Effect.Can s e a s') (hu : s.KeysUnique) : s'.KeysUnique := by
  cases e
  case createAccountKey k =>
    obtain ⟨u, t, -, h⟩ := h
    rcases h.cases with ⟨_, -, rfl⟩ | ⟨b, hr, -⟩
    · exact hu
    · obtain ⟨hc, -, rfl⟩ := Store.createAccountKey_eq_ok.mp hr
      simp only [Bool.or_eq_false_iff, List.any_eq_false, Bool.or_eq_true, Bool.and_eq_true, beq_iff_eq,
        not_or, not_and] at hc
      refine ⟨?_, ?_⟩
      · rw [List.map_append, List.nodup_append]
        refine ⟨hu.1, List.nodup_singleton _, fun x hx hx' => ?_⟩
        obtain ⟨k', hk', rfl⟩ := List.mem_map.mp hx
        exact (hc.1 k' hk').1 (List.mem_singleton.mp hx')
      · rw [List.map_append, List.nodup_append]
        refine ⟨hu.2, List.nodup_singleton _, fun x hx hx' => ?_⟩
        obtain ⟨k', hk', rfl⟩ := List.mem_map.mp hx
        have hx' := Prod.mk.inj (List.mem_singleton.mp hx')
        exact (hc.1 k' hk').2 hx'.1 hx'.2
  all_goals
    obtain ⟨t, ht⟩ := h.apply
    rw [ht]
    rcases Prog.Event.apply_accountKeys t s ⟨_, a⟩ with h | ⟨_, _, h, -⟩ | ⟨id, h, h'⟩
    · exact ⟨by rw [h]; exact hu.1, by rw [h]; exact hu.2⟩
    · cases h
    · rw [h']
      exact Store.revoke_keysUnique id t hu

-- How a statement may change the keys of an account: add a row of it, or revoke one of its rows.
theorem keysOf_change {A : String} (h : Effect.Can s e a s') (hA : s'.keysOf A ≠ s.keysOf A) :
    (∃ k₀ k, (⟨e, a⟩ : Prog.Event) = ⟨.createAccountKey k₀, .ok k⟩ ∧ k₀.accountID = A ∧
      s'.keysOf A = s.keysOf A ++ [{ k with revokedAt := none }]) ∨
    ∃ id t, (⟨e, a⟩ : Prog.Event) = ⟨.revokeAccountKey id, .ok ()⟩ ∧ s' = s.revokeAccountKey id t ∧
      ∃ k ∈ s.keysOf A, k.id = id := by
  by_cases he : ∃ k₀, e = .createAccountKey k₀
  · obtain ⟨k₀, rfl⟩ := he
    obtain ⟨u, t, -, h⟩ := h
    rcases h.cases with ⟨_, -, rfl⟩ | ⟨b, hr, rfl⟩
    · exact absurd rfl hA
    · obtain ⟨-, rfl, rfl⟩ := Store.createAccountKey_eq_ok.mp hr
      by_cases hk : k₀.accountID = A
      · exact .inl ⟨k₀, _, rfl, hk, by simp [Store.keysOf, List.filter_append, hk]⟩
      · exact absurd (by simp [Store.keysOf, List.filter_append, hk]) hA
  · obtain ⟨t, rfl⟩ := h.apply
    rcases Prog.Event.apply_accountKeys t s ⟨e, a⟩ with h | ⟨k₀, _, h, -⟩ | ⟨id, h, h'⟩
    · exact absurd (by simp only [Store.keysOf, h]) hA
    · cases h
      exact absurd ⟨k₀, rfl⟩ he
    · refine .inr ⟨id, t, h, h', ?_⟩
      by_contra hn
      push_neg at hn
      exact hA (by rw [h', Store.keysOf_revoke id t A hn])

-- A key insert that succeeded appended the key it was given, under the id and time it got.
theorem createAccountKey_ok {k₀ k : AccountKey} (h : Effect.Can s (.createAccountKey k₀) (.ok k) s') :
    s'.accountKeys = s.accountKeys ++ [{ k with revokedAt := none }] ∧ k.algorithm = k₀.algorithm ∧
      k.publicKey = k₀.publicKey := by
  obtain ⟨u, t, -, h⟩ := h
  rcases h.cases with ⟨_, h, -⟩ | ⟨b, hr, h⟩
  · cases h
  · cases h
    obtain ⟨-, rfl, rfl⟩ := Store.createAccountKey_eq_ok.mp hr
    exact ⟨rfl, rfl, rfl⟩

-- A token row is written only by `CreateToken`, as its argument with the id filled in and the
-- expiry cut to the second.
theorem token_mem (h : Effect.Can s e a s') {T : Token} (hT : T ∈ s'.tokens) :
    T ∈ s.tokens ∨ ∃ T₀, e = .createToken T₀ ∧ T = { T₀ with id := T.id, expiresAt := T.expiresAt } := by
  by_cases he : ∃ T₀, e = .createToken T₀
  · obtain ⟨T₀, rfl⟩ := he
    obtain ⟨u, -, h⟩ := h
    rcases h.cases with ⟨_, -, rfl⟩ | ⟨b, hr, -⟩
    · exact .inl hT
    · obtain ⟨-, -, rfl⟩ := Store.createToken_eq_ok.mp hr
      rcases List.mem_append.mp hT with hT | hT
      · exact .inl hT
      · exact .inr ⟨T₀, rfl, by rw [List.mem_singleton.mp hT]⟩
  · obtain ⟨t, rfl⟩ := h.apply
    rw [Prog.Event.apply_tokens t s a fun T₀ h => he ⟨T₀, h⟩] at hT
    exact .inl hT

end Effect.Can

end Slashclaw
