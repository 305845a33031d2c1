import Slashclaw.Store.SQLite

namespace Slashclaw

theorem Except.map_eq_ok' {ε α β : Type} {x : Except ε α} {f : α → β} {b : β} :
    x.map f = .ok b ↔ ∃ a, x = .ok a ∧ f a = b := by
  cases x <;> simp [Except.map]

theorem insertRow_eq_ok {ρ : Type} {rows rows' : List ρ} {clash : ρ → Bool} {p : Bool} {row : ρ} :
    insertRow rows clash p row = .ok rows' ↔ (rows.any clash || !p) = false ∧ rows' = rows ++ [row] := by
  unfold insertRow
  split <;> rename_i h
  · exact ⟨fun h' => (by cases h'), fun ⟨h', _⟩ => by simp [h'] at h⟩
  · exact ⟨fun h' => (by cases h'; exact ⟨by simpa using h, rfl⟩), fun ⟨_, h'⟩ => h' ▸ rfl⟩

-- Every `Create` statement is an `insertRow` whose result is handed back with the new table.
theorem insertRow_map_eq_ok {ρ β : Type} {rows : List ρ} {clash : ρ → Bool} {p : Bool} {row : ρ}
    {b₀ b : β} {f : List ρ → Store} {s' : Store} :
    (insertRow rows clash p row).map (fun rows => (b₀, f rows)) = .ok (b, s') ↔
      (rows.any clash || !p) = false ∧ b = b₀ ∧ s' = f (rows ++ [row]) := by
  simp only [Except.map_eq_ok', insertRow_eq_ok, Prod.mk.injEq]
  constructor
  · rintro ⟨_, ⟨h, rfl⟩, rfl, rfl⟩
    exact ⟨h, rfl, rfl⟩
  · rintro ⟨h, rfl, rfl⟩
    exact ⟨_, ⟨h, rfl⟩, rfl, rfl⟩

namespace Store

variable {s s' : Store} {u : String} {t : Time}

theorem createStory_eq_ok {st b : Story} : s.createStory st u t = .ok (b, s') ↔
    let b₀ := { st with id := if st.id = "" then u else st.id,
                        createdAt := if st.createdAt = zeroTime then t else st.createdAt }
    (s.stories.any (·.id == b₀.id)) = false ∧ b = b₀ ∧ s' = { s with stories := s.stories ++ [b₀] } := by
  simp only [createStory, insertRow_map_eq_ok, Bool.not_true, Bool.or_false]

theorem createComment_eq_ok {c b : Comment} : s.createComment c u t = .ok (b, s') ↔
    let b₀ := { c with id := if c.id = "" then u else c.id,
                       createdAt := if c.createdAt = zeroTime then t else c.createdAt }
    (s.comments.any (·.id == b₀.id) || !s.stories.any (·.id == c.storyID)) = false ∧ b = b₀ ∧
      s' = { s with comments := s.comments ++ [b₀] } := by
  simp only [createComment, insertRow_map_eq_ok]

theorem createVote_eq_ok {v b : Vote} : s.createVote v u t = .ok (b, s') ↔
    let b₀ := { v with id := if v.id = "" then u else v.id,
                       createdAt := if v.createdAt = zeroTime then t else v.createdAt }
    (s.votes.any fun w => w.id == b₀.id || w.uniqueClash b₀) = false ∧ b = b₀ ∧
      s' = { s with votes := s.votes ++ [b₀] } := by
  simp only [createVote, insertRow_map_eq_ok, Bool.not_true, Bool.or_false]

theorem createAccount_eq_ok {a b : Account} : s.createAccount a u t = .ok (b, s') ↔
    let b₀ := { a with id := if a.id = "" then u else a.id,
                       createdAt := if a.createdAt = zeroTime then t else a.createdAt }
    (s.accounts.any (·.id == b₀.id)) = false ∧ b = b₀ ∧ s' = { s with accounts := s.accounts ++ [b₀] } := by
  simp only [createAccount, insertRow_map_eq_ok, Bool.not_true, Bool.or_false]

theorem createAccountKey_eq_ok {k b : AccountKey} : s.createAccountKey k u t = .ok (b, s') ↔
    let b₀ := { k with id := if k.id = "" then u else k.id,
                       createdAt := if k.createdAt = zeroTime then t else k.createdAt }
    (s.accountKeys.any (fun k' => k'.id == b₀.id ||
        (k'.algorithm == k.algorithm && k'.publicKey == k.publicKey)) ||
      !s.accounts.any (·.id == k.accountID)) = false ∧ b = b₀ ∧
      s' = { s with accountKeys := s.accountKeys ++ [{ b₀ with revokedAt := none }] } := by
  simp only [createAccountKey, insertRow_map_eq_ok]

theorem createChallenge_eq_ok {c b : Challenge} : s.createChallenge c u = .ok (b, s') ↔
    let b₀ := { c with id := if c.id = "" then u else c.id }
    (s.challenges.any fun c' => c'.id == b₀.id || c'.challenge == c.challenge) = false ∧ b = b₀ ∧
      s' = { s with challenges := s.challenges ++ [{ b₀ with expiresAt := truncSecond c.expiresAt }] } := by
  simp only [createChallenge, insertRow_map_eq_ok, Bool.not_true, Bool.or_false]

theorem createToken_eq_ok {tk b : Token} : s.createToken tk u = .ok (b, s') ↔
    let b₀ := { tk with id := if tk.id = "" then u else tk.id }
    (s.tokens.any fun t' => t'.id == b₀.id || t'.token == tk.token) = false ∧ b = b₀ ∧
      s' = { s with tokens := s.tokens ++ [{ b₀ with expiresAt := truncSecond tk.expiresAt }] } := by
  simp only [createToken, insertRow_map_eq_ok, Bool.not_true, Bool.or_false]

end Store

end Slashclaw
