import Mathlib.Data.Nat.Digits
import Slashclaw.Api.Params

namespace Slashclaw

-- What `ParseInt(s, 10, 64)` accepts, as its documentation says: a sign `+` or `-` may lead, then
-- come the decimal digits `ds` of the value, most significant first and at least one, and the
-- signed value fits an int64.
def DecimalText (s : String) (n : Int) : Prop :=
  ∃ (neg : Bool) (ds : List Nat), ds ≠ [] ∧ (∀ d ∈ ds, d < 10) ∧
    (s.toList = ds.map Nat.digitChar ∧ neg = false ∨ s.toList = '+' :: ds.map Nat.digitChar ∧ neg = false ∨
      s.toList = '-' :: ds.map Nat.digitChar ∧ neg = true) ∧
    n = (if neg then -1 else 1) * ((Nat.ofDigits 10 ds.reverse : Nat) : Int) ∧ -2 ^ 63 ≤ n ∧ n < 2 ^ 63

theorem Char.isDigit_iff {c : Char} : c.isDigit = true ↔ 48 ≤ c.toNat ∧ c.toNat ≤ 57 := by
  simp only [Char.isDigit, ge_iff_le, Bool.and_eq_true, decide_eq_true_eq, UInt32.le_def, BitVec.le_def]
  rfl

-- The ten characters `Nat.digitChar` writes for the decimal digits.
theorem digitChar_spec : ∀ d, d < 10 → (Nat.digitChar d).isDigit = true ∧
    (Nat.digitChar d).toNat - '0'.toNat = d ∧ Nat.digitChar d ≠ '+' ∧ Nat.digitChar d ≠ '-' := by
  decide

theorem digitChar_eq_ofNat : ∀ d, d < 10 → Nat.digitChar d = Char.ofNat (48 + d) := by
  decide

theorem exists_digitChar_of_isDigit {c : Char} (h : c.isDigit = true) : ∃ d < 10, Nat.digitChar d = c := by
  obtain ⟨h₁, h₂⟩ := Char.isDigit_iff.mp h
  refine ⟨c.toNat - 48, by omega, ?_⟩
  rw [digitChar_eq_ofNat _ (by omega), Nat.add_sub_cancel' h₁, Char.ofNat_toNat]

-- The digit loop reads the digits most significant first.
theorem parseDigits_map {ds : List Nat} (h : ∀ d ∈ ds, d < 10) (n : Nat) :
    parseDigits (ds.map Nat.digitChar) n = some (n * 10 ^ ds.length + Nat.ofDigits 10 ds.reverse) := by
  induction ds generalizing n with
  | nil => simp [parseDigits]
  | cons d ds ih =>
    obtain ⟨hd, hv, -, -⟩ := digitChar_spec d (h d (.head _))
    rw [List.map_cons, parseDigits, if_pos hd, hv, ih fun d' h' => h d' (.tail _ h')]
    simp only [List.length_cons, List.reverse_cons, Nat.ofDigits_append, Nat.ofDigits_singleton,
      List.length_reverse]
    congr 1
    ring

-- The digit loop accepts nothing but decimal digits.
theorem parseDigits_eq_some {cs : List Char} {n m : Nat} (h : parseDigits cs n = some m) :
    ∃ ds : List Nat, (∀ d ∈ ds, d < 10) ∧ cs = ds.map Nat.digitChar := by
  induction cs generalizing n with
  | nil => exact ⟨[], List.forall_mem_nil _, rfl⟩
  | cons c cs ih =>
    rw [parseDigits] at h
    split at h
    · obtain ⟨d, hd, rfl⟩ := exists_digitChar_of_isDigit ‹_›
      obtain ⟨ds, hds, rfl⟩ := ih h
      exact ⟨d :: ds, List.forall_mem_cons.mpr ⟨hd, hds⟩, rfl⟩
    · cases h

theorem splitSign_digits {ds : List Nat} (h : ∀ d ∈ ds, d < 10) :
    splitSign (ds.map Nat.digitChar) = (false, ds.map Nat.digitChar) := by
  cases ds with
  | nil => rfl
  | cons d ds =>
    obtain ⟨-, -, hp, hm⟩ := digitChar_spec d (h d (.head _))
    unfold splitSign
    split
    · exact absurd (List.cons.inj ‹_›).1 hp
    · exact absurd (List.cons.inj ‹_›).1 hm
    · rfl

theorem eq_of_splitSign {l ds : List Char} {neg : Bool} (h : splitSign l = (neg, ds)) :
    l = ds ∧ neg = false ∨ l = '+' :: ds ∧ neg = false ∨ l = '-' :: ds ∧ neg = true := by
  unfold splitSign at h
  split at h <;> cases h <;> simp

theorem atoi_decimalText {s : String} {n : Int} (h : atoi s = some n) : DecimalText s n := by
  rcases hs : splitSign s.toList with ⟨neg, digits⟩
  simp only [atoi, hs] at h
  split at h
  · cases h
  rename_i hne
  split at h
  · cases h
  rename_i un hp
  obtain ⟨ds, hds, rfl⟩ := parseDigits_eq_some hp
  rw [parseDigits_map hds, zero_mul, zero_add] at hp
  cases hp
  refine ⟨neg, ds, fun h' => hne (by rw [h', List.map_nil]), hds, eq_of_splitSign hs, ?_⟩
  cases neg <;> simp only [Bool.false_eq_true, if_true, if_false] at h ⊢ <;> split at h <;> cases h <;>
    refine ⟨by ring, ?_, ?_⟩ <;> omega

theorem atoi_of_decimalText {s : String} {n : Int} (h : DecimalText s n) : atoi s = some n := by
  obtain ⟨neg, ds, hne, hds, hsign, rfl, hlo, hhi⟩ := h
  have hsplit : splitSign s.toList = (neg, ds.map Nat.digitChar) := by
    rcases hsign with ⟨h, rfl⟩ | ⟨h, rfl⟩ | ⟨h, rfl⟩ <;> rw [h]
    · exact splitSign_digits hds
    all_goals rfl
  simp only [atoi, hsplit, List.map_eq_nil_iff, hne, if_false, parseDigits_map hds, zero_mul, zero_add]
  cases neg <;> simp only [Bool.false_eq_true, if_true, if_false] at hlo hhi ⊢ <;>
    rw [if_pos (by omega)] <;> simp

-- `Atoi` accepts exactly the decimal texts of int64 values, and answers the value they denote.
theorem atoi_eq_some_iff (s : String) (n : Int) : atoi s = some n ↔ DecimalText s n :=
  ⟨atoi_decimalText, atoi_of_decimalText⟩

-- What `Nat.repr` writes: the digits of `Nat.digits`, most significant first.
theorem toDigitsCore_eq {f n : Nat} (hn : 0 < n) (hf : n < 10 ^ f) (ds : List Char) :
    Nat.toDigitsCore 10 f n ds = (Nat.digits 10 n).reverse.map Nat.digitChar ++ ds := by
  induction f generalizing n ds with
  | zero => rw [pow_zero] at hf; omega
  | succ f ih =>
    rw [Nat.toDigitsCore, Nat.digits_def' (by norm_num) hn]
    simp only [List.reverse_cons, List.map_append, List.map_cons, List.map_nil, List.append_assoc,
      List.singleton_append]
    split
    · rename_i h0
      rw [h0, Nat.digits_zero]
      rfl
    · rw [ih (Nat.pos_of_ne_zero ‹_›) ((Nat.div_lt_iff_lt_mul (by norm_num)).mpr (by rwa [← pow_succ]))]

theorem toString_toList {m : Nat} (hm : 0 < m) :
    (toString m).toList = (Nat.digits 10 m).reverse.map Nat.digitChar :=
  (toDigitsCore_eq hm ((Nat.lt_pow_self (by norm_num) m).trans (Nat.pow_lt_pow_right (by norm_num) m.lt_succ_self))
    []).trans (List.append_nil _)

theorem decimalText_toString (n : Int) (h₁ : -2 ^ 63 ≤ n) (h₂ : n < 2 ^ 63) : DecimalText (toString n) n := by
  have hdig : ∀ m, ∀ d ∈ (Nat.digits 10 m).reverse, d < 10 := fun _ _ hd =>
    Nat.digits_lt_base (by norm_num) (List.mem_reverse.mp hd)
  have hne : ∀ m, 0 < m → (Nat.digits 10 m).reverse ≠ [] := fun m hm => by
    simpa [Nat.digits_ne_nil_iff_ne_zero] using hm.ne'
  rcases n with m | m
  · rcases Nat.eq_zero_or_pos m with rfl | hm
    · exact ⟨false, [0], by simp, by simp, .inl ⟨rfl, rfl⟩, by simp, h₁, h₂⟩
    · refine ⟨false, (Nat.digits 10 m).reverse, hne m hm, hdig m, .inl ⟨toString_toList hm, rfl⟩, ?_, h₁, h₂⟩
      simp [Nat.ofDigits_digits]
  · refine ⟨true, (Nat.digits 10 (m + 1)).reverse, hne _ m.succ_pos, hdig _,
      .inr (.inr ⟨congrArg (List.cons '-') (toString_toList m.succ_pos), rfl⟩), ?_, h₁, h₂⟩
    rw [List.reverse_reverse, Nat.ofDigits_digits, Int.negSucc_eq]
    simp

-- The decimal text Lean prints for an int64 value, `Atoi` reads back as that value.
theorem atoi_toString (n : Int) (h₁ : -2 ^ 63 ≤ n) (h₂ : n < 2 ^ 63) : atoi (toString n) = some n :=
  atoi_of_decimalText (decimalText_toString n h₁ h₂)

-- The least int64 value.
theorem atoi_toString_min : atoi (toString (-2 ^ 63 : Int)) = some (-2 ^ 63) :=
  atoi_toString _ (le_refl _) (by norm_num)

-- Whatever its query, `ListStories` asks the store for a page of 1 to 100 stories.
theorem listOptions_limit_bounds (query : Query) :
    0 < (listOptions query).limit ∧ (listOptions query).limit ≤ 100 := by
  simp only [listOptions]
  split
  · split
    · split <;> omega
    · omega
  · omega

-- With no variable set, `Load` gives each field its default: the configuration the theorems about
-- the handlers start from.
theorem Config.loadFrom_empty (parseDuration : String → Option Duration) :
    Config.loadFrom parseDuration (fun _ => "") = Config.load :=
  rfl

end Slashclaw
