import Slashclaw.Store.DateTime
import Slashclaw.Store.SQLite
import Mathlib.Data.List.Lex
import Mathlib.Data.String.Basic
import Mathlib.Data.Nat.Digits

namespace Slashclaw

section Calendar

-- The day of an era as a numeral in centuries, cycles of four years, years and days, whose last
-- digit reaches 365 only in the leap years.
theorem yearOfEra_cycles {a : Nat} (h : a < 146097) : ∃ c q y, (yearOfEra a).year = 100 * c + 4 * q + y ∧
    a = 36524 * c + 1461 * q + 365 * y + (yearOfEra a).day ∧ c ≤ 3 ∧ y ≤ 3 ∧ q ≤ 24 ∧
    ((yearOfEra a).day ≤ 364 ∨ y = 3 ∧ (yearOfEra a).day = 365 ∧ (q ≤ 23 ∨ c = 3)) := by
  refine ⟨a / 36524 - a / 36524 / 4, (a - 36524 * (a / 36524 - a / 36524 / 4)) / 1461,
    (a - 36524 * (a / 36524 - a / 36524 / 4)) % 1461 / 365 - (a - 36524 * (a / 36524 - a / 36524 / 4)) % 1461 / 365 / 4, ?_⟩
  simp only [yearOfEra, true_and]
  omega

theorem yearOfEra_lt {a b : Nat} (hab : a < b) (hb : b < 146097) :
    (yearOfEra a).year < (yearOfEra b).year ∨
      (yearOfEra a).year = (yearOfEra b).year ∧ (yearOfEra a).day < (yearOfEra b).day := by
  obtain ⟨c₁, q₁, y₁, h₁⟩ := yearOfEra_cycles (show a < 146097 by omega)
  obtain ⟨c₂, q₂, y₂, h₂⟩ := yearOfEra_cycles hb
  omega

theorem yearOfEra_bounds {a : Nat} (h : a < 146097) : (yearOfEra a).year < 400 ∧ (yearOfEra a).day < 366 := by
  obtain ⟨c, q, y, h⟩ := yearOfEra_cycles h
  omega

theorem monthOfYear_lt {a b : Nat} (hab : a < b) :
    (monthOfYear a).1 < (monthOfYear b).1 ∨
      (monthOfYear a).1 = (monthOfYear b).1 ∧ (monthOfYear a).2 < (monthOfYear b).2 := by
  simp only [monthOfYear]
  omega

theorem monthOfYear_bounds {a : Nat} (h : a < 366) :
    (monthOfYear a).1 < 12 ∧ 1 ≤ (monthOfYear a).2 ∧ (monthOfYear a).2 ≤ 31 := by
  simp only [monthOfYear]
  omega

-- The order of dates, field by field.
def Date.Before (a b : Date) : Prop :=
  a.year < b.year ∨ a.year = b.year ∧ (a.month < b.month ∨ a.month = b.month ∧ a.day < b.day)

theorem civilFromDays_bounds (z : Int) :
    1 ≤ (civilFromDays z).month ∧ (civilFromDays z).month ≤ 12 ∧ 1 ≤ (civilFromDays z).day ∧
      (civilFromDays z).day ≤ 31 := by
  have := monthOfYear_bounds (yearOfEra_bounds (a := ((z + 719468) % 146097).toNat) (by omega)).2
  simp only [civilFromDays]
  split_ifs <;> omega

-- The year of the `z`-th day after 1970-01-01 counted from March, and the day of that year.
def marchYear (z : Int) : Int × Nat :=
  (400 * ((z + 719468) / 146097) + (yearOfEra ((z + 719468) % 146097).toNat).year,
    (yearOfEra ((z + 719468) % 146097).toNat).day)

theorem marchYear_day_lt (z : Int) : (marchYear z).2 < 366 :=
  (yearOfEra_bounds (by omega)).2

-- Eras, and the years and days within an era, are the digits of a mixed-radix numeral of the day.
theorem marchYear_lt {z₁ z₂ : Int} (h : z₁ < z₂) :
    (marchYear z₁).1 < (marchYear z₂).1 ∨ (marchYear z₁).1 = (marchYear z₂).1 ∧ (marchYear z₁).2 < (marchYear z₂).2 := by
  unfold marchYear
  by_cases he : (z₁ + 719468) / 146097 = (z₂ + 719468) / 146097
  · have := yearOfEra_lt (a := ((z₁ + 719468) % 146097).toNat) (b := ((z₂ + 719468) % 146097).toNat) (by omega) (by omega)
    omega
  · have := (yearOfEra_bounds (a := ((z₁ + 719468) % 146097).toNat) (by omega)).1
    have := (yearOfEra_bounds (a := ((z₂ + 719468) % 146097).toNat) (by omega)).1
    omega

-- January and February end the year counted from March: counting months from year 0, the date's
-- month is the March-based one moved by March's place.
theorem civilFromDays_month (z : Int) :
    12 * (civilFromDays z).year + (civilFromDays z).month = 12 * (marchYear z).1 + (monthOfYear (marchYear z).2).1 + 3 ∧
      (civilFromDays z).day = (monthOfYear (marchYear z).2).2 := by
  have := (monthOfYear_bounds (marchYear_day_lt z)).1
  simp only [civilFromDays, marchYear, and_true] at this ⊢
  split_ifs <;> omega

-- Days in order have dates in order.
theorem civilFromDays_before {z₁ z₂ : Int} (h : z₁ < z₂) : (civilFromDays z₁).Before (civilFromDays z₂) := by
  have := civilFromDays_month z₁
  have := civilFromDays_month z₂
  have := civilFromDays_bounds z₁
  have := civilFromDays_bounds z₂
  have := (monthOfYear_bounds (marchYear_day_lt z₁)).1
  have := (monthOfYear_bounds (marchYear_day_lt z₂)).1
  unfold Date.Before
  rcases marchYear_lt h with hy | ⟨hy, hd⟩
  · omega
  · have := monthOfYear_lt hd
    omega

theorem civilFromDays_year_mono {z₁ z₂ : Int} (h : z₁ ≤ z₂) : (civilFromDays z₁).year ≤ (civilFromDays z₂).year := by
  rcases h.lt_or_eq with h | rfl
  · have := civilFromDays_before h
    unfold Date.Before at this
    omega
  · exact le_rfl

-- The four-digit years are the days from 0000-01-01 to 9999-12-31.
theorem civilFromDays_fourDigit (z : Int) :
    0 ≤ (civilFromDays z).year ∧ (civilFromDays z).year ≤ 9999 ↔ -719528 ≤ z ∧ z < 2932897 := by
  have h₀ : (civilFromDays (-719529)).year = -1 ∧ (civilFromDays (-719528)).year = 0 := by decide
  have h₁ : (civilFromDays 2932896).year = 9999 ∧ (civilFromDays 2932897).year = 10000 := by decide
  constructor
  · rintro ⟨hl, hu⟩
    constructor
    · by_contra h
      have := civilFromDays_year_mono (show z ≤ -719529 by omega)
      omega
    · by_contra h
      have := civilFromDays_year_mono (show 2932897 ≤ z by omega)
      omega
  · rintro ⟨hl, hu⟩
    have := civilFromDays_year_mono hl
    have := civilFromDays_year_mono (show z ≤ 2932896 by omega)
    omega

theorem fourDigitYear_iff (t : Time) :
    FourDigitYear t ↔ -719528 ≤ t / second / 86400 ∧ t / second / 86400 < 2932897 :=
  civilFromDays_fourDigit _

end Calendar

section Text

variable {α : Type} {w a b : Nat}

theorem lex_append {r : α → α → Prop} {l₁ l₂ : List α} (c d : List α) (hl : l₁.length = l₂.length)
    (h : List.Lex r l₁ l₂) : List.Lex r (l₁ ++ c) (l₂ ++ d) := by
  induction h with
  | nil => simp at hl
  | cons _ ih => exact .cons (ih (by simpa using hl))
  | rel h => exact .rel h

theorem utod_lt (hab : a < b) (hb : b < 10) : utod a < utod b :=
  have : ∀ b < 10, ∀ a < b, utod a < utod b := by decide
  this b hb a hab

@[simp]
theorem lowDigits_length (w u : Nat) : (lowDigits w u).length = w := by
  induction w generalizing u <;> simp [lowDigits, *]

-- Fixed-width numerals compare as the numbers they write.
theorem lowDigits_lt (hab : a < b) (hb : b < 10 ^ w) : lowDigits w a < lowDigits w b := by
  induction w generalizing a b with
  | zero => omega
  | succ w ih =>
    simp only [lowDigits]
    by_cases h : a / 10 = b / 10
    · rw [h]
      exact List.Lex.append_left _ (.rel (utod_lt (by omega) (by omega))) _
    · exact lex_append _ _ (by simp) (ih (by omega) (by rw [Nat.pow_succ] at hb; omega))

theorem lowDigits_append_lt {c : Char} {l₁ l₂ : List Char} (hb : b < 10 ^ w) (h : a < b ∨ a = b ∧ l₁ < l₂) :
    lowDigits w a ++ c :: l₁ < lowDigits w b ++ c :: l₂ := by
  rcases h with h | ⟨rfl, h⟩
  · exact lex_append _ _ (by simp) (lowDigits_lt h hb)
  · exact List.Lex.append_left _ (.cons h) _

theorem appendInt_two {u : Nat} (h : u < 100) : appendInt u 2 = lowDigits 2 u := by
  have : u / 10 % 10 = u / 10 := by omega
  simp [appendInt, lowDigits, h, this, Int.natCast_nonneg]

theorem appendInt_four {x : Int} (h₀ : 0 ≤ x) (h : x.natAbs < 10000) : appendInt x 4 = lowDigits 4 x.natAbs := by
  have h₁ : x.natAbs / 10 / 10 / 10 % 10 = x.natAbs / 1000 := by omega
  have h₂ : x.natAbs / 10 / 10 % 10 = x.natAbs / 100 % 10 := by omega
  simp [appendInt, lowDigits, h, h₁, h₂, not_lt.mpr h₀]

theorem secondOfDay_lt (t : Time) : secondOfDay t < 86400 := by
  unfold secondOfDay
  omega

-- The text both sides write for a date with a four-digit year and a second of the day.
def layout (d : Date) (s : Nat) : List Char :=
  lowDigits 4 d.year.natAbs ++ '-' :: (lowDigits 2 d.month ++ '-' :: (lowDigits 2 d.day ++ ' ' ::
    (lowDigits 2 (s / 3600) ++ ':' :: (lowDigits 2 (s % 3600 / 60) ++ ':' :: lowDigits 2 (s % 60)))))

theorem dateOf_bounds (t : Time) :
    1 ≤ (dateOf t).month ∧ (dateOf t).month ≤ 12 ∧ 1 ≤ (dateOf t).day ∧ (dateOf t).day ≤ 31 :=
  civilFromDays_bounds _

theorem expiresAtStr_toList {t : Time} (h : FourDigitYear t) :
    (expiresAtStr t).toList = layout (dateOf t) (secondOfDay t) := by
  have := dateOf_bounds t
  have := secondOfDay_lt t
  unfold FourDigitYear at h
  simp (disch := omega) only [expiresAtStr, layout, String.toList, appendInt_four h.1 (by omega), appendInt_two]

theorem datetimeNow_toList {t : Time} (h : FourDigitYear t) :
    (datetimeNow t).toList = layout (dateOf t) (secondOfDay t) := by
  simp [datetimeNow, layout, String.toList, not_lt.mpr h.1]

theorem clock_lt {s₁ s₂ : Nat} (hs : s₁ < s₂) (h : s₂ < 86400) :
    lowDigits 2 (s₁ / 3600) ++ ':' :: (lowDigits 2 (s₁ % 3600 / 60) ++ ':' :: lowDigits 2 (s₁ % 60)) <
      lowDigits 2 (s₂ / 3600) ++ ':' :: (lowDigits 2 (s₂ % 3600 / 60) ++ ':' :: lowDigits 2 (s₂ % 60)) := by
  refine lowDigits_append_lt (by omega) ?_
  by_cases hh : s₁ / 3600 = s₂ / 3600
  · refine .inr ⟨hh, lowDigits_append_lt (by omega) ?_⟩
    by_cases hm : s₁ % 3600 / 60 = s₂ % 3600 / 60
    · exact .inr ⟨hm, lowDigits_lt (by omega) (by omega)⟩
    · exact .inl (by omega)
  · exact .inl (by omega)

-- Dates in order, or one date and seconds in order, have their texts in order.
theorem layout_lt {d₁ d₂ : Date} {s₁ s₂ : Nat} (hy₁ : 0 ≤ d₁.year) (hy₂ : 0 ≤ d₂.year ∧ d₂.year ≤ 9999)
    (hm : d₂.month ≤ 12) (hd : d₂.day ≤ 31) (hs : s₂ < 86400) (h : d₁.Before d₂ ∨ d₁ = d₂ ∧ s₁ < s₂) :
    layout d₁ s₁ < layout d₂ s₂ := by
  unfold layout
  refine lowDigits_append_lt (by omega) ?_
  rcases h with (hy | ⟨hy, hm' | ⟨hm', hd'⟩⟩) | ⟨rfl, hs'⟩
  · exact .inl (by omega)
  · exact .inr ⟨by omega, lowDigits_append_lt (by omega) (.inl hm')⟩
  · exact .inr ⟨by omega, lowDigits_append_lt (by omega) (.inr ⟨hm', lowDigits_append_lt (by omega) (.inl hd')⟩)⟩
  · exact .inr ⟨rfl, lowDigits_append_lt (by omega) (.inr ⟨rfl, lowDigits_append_lt (by omega) (.inr ⟨rfl,
      clock_lt hs' hs⟩)⟩)⟩

-- Instants in order of their seconds have their texts in order.
theorem layout_dateOf_lt {t₁ t₂ : Time} (h₁ : FourDigitYear t₁) (h₂ : FourDigitYear t₂) (h : t₁ / second < t₂ / second) :
    layout (dateOf t₁) (secondOfDay t₁) < layout (dateOf t₂) (secondOfDay t₂) := by
  unfold Time at *
  refine layout_lt h₁.1 h₂ (dateOf_bounds t₂).2.1 (dateOf_bounds t₂).2.2.2 (secondOfDay_lt t₂) ?_
  by_cases hz : t₁ / second / 86400 = t₂ / second / 86400
  · refine .inr ⟨by rw [dateOf, dateOf, hz], ?_⟩
    unfold secondOfDay
    omega
  · exact .inl (civilFromDays_before (by omega))

theorem layout_dateOf_lt_iff {t₁ t₂ : Time} (h₁ : FourDigitYear t₁) (h₂ : FourDigitYear t₂) :
    layout (dateOf t₁) (secondOfDay t₁) < layout (dateOf t₂) (secondOfDay t₂) ↔ t₁ / second < t₂ / second := by
  refine ⟨fun h => ?_, layout_dateOf_lt h₁ h₂⟩
  rcases lt_trichotomy (t₁ / second) (t₂ / second) with hlt | heq | hgt
  · exact hlt
  · rw [dateOf, dateOf, secondOfDay, secondOfDay, heq] at h
    exact absurd h (lt_irrefl _)
  · exact absurd h (lt_asymm (layout_dateOf_lt h₂ h₁ hgt))

end Text

section Fraction

variable {w u : Nat}

theorem lowDigits_zero (w : Nat) : lowDigits w 0 = List.replicate w '0' := by
  induction w with
  | zero => rfl
  | succ w ih => rw [lowDigits, ih, List.replicate_succ']; rfl

-- A numeral below `10 ^ k` written in more digits is padded with zeros.
theorem lowDigits_add (j : Nat) {k : Nat} (h : u < 10 ^ k) : lowDigits (j + k) u = List.replicate j '0' ++ lowDigits k u := by
  induction k generalizing u with
  | zero => rw [Nat.pow_zero, Nat.lt_one_iff] at h; subst h; rw [Nat.add_zero, lowDigits_zero, lowDigits, List.append_nil]
  | succ k ih =>
    rw [← Nat.add_assoc, lowDigits, lowDigits, ih (by rw [Nat.pow_succ] at h; omega), List.append_assoc]

theorem digitChar_eq_utod : ∀ d, d < 10 → Nat.digitChar d = utod d := by
  decide

-- `toDigitsCore` with enough fuel writes the digits of the number, with no leading zero.
theorem toDigitsCore_lowDigits : ∀ {f : Nat} (u : Nat) (ds : List Char), u < f →
    ∃ k, u < 10 ^ k ∧ Nat.toDigitsCore 10 f u ds = lowDigits k u ++ ds
  | 0, _, _, h => absurd h (Nat.not_lt_zero _)
  | f + 1, u, ds, h => by
    rw [Nat.toDigitsCore, digitChar_eq_utod _ (Nat.mod_lt _ (by decide))]
    split
    · exact ⟨1, by omega, by simp [lowDigits, Nat.mod_eq_of_lt (show u < 10 by omega)]⟩
    · obtain ⟨k, hk, e⟩ := toDigitsCore_lowDigits (f := f) (u / 10) (utod (u % 10) :: ds) (by omega)
      exact ⟨k + 1, by rw [Nat.pow_succ]; omega, by rw [e, lowDigits, List.append_assoc]; rfl⟩

theorem appendInt_nine (h : u < 10 ^ 9) : appendInt u 9 = lowDigits 9 u := by
  obtain ⟨k, hk, e⟩ := toDigitsCore_lowDigits (f := u + 1) u [] (Nat.lt_succ_self u)
  rw [List.append_nil] at e
  have hlen : k ≤ 9 := by
    have := Nat.toDigitsCore_length 10 (by decide) (u + 1) u 9 h (by decide)
    rwa [e, lowDigits_length] at this
  have e' : Nat.toDigits 10 u = lowDigits k u := e
  have hu : ¬(u : Int) < 0 := by omega
  simp [appendInt, e', hu]
  rw [← lowDigits_add _ hk, Nat.sub_add_cancel hlen]

theorem dropTrailingZeros_cons (c : Char) (cs : List Char) :
    dropTrailingZeros (c :: cs) = [] ∨ dropTrailingZeros (c :: cs) = c :: dropTrailingZeros cs := by
  simp only [dropTrailingZeros]
  split
  · next h => split <;> simp [h]
  · exact .inr rfl

theorem dropTrailingZeros_cons_of_ne {c : Char} (cs : List Char) (h : c ≠ '0' ∨ dropTrailingZeros cs ≠ []) :
    dropTrailingZeros (c :: cs) = c :: dropTrailingZeros cs := by
  simp only [dropTrailingZeros]
  split
  · next hn => simp [hn, h.resolve_right (by simp [hn])]
  · rfl

-- Digit lists of one length in order stay in order with their trailing zeros cut, whatever follows
-- the larger, as long as what follows the smaller starts below `0`.
theorem dropTrailingZeros_lt {X Y t₁ t₂ : List Char} {a : Char} (hX : ∀ c ∈ X, '0' ≤ c) (hl : X.length = Y.length)
    (h : X < Y) (ha : a < '0') : dropTrailingZeros X ++ a :: t₁ < dropTrailingZeros Y ++ t₂ ∧ dropTrailingZeros Y ≠ [] := by
  induction h with
  | nil => simp at hl
  | @cons c l₁ l₂ _ ih =>
    obtain ⟨ih, hne⟩ := ih (fun d hd => hX d (.tail _ hd)) (by simpa using hl)
    rw [dropTrailingZeros_cons_of_ne _ (.inr hne)]
    refine ⟨?_, List.cons_ne_nil _ _⟩
    rcases dropTrailingZeros_cons c l₁ with e | e <;> rw [e]
    · exact .rel (lt_of_lt_of_le ha (hX c (.head _)))
    · exact .cons ih
  | @rel x l₁ y l₂ hxy =>
    have hx := hX x (.head _)
    rw [dropTrailingZeros_cons_of_ne _ (.inl (ne_of_gt (lt_of_le_of_lt hx hxy)))]
    refine ⟨?_, List.cons_ne_nil _ _⟩
    rcases dropTrailingZeros_cons x l₁ with e | e <;> rw [e]
    · exact .rel (lt_of_lt_of_le ha (le_of_lt (lt_of_le_of_lt hx hxy)))
    · exact .rel hxy

theorem lowDigits_digit : ∀ {w u : Nat}, ∀ c ∈ lowDigits w u, '0' ≤ c
  | 0, _, _, h => nomatch h
  | w + 1, u, c, h => by
    rw [lowDigits, List.mem_append, List.mem_singleton] at h
    rcases h with h | rfl
    · exact lowDigits_digit c h
    · have : ∀ d < 10, '0' ≤ utod d := by decide
      exact this _ (Nat.mod_lt _ (by decide))

-- Nanoseconds in order have their fractions in order, before any zone text.
theorem appendNano_lt {n₁ n₂ : Nat} {a : Char} {t₁ t₂ : List Char} (h : n₁ < n₂) (h₂ : n₂ < 10 ^ 9) (ha : a < '.') :
    appendNano n₁ ++ a :: t₁ < appendNano n₂ ++ t₂ := by
  rw [appendNano, appendNano, if_neg (by omega : n₂ ≠ 0)]
  split
  · exact .rel ha
  · rw [appendInt_nine (by omega), appendInt_nine h₂]
    exact .cons (dropTrailingZeros_lt lowDigits_digit (by simp) (lowDigits_lt h h₂) (lt_trans ha (by decide))).1

end Fraction

section Zone

theorem zoneText_head (o : Int) : ∃ a t, zoneText o = a :: t ∧ a < '.' :=
  ⟨_, _, rfl, by split <;> decide⟩

-- `+00:00` is the least offset text: below every other one, or the same.
theorem zoneText_zero_le {o : Int} (h : o.natAbs < 360000) : zoneText 0 = zoneText o ∨ zoneText 0 < zoneText o := by
  have hm : (o.tdiv 60).natAbs < 6000 := by
    rw [Int.natAbs_tdiv]
    show o.natAbs / 60 < 6000
    omega
  have hz : zoneText 0 = '+' :: (lowDigits 2 0 ++ ':' :: lowDigits 2 0) := rfl
  rw [hz, zoneText, appendInt_two (by omega), appendInt_two (by omega)]
  split
  · exact .inr (.rel (by decide))
  · rcases Nat.eq_zero_or_pos ((o.tdiv 60).natAbs / 60) with h₁ | h₁ <;>
      rcases Nat.eq_zero_or_pos ((o.tdiv 60).natAbs % 60) with h₂ | h₂
    · exact .inl (by rw [h₁, h₂])
    · rw [h₁]
      exact .inr (.cons (lowDigits_append_lt (by omega) (.inr ⟨rfl, lowDigits_lt h₂ (by omega)⟩)))
    all_goals exact .inr (.cons (lowDigits_append_lt (by omega) (.inl h₁)))

end Zone

section Timestamp

variable {t t₁ t₂ : LocalTime}

theorem layout_length (d : Date) (s : Nat) : (layout d s).length = 19 := by
  simp [layout]

theorem timestampText_toList (h : FourDigitYear t.wall) :
    (timestampText t).toList = layout (dateOf t.wall) (secondOfDay t.wall) ++
      (appendNano (t.wall % second).toNat ++ zoneText (t.offset / second)) := by
  have := dateOf_bounds t.wall
  have := secondOfDay_lt t.wall
  unfold FourDigitYear at h
  simp (disch := omega) only [timestampText, layout, String.toList, appendInt_four h.1 (by omega), appendInt_two,
    List.append_assoc, List.cons_append]

-- Clock readings in order, in any zones, have their texts in order.
theorem timestampText_lt (h₁ : FourDigitYear t₁.wall) (h₂ : FourDigitYear t₂.wall) (h : t₁.wall < t₂.wall) :
    timestampText t₁ < timestampText t₂ := by
  rw [String.lt_iff_toList_lt, timestampText_toList h₁, timestampText_toList h₂]
  obtain ⟨a, z, hz, ha⟩ := zoneText_head (t₁.offset / second)
  by_cases hs : t₁.wall / second < t₂.wall / second
  · exact lex_append _ _ (by simp only [layout_length]) (layout_dateOf_lt h₁ h₂ hs)
  · have e : t₁.wall / second = t₂.wall / second := by unfold second Time at *; omega
    rw [dateOf, dateOf, secondOfDay, secondOfDay, e, hz]
    refine List.Lex.append_left _ (appendNano_lt ?_ ?_ ha) _ <;> unfold second Time at * <;> omega

-- `created_at > ?` with `since` bound in its zone and `created_at` a UTC instant: the order of the
-- two clock readings, for four-digit years and offsets under 100 hours.
theorem timestampText_lt_utc_iff {c : Time} (hs : FourDigitYear t.wall) (hc : FourDigitYear c)
    (hz : (t.offset / second).natAbs < 360000) :
    timestampText t < timestampText ⟨c, 0⟩ ↔ t.wall < c := by
  have hc' : FourDigitYear (LocalTime.wall ⟨c, 0⟩) := by simpa [LocalTime.wall] using hc
  refine ⟨fun h => ?_, fun h => timestampText_lt hs hc' (by simpa [LocalTime.wall] using h)⟩
  rcases lt_trichotomy t.wall c with hlt | heq | hgt
  · exact hlt
  · -- One clock reading: the texts differ in the offset alone, and `+00:00` is the least.
    rw [String.lt_iff_toList_lt, timestampText_toList hs, timestampText_toList hc'] at h
    simp only [LocalTime.wall, Int.add_zero, Int.zero_ediv] at h
    rw [← LocalTime.wall, heq] at h
    rcases zoneText_zero_le hz with e | e
    · rw [e] at h
      exact absurd h (lt_irrefl _)
    · exact absurd h (lt_asymm (List.Lex.append_left _ (List.Lex.append_left _ e _) _))
  · exact absurd h (lt_asymm (timestampText_lt hc' hs (by simpa [LocalTime.wall] using hgt)))

end Timestamp

section Expiry

variable {e n : Time}

-- `expires_at > datetime('now')` compares the seconds of the two instants.
theorem datetimeNow_lt_expiresAtStr (he : FourDigitYear e) (hn : FourDigitYear n) :
    datetimeNow n < expiresAtStr e ↔ n / second < e / second := by
  rw [String.lt_iff_toList_lt, datetimeNow_toList hn, expiresAtStr_toList he]
  exact layout_dateOf_lt_iff hn he

-- `expires_at < datetime('now')` too.
theorem expiresAtStr_lt_datetimeNow (he : FourDigitYear e) (hn : FourDigitYear n) :
    expiresAtStr e < datetimeNow n ↔ e / second < n / second := by
  rw [String.lt_iff_toList_lt, datetimeNow_toList hn, expiresAtStr_toList he]
  exact layout_dateOf_lt_iff he hn

-- The instant a row keeps has the text Go wrote for it.
theorem expiresAtStr_truncSecond (t : Time) : expiresAtStr (truncSecond t) = expiresAtStr t := by
  have : truncSecond t / second = t / second := Int.mul_ediv_cancel _ (by decide)
  simp only [expiresAtStr, dateOf, secondOfDay, this]

-- Every clock reading from 1970 to 2099, moved by any `time.Duration`, has a four-digit year.
theorem fourDigitYear_add {now d : Time} (hn : 0 ≤ now) (hn' : now < 4102444800 * second) (hd : -2 ^ 63 ≤ d)
    (hd' : d < 2 ^ 63) : FourDigitYear (now + d) := by
  rw [fourDigitYear_iff]
  unfold second Time Duration at *
  omega

theorem Challenge.live_eq_text {c : Challenge} (hc : FourDigitYear c.expiresAt) (hn : FourDigitYear n) :
    c.live n = decide (datetimeNow n < expiresAtStr c.expiresAt) :=
  decide_eq_decide.mpr (datetimeNow_lt_expiresAtStr hc hn).symm

theorem Token.live_eq_text {t : Token} (ht : FourDigitYear t.expiresAt) (hn : FourDigitYear n) :
    t.live n = decide (datetimeNow n < expiresAtStr t.expiresAt) :=
  decide_eq_decide.mpr (datetimeNow_lt_expiresAtStr ht hn).symm

-- A row read back at the instant it was found live is not past its `ExpiresAt`.
theorem Challenge.not_expired {c : Challenge} (hc : truncSecond c.expiresAt = c.expiresAt) (hl : c.live n) :
    ¬ n > c.expiresAt := by
  unfold Challenge.live truncSecond second at *
  unfold Time at *
  simp only [decide_eq_true_eq] at hl
  omega

theorem find?_congr {α : Type} {p q : α → Bool} : ∀ {l : List α}, (∀ a ∈ l, p a = q a) → l.find? p = l.find? q
  | [], _ => rfl
  | a :: l, h => by
    simp only [List.find?_cons, h a (.head _), find?_congr fun b hb => h b (.tail _ hb)]

namespace Store

variable (s : Store)

-- The lookups of the model are the queries on the `expires_at` texts.
theorem getChallenge_text (x : String) (hn : FourDigitYear n) (hs : ∀ c ∈ s.challenges, FourDigitYear c.expiresAt) :
    s.getChallenge x n = s.challenges.find? fun c => c.challenge == x && decide (datetimeNow n < expiresAtStr c.expiresAt) :=
  find?_congr fun c hc => by rw [Challenge.live_eq_text (hs c hc) hn]

theorem getToken_text (x : String) (hn : FourDigitYear n) (hs : ∀ t ∈ s.tokens, FourDigitYear t.expiresAt) :
    s.getToken x n = s.tokens.find? fun t => t.token == x && decide (datetimeNow n < expiresAtStr t.expiresAt) :=
  find?_congr fun t ht => by rw [Token.live_eq_text (hs t ht) hn]

theorem deleteExpiredTokens_text (hn : FourDigitYear n) (hs : ∀ t ∈ s.tokens, FourDigitYear t.expiresAt) :
    (s.deleteExpiredTokens n).tokens = s.tokens.filter fun t => !decide (expiresAtStr t.expiresAt < datetimeNow n) :=
  List.filter_congr fun t ht => by rw [decide_eq_decide.mpr (expiresAtStr_lt_datetimeNow (hs t ht) hn)]

-- `DeleteExpiredTokens` keeps every token `GetToken` would still return.
theorem mem_deleteExpiredTokens {t : Token} (ht : t ∈ s.tokens) (hl : t.live n) : t ∈ (s.deleteExpiredTokens n).tokens := by
  unfold Token.live at hl
  simp only [deleteExpiredTokens, List.mem_filter, ht, true_and, decide_eq_true_eq] at hl ⊢
  unfold Time at *
  simp only [Bool.not_eq_true', decide_eq_false_iff_not]
  omega

theorem getChallenge_isSome (x : String) :
    (s.getChallenge x n).isSome ↔ ∃ c ∈ s.challenges, c.challenge = x ∧ n / second < c.expiresAt / second := by
  simp [getChallenge, List.find?_isSome, Challenge.live]

theorem getToken_isSome (x : String) :
    (s.getToken x n).isSome ↔ ∃ t ∈ s.tokens, t.token = x ∧ n / second < t.expiresAt / second := by
  simp [getToken, List.find?_isSome, Token.live]

end Store

end Expiry

section Lookup

-- `FindStoryByURL` on the texts the driver writes, `since` in its zone and `created_at` from a UTC
-- instant. For four-digit years and offsets under 100 hours, `created_at > ?` holds exactly when the
-- instant is after `since`'s clock reading, `ORDER BY created_at` is the order of the instants, and
-- the query keeps the rows the model's lookup keeps.
theorem findStoryByURL_text (since : LocalTime) (hn : FourDigitYear since.wall)
    (hz : (since.offset / second).natAbs < 360000) :
    (∀ c, FourDigitYear c → (timestampText since < timestampText ⟨c, 0⟩ ↔ since.wall < c)) ∧
    (∀ a b, FourDigitYear a → FourDigitYear b → (timestampText ⟨a, 0⟩ < timestampText ⟨b, 0⟩ ↔ a < b)) ∧
    ∀ (s : Store) url, (∀ st ∈ s.stories, FourDigitYear st.createdAt) →
      s.stories.filter (fun st => nullEq st.url url && since.wall < st.createdAt && !st.hidden) =
        s.stories.filter fun st =>
          nullEq st.url url && decide (timestampText since < timestampText ⟨st.createdAt, 0⟩) && !st.hidden := by
  have hutc : ∀ a b, FourDigitYear a → FourDigitYear b →
      (timestampText ⟨a, 0⟩ < timestampText ⟨b, 0⟩ ↔ a < b) := fun a b ha hb => by
    simpa [LocalTime.wall] using timestampText_lt_utc_iff (t := ⟨a, 0⟩) (by simpa [LocalTime.wall] using ha) hb (by simp)
  refine ⟨fun c hc => timestampText_lt_utc_iff hn hc hz, hutc, fun s url hs => List.filter_congr fun st hst => ?_⟩
  rw [decide_eq_decide.mpr (timestampText_lt_utc_iff hn (hs st hst) hz)]

-- A server nine hours east of UTC, a nanosecond before a row's instant.
theorem findStoryByURL_text_tokyo :
    let since : LocalTime := ⟨1731150245 * second, 9 * 3600 * second⟩
    FourDigitYear since.wall ∧ (since.offset / second).natAbs < 360000 ∧
      (timestampText since < timestampText ⟨since.wall + 1, 0⟩ ↔ since.wall < since.wall + 1) := by
  intro since
  have hn : FourDigitYear since.wall := by decide
  exact ⟨hn, by decide, (findStoryByURL_text since hn (by decide)).1 _ (by decide)⟩

end Lookup

end Slashclaw
