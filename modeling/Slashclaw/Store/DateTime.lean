import Slashclaw.Store.Rows

namespace Slashclaw

-- The text of an `expires_at` column: Go's `Format("2006-01-02 15:04:05")` of the UTC instant, and
-- SQLite's `datetime('now')`, which the queries compare it with as text.

-- The proleptic Gregorian calendar that Go's `Time.Date` and SQLite's `computeYMD` compute. Years
-- are counted from March, so that a leap day ends its year, and grouped in eras of 400 years, each
-- of four centuries of 25 cycles of four years.

-- A year of an era and a day of that year, both counted from zero.
structure YearDay where
  year : Nat
  day : Nat
  deriving DecidableEq, Repr

-- The `doe`-th day of an era. The last century of an era and the last year of a cycle are the ones
-- a day longer, so that their counts reach 4 on that day only; `n - n / 4` cuts them back to 3, as
-- Go's `absDate` does with `n -= n >> 2`.
def yearOfEra (doe : Nat) : YearDay :=
  let c := doe / 36524 - doe / 36524 / 4
  let r := doe - 36524 * c
  let y := r % 1461 / 365 - r % 1461 / 365 / 4
  ⟨100 * c + 4 * (r / 1461) + y, r % 1461 - 365 * y⟩

-- The month of a year counted from March (from zero) and the day of that month (from one) of the
-- `doy`-th day of the year.
def monthOfYear (doy : Nat) : Nat × Nat :=
  let mp := (5 * doy + 2) / 153
  (mp, doy - (153 * mp + 2) / 5 + 1)

structure Date where
  year : Int
  month : Nat
  day : Nat
  deriving DecidableEq, Repr

-- The date of the `z`-th day after 1970-01-01, which is the 719468th day after 0000-03-01.
def civilFromDays (z : Int) : Date :=
  let era := (z + 719468) / 146097
  let yd := yearOfEra ((z + 719468) % 146097).toNat
  let md := monthOfYear yd.day
  let month := if md.1 < 10 then md.1 + 3 else md.1 - 9
  ⟨400 * era + yd.year + (if month ≤ 2 then 1 else 0), month, md.2⟩

-- The UTC date of an instant and its second of the day: both count whole seconds, rounded down.
def dateOf (t : Time) : Date :=
  civilFromDays (t / second / 86400)

def secondOfDay (t : Time) : Nat :=
  (t / second % 86400).toNat

-- `utod` of Go's `time/format.go`.
def utod (u : Nat) : Char :=
  Char.ofNat (48 + u)

-- Go's `appendInt(b, x, width)`, without `b`: `x` in decimal, zero-padded to `width` digits, with
-- the two widths the layouts use most written out.
def appendInt (x : Int) (width : Nat) : List Char :=
  let u := x.natAbs
  (if x < 0 then ['-'] else []) ++
    if width = 2 ∧ u < 100 then [utod (u / 10), utod (u % 10)]
    else if width = 4 ∧ u < 10000 then [utod (u / 1000), utod (u / 100 % 10), utod (u / 10 % 10), utod (u % 10)]
    else List.replicate (width - (Nat.toDigits 10 u).length) '0' ++ Nat.toDigits 10 u

-- `expiresAtStr := t.UTC().Format("2006-01-02 15:04:05")` of `CreateChallenge` and `CreateToken`.
def expiresAtStr (t : Time) : String :=
  let d := dateOf t
  let s := secondOfDay t
  String.mk <| appendInt d.year 4 ++ '-' :: (appendInt d.month 2 ++ '-' :: (appendInt d.day 2 ++ ' ' ::
    (appendInt ↑(s / 3600) 2 ++ ':' :: (appendInt ↑(s % 3600 / 60) 2 ++ ':' :: appendInt ↑(s % 60) 2))))

-- The low `width` decimal digits of `u`, as SQLite's `datetime` writes each field.
def lowDigits : Nat → Nat → List Char
  | 0, _ => []
  | w + 1, u => lowDigits w (u / 10) ++ [utod (u % 10)]

-- SQLite's `datetime('now')` at the instant `now`: the fields of `dateOf` and `secondOfDay`, the year
-- signed.
def datetimeNow (now : Time) : String :=
  let d := dateOf now
  let s := secondOfDay now
  String.mk <| (if d.year < 0 then ['-'] else []) ++ lowDigits 4 d.year.natAbs ++ '-' :: (lowDigits 2 d.month ++
    '-' :: (lowDigits 2 d.day ++ ' ' :: (lowDigits 2 (s / 3600) ++ ':' :: (lowDigits 2 (s % 3600 / 60) ++
    ':' :: lowDigits 2 (s % 60)))))

-- `formatNano`'s loop that cuts the trailing zeros of the digits.
def dropTrailingZeros : List Char → List Char
  | [] => []
  | c :: cs => match dropTrailingZeros cs with
    | [] => if c = '0' then [] else [c]
    | r => c :: r

-- `formatNano` for `.999999999`: nothing for a whole second, else a dot and the nine digits of the
-- nanoseconds less their trailing zeros.
def appendNano (nanosec : Nat) : List Char :=
  if nanosec = 0 then [] else '.' :: dropTrailingZeros (appendInt nanosec 9)

-- The `-07:00` of a layout for a zone `offset` seconds east of UTC: the sign, then the hours and
-- minutes of the offset in whole minutes.
def zoneText (offset : Int) : List Char :=
  let zone := offset.tdiv 60
  (if zone < 0 then '-' else '+') :: (appendInt ↑(zone.natAbs / 60) 2 ++ ':' :: appendInt ↑(zone.natAbs % 60) 2)

-- What the driver binds for a `time.Time`: `Format("2006-01-02 15:04:05.999999999-07:00")`, the clock
-- reading of `t` in its zone, then the zone's offset, which Go keeps in whole seconds.
def timestampText (t : LocalTime) : String :=
  let d := dateOf t.wall
  let s := secondOfDay t.wall
  String.mk <| appendInt d.year 4 ++ '-' :: (appendInt d.month 2 ++ '-' :: (appendInt d.day 2 ++ ' ' ::
    (appendInt ↑(s / 3600) 2 ++ ':' :: (appendInt ↑(s % 3600 / 60) 2 ++ ':' :: (appendInt ↑(s % 60) 2 ++
      appendNano (t.wall % second).toNat ++ zoneText (t.offset / second))))))

-- The instants whose UTC year is written with four digits, `0000` to `9999`.
def FourDigitYear (t : Time) : Prop :=
  0 ≤ (dateOf t).year ∧ (dateOf t).year ≤ 9999

instance : DecidablePred FourDigitYear :=
  fun _ => inferInstanceAs (Decidable (_ ∧ _))

example : expiresAtStr 0 = "1970-01-01 00:00:00" ∧ datetimeNow (1731150245 * second) = "2024-11-09 11:04:05" := by
  decide

example : timestampText ⟨1731150245 * second + 120000000, 9 * 3600 * second⟩ = "2024-11-09 20:04:05.12+09:00" ∧
    timestampText ⟨0, 0⟩ = "1970-01-01 00:00:00+00:00" := by
  decide

end Slashclaw
