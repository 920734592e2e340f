import Mathlib.Data.Int.Notation
import Mathlib.Data.Nat.Notation
import Mathlib.Tactic.Common

/-!
# The civil calendar

Points in time, in seconds since 1970, as dates and times of day of the proleptic Gregorian
calendar. A clock that is read more finely gives an `Instant`.

## Main definitions

* `Calendar.dateOf`, `Calendar.timeOf` — the date and the time of day
* `Calendar.rfc3339` — both as text
* `Calendar.Instant` — nanoseconds since 1970
-/

namespace Foundations.Calendar

structure Date where
  year : ℤ
  month : ℕ
  day : ℕ
  deriving DecidableEq, Repr

/-- The date of a number of days since 1970-01-01. Years begin in March, so that the leap day is
their last; the calendar repeats every 146097 days. -/
def dateOfDays (days : ℤ) : Date :=
  let z := days + 719468
  let era := z.fdiv 146097
  let doe := (z.fmod 146097).toNat
  let yoe := (doe - doe / 1460 + doe / 36524 - doe / 146096) / 365
  let doy := doe - (365 * yoe + yoe / 4 - yoe / 100)
  let mp := (5 * doy + 2) / 153
  let month := if mp < 10 then mp + 3 else mp - 9
  { year := yoe + era * 400 + if month ≤ 2 then 1 else 0
    month := month
    day := doy - (153 * mp + 2) / 5 + 1 }

/-- The date of a point in time. -/
def dateOf (seconds : ℤ) : Date := dateOfDays (seconds.fdiv 86400)

/-- The hour, minute and second of a point in time. -/
def timeOf (seconds : ℤ) : ℕ × ℕ × ℕ :=
  let s := (seconds.fmod 86400).toNat
  (s / 3600, s / 60 % 60, s % 60)

/-- A number with leading zeros up to a width. -/
def padded (width n : ℕ) : String :=
  let digits := n.repr
  String.ofList (List.replicate (width - digits.length) '0') ++ digits

/-- The date and time of day as text, in universal time. -/
def rfc3339 (seconds : ℤ) (zone : String) : String :=
  let date := dateOf seconds
  let (h, m, s) := timeOf seconds
  padded 4 date.year.toNat ++ "-" ++ padded 2 date.month ++ "-" ++ padded 2 date.day ++ "T" ++
    padded 2 h ++ ":" ++ padded 2 m ++ ":" ++ padded 2 s ++ zone

/-- A point in time, in nanoseconds. -/
abbrev Instant : Type := ℤ

def Instant.seconds (t : Instant) : ℤ := t.fdiv 1000000000

theorem Instant.seconds_mono {t t' : Instant} (h : t ≤ t') : t.seconds ≤ t'.seconds := by
  rw [seconds, seconds, Int.fdiv_eq_ediv_of_nonneg _ (by decide),
    Int.fdiv_eq_ediv_of_nonneg _ (by decide)]
  exact Int.ediv_le_ediv (by decide) h

/-- The fraction of the second as text, to as many groups of three digits as it takes. -/
def Instant.fraction (t : Instant) : String :=
  let n := (t.fmod 1000000000).toNat
  if n = 0 then ""
  else if n % 1000000 = 0 then "." ++ padded 3 (n / 1000000)
  else if n % 1000 = 0 then "." ++ padded 6 (n / 1000)
  else "." ++ padded 9 n

example : rfc3339 951868799 "Z" = "2000-02-29T23:59:59Z" := by decide

end Foundations.Calendar
