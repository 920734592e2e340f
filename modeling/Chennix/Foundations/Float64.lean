import Mathlib.Algebra.Order.Group.Int
import Mathlib.Algebra.Group.Nat.Defs
import Mathlib.Algebra.Ring.Int.Defs
import Mathlib.Tactic.Common

/-!
# Binary64 numbers and machine integers

Conversions between binary64 numbers and 64-bit integers. The conversions of a number are read
off its bits, so that they compute; out of range they give the nearest bound, and zero where the
number is none.

## Main definitions

* `Float64.magnitude` — a number as sign, mantissa and exponent
* `Float64.roundToI64` — rounding to the nearest integer, ties away from zero
* `Float64.toU64`, `Float64.ofI64` — truncating to, and converting from, integers
-/

namespace Foundations.Float64

/-- The sign of a number, and `(m, e)` for the absolute value `m * 2 ^ e`. An infinity has an
exponent beyond those of numbers; what is no number has no absolute value. -/
def magnitude (x : Float) : Bool × Option (ℕ × ℤ) :=
  let bits := x.toBits.toNat
  let exponent : ℕ := bits / 2 ^ 52 % 2 ^ 11
  let fraction : ℕ := bits % 2 ^ 52
  (2 ^ 63 ≤ bits,
    if exponent = 2047 then if fraction = 0 then some (1, 1024) else none
    else if exponent = 0 then some (fraction, -1074)
    else some (fraction + 2 ^ 52, (exponent : ℤ) - 1075))

/-- `x.round() as i64`. -/
def roundToI64 (x : Float) : ℤ :=
  match magnitude x with
  | (_, none) => 0
  | (negative, some (m, e)) =>
    let n : ℕ := if 0 ≤ e then m * 2 ^ e.toNat
      else (2 * m + 2 ^ (-e).toNat) / 2 ^ ((-e).toNat + 1)
    if negative then max (-n) (-2 ^ 63) else min n (2 ^ 63 - 1)

/-- `x as u64`. -/
def toU64 (x : Float) : UInt64 :=
  match magnitude x with
  | (false, some (m, e)) =>
    let n : ℕ := if 0 ≤ e then m * 2 ^ e.toNat else m / 2 ^ (-e).toNat
    .ofNat (min n (2 ^ 64 - 1))
  | _ => 0

/-- `n as f64`. -/
def ofI64 (n : Int64) : Float :=
  if 0 ≤ n then n.toUInt64.toFloat else -(-n).toUInt64.toFloat

end Foundations.Float64
