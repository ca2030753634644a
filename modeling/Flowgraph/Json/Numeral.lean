/- # Flowgraph.Json.Numeral -- the value of a JSON number

A numeral without fraction and exponent is an integer as long as a 64-bit word
holds it (`-0` is the float).  Every other numeral is read as a double in one
rounding step of its own: as many leading digits as fit 64 bits form the
significand, the rest only count towards the exponent, and the significand is
multiplied or divided by the power of ten.  A product that is not finite is out
of range; a quotient may vanish.
-/
import Flowgraph.Number.Basic
import Flowgraph.Number.Reading

set_option autoImplicit false

namespace Flowgraph.Json

/-- A number as it is written. -/
structure Numeral where
  negative : Bool
  whole : List Char
  /-- Empty when there is no point. -/
  fraction : List Char
  /-- Sign (true for minus) and digits of the power of ten. -/
  power : Option (Bool × List Char)
  deriving DecidableEq

namespace Numeral

/-- Append digits to a significand while it fits 64 bits; also how many were appended. -/
def absorb (significand : Nat) : List Char → Nat × Nat
  | [] => (significand, 0)
  | c :: cs =>
    let next := significand * 10 + (c.toNat - '0'.toNat)
    if next < 0x10000000000000000 then
      let (s, n) := absorb next cs
      (s, n + 1)
    else (significand, 0)

/-- `x * 10 ^ e`, in steps of 308 for very small exponents. -/
def scale (x : Float) : Nat → Int → Option Float
  | 0, _ => some x
  | steps + 1, e =>
    if e.natAbs ≤ 308 then
      if 0 ≤ e then
        let y := x * nearestFloat 1 e
        if y.isInf then none else some y
      else some (x / nearestFloat 1 (-e))
    else if x == 0 then some x
    else if 0 ≤ e then none
    else scale (x / nearestFloat 1 308) steps (e + 308)

/-- The double of a significand and a power of ten. -/
def scaled? (negative : Bool) (significand : Nat) (e : Int) : Option Number :=
  (scale (Float.ofNat significand) (e.natAbs / 308 + 1) e).bind fun x =>
    Number.ofFloat? (if negative then -x else x)

/-- A numeral read as a double. -/
def float? (n : Numeral) : Option Number :=
  let (s₁, used₁) := absorb 0 n.whole
  let (s₂, used₂) := absorb s₁ n.fraction
  let e : Int := (n.whole.length : Int) - used₁ - used₂
  match n.power with
  | none => scaled? n.negative s₂ e
  | some (down, digits) =>
    let p := digitsValue digits
    if p < 0x80000000 then scaled? n.negative s₂ (if down then e - p else e + p)
    else if s₂ ≠ 0 ∧ ¬down then none
    else scaled? n.negative 0 0

/-- The number that a numeral means; `none` when it is out of range. -/
def value? (n : Numeral) : Option Number :=
  if n.fraction.isEmpty && n.power.isNone then
    let m := digitsValue n.whole
    if n.negative && m == 0 then float? n
    else
      match Number.ofInt? (if n.negative then -(m : Int) else (m : Int)) with
      | some k => some k
      | none => float? n
  else float? n

end Numeral
end Flowgraph.Json
