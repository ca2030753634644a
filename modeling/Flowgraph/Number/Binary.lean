/- # Flowgraph.Number.Binary -- the exact value of a floating-point number

A finite binary number other than zero is `mant * 2 ^ exp` up to its sign.  The
reals that round to it form an interval around it: half a unit of the last place
to both sides, except that below a power of two the neighbour is nearer and the
lower half shrinks to a quarter (`narrow`).

`exactInt?` is the integer that a double is, if it is one, and `toSingle` the single-precision
number nearest to it.
-/

set_option autoImplicit false

namespace Flowgraph

/-- The magnitude `mant * 2 ^ exp`, with the gap below halved when `narrow`. -/
structure Binary where
  mant : Nat
  exp : Int
  narrow : Bool
  deriving DecidableEq

namespace Binary

/-- Magnitude of the bit pattern of a finite number with `fractionBits` bits of
fraction and exponent bias `bias`; the sign bit must have been taken off. -/
def ofBits (fractionBits : Nat) (bias : Nat) (bits : Nat) : Binary :=
  let unit := Nat.pow 2 fractionBits
  let e := bits / unit
  let f := bits % unit
  if e = 0 then ⟨f, 1 - (bias : Int) - fractionBits, false⟩
  else ⟨unit + f, (e : Int) - bias - fractionBits, f == 0 && 1 < e⟩

def ofFloat (x : Float) : Binary := ofBits 52 1023 (x.toBits.toNat % 0x8000000000000000)

def ofFloat32 (x : Float32) : Binary := ofBits 23 127 (x.toBits.toNat % 0x80000000)

/-- The natural number that this magnitude is, if it is one. -/
def exactNat? (b : Binary) : Option Nat :=
  if 0 ≤ b.exp then some (b.mant * Nat.pow 2 b.exp.toNat)
  else
    let d := Nat.pow 2 (-b.exp).toNat
    if b.mant % d = 0 then some (b.mant / d) else none

end Binary

/-- Whether the sign bit of a double is set. -/
def signBit (x : Float) : Bool := 0x8000000000000000 ≤ x.toBits.toNat

def signBit32 (x : Float32) : Bool := 0x80000000 ≤ x.toBits.toNat

/-- The integer that a double is, if it is finite and has no fraction. -/
def exactInt? (x : Float) : Option Int :=
  if x.isFinite then
    (Binary.ofFloat x).exactNat?.map fun n => if signBit x then -(n : Int) else (n : Int)
  else none

/-- The single-precision number nearest to a finite double, infinite when it is out of range. -/
def toSingle (x : Float) : Float32 :=
  let b := Binary.ofFloat x
  let magnitude :=
    if 0 ≤ b.exp then Float32.ofScientific (b.mant * Nat.pow 2 b.exp.toNat) false 0
    else Float32.ofScientific (b.mant * Nat.pow 5 b.exp.natAbs) true b.exp.natAbs
  if signBit x then -magnitude else magnitude

end Flowgraph
