/- # Flowgraph.Number.FloatText -- how a floating-point number is written

The digits are the fewest that read back.  With decimal exponent `e`, meaning
`d.ddd * 10 ^ e`, the number is written with a plain point when `e` lies in the
format's range, and then always with a fraction; outside of it as `d.ddde+N` or
`d.ddde-N`.  Zero keeps its sign.
-/
import Flowgraph.Number.Shortest

set_option autoImplicit false

namespace Flowgraph

/-- The decimal exponents that are written with a plain point. -/
structure FloatFormat where
  least : Int
  most : Int

/-- Doubles are plain from a hundred-thousandth up to sixteen digits before the point. -/
def doubleFormat : FloatFormat := ⟨-5, 15⟩

/-- Single-precision numbers are plain from a millionth up to thirteen digits before the point. -/
def singleFormat : FloatFormat := ⟨-6, 12⟩

namespace FloatFormat

/-- Text of a positive decimal. -/
def text (form : FloatFormat) (d : Decimal) : List Char :=
  let digits := Nat.toDigits 10 d.digits
  let e : Int := d.exp + digits.length - 1
  if form.least ≤ e ∧ e ≤ form.most then
    if 0 ≤ d.exp then digits ++ List.replicate d.exp.toNat '0' ++ ['.', '0']
    else if 0 ≤ e then
      digits.take (e + 1).toNat ++ '.' :: digits.drop (e + 1).toNat
    else '0' :: '.' :: List.replicate (-e - 1).toNat '0' ++ digits
  else
    let fraction := digits.drop 1
    digits.take 1 ++ (if fraction.isEmpty then [] else '.' :: fraction) ++
      'e' :: (if e < 0 then '-' else '+') :: Nat.toDigits 10 e.natAbs

/-- Text of a signed magnitude. -/
def signed (form : FloatFormat) (negative : Bool) (b : Binary) : List Char :=
  (if negative then ['-'] else []) ++
    if b.mant = 0 then ['0', '.', '0'] else form.text b.shortest

end FloatFormat

/-- The text of a finite double; the other doubles have none. -/
def floatText? (x : Float) : Option (List Char) :=
  if x.isFinite then some (doubleFormat.signed (signBit x) (Binary.ofFloat x)) else none

/-- The text of a finite single-precision number; the others have none. -/
def singleText? (x : Float32) : Option (List Char) :=
  if x.isFinite then some (singleFormat.signed (signBit32 x) (Binary.ofFloat32 x)) else none

/-- Text of any double, with names for those that are no number. -/
def floatName (x : Float) : String :=
  match floatText? x with
  | some cs => String.ofList cs
  | none => if x.isNaN then "NaN" else if signBit x then "-inf" else "inf"

end Flowgraph
