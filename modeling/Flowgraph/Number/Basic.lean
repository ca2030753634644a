/- # Flowgraph.Number.Basic -- the numbers of a document

A number is an integer that fits a signed or an unsigned 64-bit word, or a finite
double; the two never compare equal.  Integers are read as doubles where a
computation asks for one, and `ofQuantity?` is the way back: a double without
fraction becomes an integer again when it fits a signed word.
-/
import Flowgraph.Number.FloatText

set_option autoImplicit false

namespace Flowgraph

/-- The integers of a signed or an unsigned 64-bit word. -/
def WordRange (n : Int) : Prop := -0x8000000000000000 ≤ n ∧ n < 0x10000000000000000

instance (n : Int) : Decidable (WordRange n) := inferInstanceAs (Decidable (_ ∧ _))

inductive Number where
  | int (n : Int) (bounds : WordRange n)
  | float (x : Float) (finite : x.isFinite = true)
  deriving DecidableEq

namespace Number

def ofInt? (n : Int) : Option Number := if h : WordRange n then some (.int n h) else none

def ofFloat? (x : Float) : Option Number := if h : x.isFinite = true then some (.float x h) else none

/-- A count of things, as a 64-bit word. -/
def ofCount (n : Nat) : Number :=
  .int ((n % 0x10000000000000000 : Nat) : Int) ⟨by omega, by omega⟩

/-- The value of a signed word, from an integer taken modulo `2 ^ 64`. -/
def ofSigned (n : Int) : Number :=
  .int (n.bmod 0x10000000000000000) ⟨by
    have := Int.le_bmod (x := n) (m := 0x10000000000000000) (by decide)
    omega, by
    have := Int.bmod_lt (x := n) (m := 0x10000000000000000) (by decide)
    omega⟩

/-- A computed quantity: an integer when it has no fraction and lies strictly
between `-2 ^ 63` and `2 ^ 63`, and no number at all when it is not finite. -/
def ofQuantity? (x : Float) : Option Number :=
  match exactInt? x with
  | some n => if -0x8000000000000000 < n ∧ n < 0x8000000000000000 then ofInt? n else ofFloat? x
  | none => ofFloat? x

def toFloat : Number → Float
  | .int n _ => Float.ofInt n
  | .float x _ => x

/-- The integer of a signed word; floats and larger integers have none. -/
def toSigned? : Number → Option Int
  | .int n _ => if n < 0x8000000000000000 then some n else none
  | .float _ _ => none

/-- The integer of an unsigned word. -/
def toUnsigned? : Number → Option Nat
  | .int n _ => if 0 ≤ n then some n.toNat else none
  | .float _ _ => none

/-- The integer that a double without fraction is, strictly inside the signed words. -/
def wholeOf? (x : Float) : Option Int :=
  (exactInt? x).filter fun n => -0x8000000000000000 < n && n < 0x8000000000000000

/-- Decimal text of an integer. -/
def intText (n : Int) : List Char :=
  if n < 0 then '-' :: Nat.toDigits 10 n.natAbs else Nat.toDigits 10 n.natAbs

def text : Number → List Char
  | .int n _ => intText n
  | .float x _ => doubleFormat.signed (signBit x) (Binary.ofFloat x)

end Number
end Flowgraph
