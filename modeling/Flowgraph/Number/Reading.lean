/- # Flowgraph.Number.Reading -- numbers written in a text

Plain numerals, as they stand in strings that are to be read as numbers:

* an integer is an optional sign and at least one digit;
* a float is an optional sign and either one of the words `inf`, `infinity` and
  `nan` in any case, or digits with an optional point (at least one digit on
  either side of it) and an optional exponent.  It is rounded correctly; what is
  too large is infinite.

Neither allows blanks, separators or another base.  `Decimal.ofDigits` is the
shared reading of digit runs.
-/

set_option autoImplicit false

namespace Flowgraph

/-- Whether a character is one of the ten ASCII digits. -/
def isDigit (c : Char) : Bool := '0' ≤ c && c ≤ '9'

/-- The number that a run of digits names; zero for an empty run. -/
def digitsValue (cs : List Char) : Nat := Nat.ofDigitChars 10 cs 0

/-- An optional leading sign (true for minus) and the rest. -/
def takeSign : List Char → Bool × List Char
  | '-' :: cs => (true, cs)
  | '+' :: cs => (false, cs)
  | cs => (false, cs)

/-- The integer that a text is, of any size. -/
def readInteger? (cs : List Char) : Option Int :=
  let (negative, digits) := takeSign cs
  if digits.isEmpty || !digits.all isDigit then none
  else some (if negative then -(digitsValue digits : Int) else (digitsValue digits : Int))

/-- The nearest double to `m * 10 ^ e`, infinite when it is out of range. -/
def nearestFloat (m : Nat) (e : Int) : Float := Float.ofScientific m (e < 0) e.natAbs

def infinity : Float := Float.ofBits 0x7FF0000000000000

def notANumber : Float := Float.ofBits 0x7FF8000000000000

/-- The exponent part of a float: nothing, or `e` with an optional sign and digits. -/
def readExponent? : List Char → Option Int
  | [] => some 0
  | c :: cs => if c == 'e' || c == 'E' then readInteger? cs else none

/-- A float without its sign. -/
def readMagnitude? (cs : List Char) : Option Float :=
  let word := String.ofList (cs.map Char.toLower)
  if word == "inf" || word == "infinity" then some infinity
  else if word == "nan" then some notANumber
  else
    let whole := cs.takeWhile isDigit
    let (fraction, rest) := match cs.dropWhile isDigit with
      | '.' :: r => (r.takeWhile isDigit, r.dropWhile isDigit)
      | r => ([], r)
    if whole.isEmpty && fraction.isEmpty then none
    else (readExponent? rest).map fun e =>
      nearestFloat (digitsValue (whole ++ fraction)) (e - fraction.length)

/-- The double nearest to the number that a text is. -/
def readFloat? (cs : List Char) : Option Float :=
  let (negative, magnitude) := takeSign cs
  (readMagnitude? magnitude).map fun x => if negative then -x else x

end Flowgraph
