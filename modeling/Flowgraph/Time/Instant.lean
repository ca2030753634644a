/- # Flowgraph.Time.Instant -- points in time and their written form

An instant counts seconds since 1970 and nanoseconds; a nanosecond part of a
billion or more stands for a leap second, written with 60 seconds.  Years run
from -262143 to 262142.

The written form is `year-month-dayThour:minute:second`, a fraction of 3, 6 or 9
digits where one is needed, and the offset: `Z` or `+00:00`.  A year outside
0..9999 has a sign and at least four digits.

Reading is more generous: numbers may be short and have blanks before them, the
separators may have blanks before them, a small `t` or a blank may stand for
`T`, a fraction may have any number of digits, of which nine count, and the offset may
be any below a day, with or without its colon, or `z`, or `UTC` in any case.
-/
import Flowgraph.Time.Calendar
import Flowgraph.Number.Reading
import Flowgraph.Text.Blank

set_option autoImplicit false

namespace Flowgraph

structure Instant where
  seconds : Int
  nanos : Nat
  deriving DecidableEq

namespace Instant

def days (t : Instant) : Int := t.seconds.fdiv 86400

/-- Seconds since midnight. -/
def secondOfDay (t : Instant) : Nat := (t.seconds - t.days * 86400).toNat

def date (t : Instant) : Date := Date.ofDays t.days

def hour (t : Instant) : Nat := t.secondOfDay / 3600

def minute (t : Instant) : Nat := t.secondOfDay / 60 % 60

def second (t : Instant) : Nat := t.secondOfDay % 60

/-! ## Writing -/

/-- A number with zeros in front up to a width. -/
def padded (width n : Nat) : List Char :=
  let digits := Nat.toDigits 10 n
  List.replicate (width - digits.length) '0' ++ digits

def yearText (year : Int) : List Char :=
  if 0 ≤ year ∧ year ≤ 9999 then padded 4 year.toNat
  else (if year < 0 then '-' else '+') :: padded 4 year.natAbs

/-- A fraction of 0, 3, 6 or 9 digits, as few as the value needs. -/
def fractionText (nanos : Nat) : List Char :=
  if nanos = 0 then []
  else if nanos % 1000000 = 0 then '.' :: padded 3 (nanos / 1000000)
  else if nanos % 1000 = 0 then '.' :: padded 6 (nanos / 1000)
  else '.' :: padded 9 nanos

/-- The written form with the given text for the offset of zero. -/
def toChars (offset : List Char) (t : Instant) : List Char :=
  let d := t.date
  let leap := t.nanos / 1000000000
  yearText d.year ++ '-' :: padded 2 d.month ++ '-' :: padded 2 d.day ++ 'T' :: padded 2 t.hour ++
    ':' :: padded 2 t.minute ++ ':' :: padded 2 (t.second + leap) ++
    fractionText (t.nanos % 1000000000) ++ offset

/-- Written with `Z`. -/
def toZulu (t : Instant) : String := String.ofList (t.toChars ['Z'])

/-- Written with a numeric offset. -/
def toOffset (t : Instant) : String := String.ofList (t.toChars ['+', '0', '0', ':', '0', '0'])

/-! ## Reading -/

/-- Up to `most` digits, at least one; their value and the rest. -/
def takeNumber? (most : Nat) (cs : List Char) : Option (Nat × List Char) :=
  let digits := (cs.take most).takeWhile isDigit
  if digits.isEmpty then none else some (digitsValue digits, cs.drop digits.length)

/-- A number of at most two digits after blanks, within bounds. -/
def takePart? (low high : Nat) (cs : List Char) : Option (Nat × List Char) :=
  match takeNumber? 2 (Text.trimStart cs) with
  | some (n, rest) => if low ≤ n ∧ n ≤ high then some (n, rest) else none
  | none => none

/-- A year: up to four digits, or any number of them after a sign. -/
def takeYear? (cs : List Char) : Option (Int × List Char) :=
  match Text.trimStart cs with
  | '-' :: rest => (takeNumber? rest.length rest).map fun r => (-(r.1 : Int), r.2)
  | '+' :: rest => (takeNumber? rest.length rest).map fun r => ((r.1 : Int), r.2)
  | rest => (takeNumber? 4 rest).map fun r => ((r.1 : Int), r.2)

/-- A separator with blanks before it. -/
def takeMark? (mark : Char) (cs : List Char) : Option (List Char) :=
  match Text.trimStart cs with
  | c :: rest => if c = mark then some rest else none
  | [] => none

/-- An optional fraction of a second in nanoseconds. -/
def takeFraction? (cs : List Char) : Option (Nat × List Char) :=
  match cs with
  | '.' :: rest =>
    (takeNumber? 9 rest).map fun r =>
      let used := rest.length - r.2.length
      (r.1 * Nat.pow 10 (9 - used), r.2.dropWhile isDigit)
  | _ => some (0, cs)

/-- Two digits that must follow one another directly. -/
def takePair? : List Char → Option (Nat × List Char)
  | a :: b :: rest =>
    if isDigit a && isDigit b then some (digitsValue [a, b], rest) else none
  | _ => none

/-- An offset in seconds. -/
def takeOffset? (cs : List Char) : Option (Int × List Char) :=
  if (cs.take 3).map Char.toUpper = ['U', 'T', 'C'] then some (0, cs.drop 3)
  else
    match cs with
    | [] => none
    | sign :: rest =>
      if sign = 'Z' ∨ sign = 'z' then some (0, rest)
      else if sign = '+' ∨ sign = '-' ∨ sign = '−' then
        match takePair? rest with
        | none => none
        | some (hours, rest) =>
          match takePair? (rest.dropWhile fun c => c == ':' || Text.isBlank c) with
          | none => none
          | some (minutes, rest) =>
            if minutes < 60 then
              let total : Int := hours * 3600 + minutes * 60
              some (if sign = '+' then total else -total, rest)
            else none
      else none

def minYear : Int := -262143

def maxYear : Int := 262142

/-- Whether a date lies in the range of years. -/
def inRange (d : Date) : Bool := minYear ≤ d.year && d.year ≤ maxYear

def takeDate? (cs : List Char) : Option (Date × List Char) := do
  let (year, cs) ← takeYear? cs
  let cs ← takeMark? '-' cs
  let (month, cs) ← takePart? 1 12 cs
  let cs ← takeMark? '-' cs
  let (day, cs) ← takePart? 1 31 cs
  let d : Date := ⟨year, month, day⟩
  if d.isValid && inRange d then some (d, cs) else none

/-- The `T` between date and time. -/
def takeDivider? : List Char → Option (List Char)
  | c :: rest => if c = 'T' ∨ c = 't' ∨ c = ' ' then some rest else none
  | [] => none

/-- Read an instant; blanks may follow. -/
def ofChars? (cs : List Char) : Option Instant := do
  let (date, cs) ← takeDate? cs
  let cs ← takeDivider? cs
  let (hour, cs) ← takePart? 0 23 cs
  let cs ← takeMark? ':' cs
  let (minute, cs) ← takePart? 0 59 cs
  let cs ← takeMark? ':' cs
  let (second, cs) ← takePart? 0 60 cs
  let (nanos, cs) ← takeFraction? cs
  let (offset, cs) ← takeOffset? (Text.trimStart cs)
  let leap := if second = 60 then 1 else 0
  let local_ : Int := date.toDays * 86400 + hour * 3600 + minute * 60 + (second - leap : Nat)
  let t : Instant := ⟨local_ - offset, nanos + leap * 1000000000⟩
  if (cs.all Text.isBlank) && offset.natAbs < 86400 && inRange t.date then some t else none

def parse? (text : String) : Option Instant := ofChars? text.toList

end Instant
end Flowgraph
