/- # Flowgraph.Uuid -- identifiers

An identifier is a word of 128 bits, ordered as a number.  It is written as 32
lower-case hexadecimal digits in groups of 8, 4, 4, 4 and 12 with hyphens between
them.  It is read in that form, without the hyphens, in braces, or after
`urn:uuid:`, with digits of either case.
-/
import Flowgraph.Json.Reader
import Flowgraph.Json.Printer

set_option autoImplicit false

namespace Flowgraph

structure Uuid where
  word : BitVec 128
  deriving DecidableEq

namespace Uuid

/-- The order of identifiers is that of their words. -/
def le (a b : Uuid) : Bool := a.word.toNat ≤ b.word.toNat

/-- The last `count` hexadecimal digits of a number, most significant first. -/
def hexDigits : Nat → Nat → List Char
  | 0, _ => []
  | count + 1, n => hexDigits count (n / 16) ++ [Json.hexDigit n]

/-- Put a hyphen between groups of the given sizes. -/
def grouped : List Nat → List Char → List Char
  | [], _ => []
  | [n], cs => cs.take n
  | n :: sizes, cs => cs.take n ++ '-' :: grouped sizes (cs.drop n)

/-- The sizes of the groups of digits. -/
def groups : List Nat := [8, 4, 4, 4, 12]

def toChars (u : Uuid) : List Char := grouped groups (hexDigits 32 u.word.toNat)

def toText (u : Uuid) : String := String.ofList u.toChars

/-- The number that a run of hexadecimal digits names. -/
def hexNumber? : Nat → List Char → Option Nat
  | n, [] => some n
  | n, c :: cs =>
    match Json.hexValue? c with
    | some d => hexNumber? (16 * n + d) cs
    | none => none

/-- An identifier of exactly 32 digits. -/
def ofDigits? (cs : List Char) : Option Uuid :=
  if cs.length = 32 then (hexNumber? 0 cs).map fun n => ⟨BitVec.ofNat 128 n⟩ else none

/-- The digits of groups of the given sizes with hyphens between them. -/
def ungrouped? : List Nat → List Char → Option (List Char)
  | [], cs => if cs.isEmpty then some [] else none
  | [n], cs => if cs.length = n then some cs else none
  | n :: sizes, cs =>
    match cs.drop n with
    | '-' :: rest => (ungrouped? sizes rest).map (cs.take n ++ ·)
    | _ => none

def ofHyphenated? (cs : List Char) : Option Uuid := (ungrouped? groups cs).bind ofDigits?

/-- Read an identifier in any of its forms. -/
def ofChars? (cs : List Char) : Option Uuid :=
  match cs with
  | '{' :: rest => if rest.getLast? = some '}' then ofHyphenated? rest.dropLast else none
  | 'u' :: 'r' :: 'n' :: ':' :: 'u' :: 'u' :: 'i' :: 'd' :: ':' :: rest => ofHyphenated? rest
  | _ => if cs.length = 32 then ofDigits? cs else ofHyphenated? cs

def parse? (text : String) : Option Uuid := ofChars? text.toList

/-- The bits that say of an identifier that it is random: version 4, variant 1. -/
def randomMark : BitVec 128 := (0x4 <<< 76) ||| (0x2 <<< 62)

/-- The places of those bits. -/
def markPlaces : BitVec 128 := (0xF <<< 76) ||| (0x3 <<< 62)

/-- The random identifier of the given bits. -/
def ofRandom (bits : BitVec 128) : Uuid := ⟨(bits &&& ~~~markPlaces) ||| randomMark⟩

end Uuid

abbrev NodeId := Uuid
abbrev WorkflowId := Uuid
abbrev ExecutionId := Uuid

end Flowgraph
