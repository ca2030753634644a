/- # Flowgraph.Binding.Repair -- reading a rendered array back

A template writes an array without quotes around its strings: `[a, b, 3]`.
`repair` makes JSON of such a text again.  It looks at texts in brackets only and
leaves those alone that are JSON already.  Otherwise the text between the
brackets is cut at its commas, outside quotes and inner brackets; each piece is
trimmed and dropped when empty, kept when it is JSON, repaired in turn when it
is bracketed, and quoted as a string in all other cases.
-/
import Flowgraph.Json.Reader
import Flowgraph.Json.Printer
import Flowgraph.Text.Blank
import Flowgraph.Text.Cut

set_option autoImplicit false

namespace Flowgraph.Binding

/-- Where the scan for commas stands. -/
structure ItemScan where
  depth : Nat
  inString : Bool
  escaped : Bool
  deriving DecidableEq

namespace ItemScan

def start : ItemScan := ⟨0, false, false⟩

def next (s : ItemScan) (c : Char) : ItemScan :=
  if s.inString then
    if s.escaped then { s with escaped := false }
    else if c = '\\' then { s with escaped := true }
    else if c = '\x22' then { s with inString := false }
    else s
  else if c = '\x22' then { s with inString := true }
  else if c = '[' ∨ c = '{' then { s with depth := s.depth + 1 }
  else if c = ']' ∨ c = '}' then { s with depth := s.depth - 1 }
  else s

/-- A comma outside strings and inner containers. -/
def cuts (s : ItemScan) (c : Char) : Bool := !s.inString && c == ',' && s.depth == 0

end ItemScan

/-- The pieces between the commas that stand outside quotes and brackets. -/
def splitItems (cs : List Char) : List (List Char) := Text.cut ItemScan.next ItemScan.cuts .start cs

/-- Whether a text starts with an opening and ends with a closing bracket. -/
def isBracketed (cs : List Char) : Bool := cs.head? == some '[' && cs.getLast? == some ']'

def isJson (cs : List Char) : Bool := (Json.parseChars cs).isSome

/-- The text between the first and the last character. -/
def inner (cs : List Char) : List Char := (cs.drop 1).dropLast

/-- The trimmed pieces of a bracketed text that hold something. -/
def items (cs : List Char) : List (List Char) :=
  ((splitItems (inner cs)).map Text.trim).filter fun item => !item.isEmpty

/-- Texts with commas between them. -/
def commaJoin (texts : List (List Char)) : List Char := [','].intercalate texts

/-- JSON for one piece.  Each level of brackets takes one of the `levels`, and
a text has fewer of them than characters. -/
def repairItem : Nat → List Char → List Char
  | 0, item => Json.quoted (String.ofList item)
  | levels + 1, item =>
    if isJson item then item
    else if isBracketed item then
      '[' :: commaJoin ((items item).map (repairItem levels)) ++ [']']
    else Json.quoted (String.ofList item)

/-- JSON for a bracketed text; any other text as it is. -/
def repairChars (cs : List Char) : List Char :=
  let trimmed := Text.trim cs
  if isBracketed trimmed then repairItem (trimmed.length + 1) trimmed else cs

def repair (text : String) : String := String.ofList (repairChars text.toList)

end Flowgraph.Binding
