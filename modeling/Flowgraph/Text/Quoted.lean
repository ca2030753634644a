/- # Flowgraph.Text.Quoted -- names quoted in a message

A quoted name is written between double quotes.  A quote and a backslash get a
backslash; line feed, carriage return, tab and NUL get a letter or digit after
one; every other character that does not show by itself is written by its number
in braces.
-/
import Flowgraph.Text.Letter
import Flowgraph.Text.HiddenTable

set_option autoImplicit false

namespace Flowgraph.Text

/-- Whether a character must be written by its number. -/
def isHidden (c : Char) : Bool :=
  if c.toNat < 0x80 then c.toNat < 0x20 || c.toNat == 0x7F else inRanges hiddenRanges c.toNat

def quotedChar (c : Char) : List Char :=
  if c = '\x22' ∨ c = '\\' then ['\\', c]
  else if c = '\n' then ['\\', 'n']
  else if c = '\r' then ['\\', 'r']
  else if c = '\t' then ['\\', 't']
  else if c.toNat = 0 then ['\\', '0']
  else if isHidden c then '\\' :: 'u' :: '{' :: Nat.toDigits 16 c.toNat ++ ['}']
  else [c]

def quotedName (s : String) : String :=
  String.ofList ('\x22' :: s.toList.flatMap quotedChar ++ ['\x22'])

/-- Quoted names in brackets with commas between them. -/
def quotedNames (names : List String) : String :=
  "[" ++ ", ".intercalate (names.map quotedName) ++ "]"

end Flowgraph.Text
