/- # Flowgraph.Text.Letter -- letters and digits of all scripts

`isLetter` is the property Alphabetic, `isLetterOrDigit` adds the three number
categories.  ASCII is decided by comparison, the rest by table.
-/
import Flowgraph.Text.LetterTable

set_option autoImplicit false

namespace Flowgraph.Text

/-- Membership in a list of closed ranges. -/
def inRanges (ranges : List (Nat × Nat)) (n : Nat) : Bool :=
  ranges.any fun r => r.1 ≤ n && n ≤ r.2

def isLetter (c : Char) : Bool :=
  if c.toNat < 0x80 then c.isAlpha else inRanges alphabeticRanges c.toNat

def isLetterOrDigit (c : Char) : Bool :=
  if c.toNat < 0x80 then c.isAlphanum
  else inRanges alphabeticRanges c.toNat || inRanges numericRanges c.toNat

end Flowgraph.Text
