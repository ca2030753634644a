/- # Flowgraph.Text.Case -- upper and lower case of all scripts

Full case mapping: one character may become several (`ß` becomes `SS`).  The
only mapping that looks at its surroundings is that of the capital sigma, which
is written `ς` where it ends a word: after a cased character and before none,
looking through case-ignorable characters on both sides.
-/
import Flowgraph.Text.Letter
import Flowgraph.Text.CaseTable

set_option autoImplicit false

namespace Flowgraph.Text

/-- The mapping of a single code point, by a list of expansions and then a list of runs. -/
def mapCase (expansions : List (Nat × List Nat)) (runs : List CaseRun) (c : Char) : List Char :=
  match expansions.lookup c.toNat with
  | some codes => codes.map Char.ofNat
  | none =>
    match runs.find? fun r => r.first ≤ c.toNat && c.toNat ≤ r.last &&
        (c.toNat - r.first) % r.step == 0 with
    | some r => [Char.ofNat ((c.toNat : Int) + r.shift).toNat]
    | none => [c]

def upperOf (c : Char) : List Char :=
  if c.toNat < 0x80 then [c.toUpper] else mapCase upperExpansions upperRuns c

def lowerOf (c : Char) : List Char :=
  if c.toNat < 0x80 then [c.toLower] else mapCase lowerExpansions lowerRuns c

def isCased (c : Char) : Bool := inRanges casedRanges c.toNat

def isCaseIgnorable (c : Char) : Bool := inRanges caseIgnorableRanges c.toNat

/-- Whether the first character that case context does not look through is cased. -/
def meetsCased (cs : List Char) : Bool :=
  match cs.dropWhile isCaseIgnorable with
  | c :: _ => isCased c
  | [] => false

/-- The sigma that stands between `before` (nearest first) and `after`. -/
def lowerSigma (before after : List Char) : Char :=
  if meetsCased before && !meetsCased after then 'ς' else 'σ'

/-- Lower case of the rest of a text, `before` being the characters already passed, nearest first. -/
def lowerFrom (before : List Char) : List Char → List Char
  | [] => []
  | c :: cs =>
    (if c == 'Σ' then [lowerSigma before cs] else lowerOf c) ++ lowerFrom (c :: before) cs

def upper (s : String) : String := String.ofList (s.toList.flatMap upperOf)

def lower (s : String) : String := String.ofList (lowerFrom [] s.toList)

end Flowgraph.Text
