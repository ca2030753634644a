/- # Flowgraph.Template.Filter -- the filters of the template language

A filter takes a value and arguments to a value.  Text filters work on the
display text of what they are given; arithmetic reads numbers out of numbers and
numeric strings and gives integers back where the result has no fraction.
-/
import Flowgraph.Template.Basic
import Flowgraph.Document.View
import Flowgraph.Text.Case

set_option autoImplicit false

namespace Flowgraph.Template

inductive Arithmetic where
  | plus
  | minus
  | times
  | dividedBy
  deriving DecidableEq

inductive Filter where
  | upcase
  | downcase
  | strip
  | size
  | json
  | default
  | append
  | prepend
  | arithmetic (op : Arithmetic)
  | join
  | first
  | last
  deriving DecidableEq

namespace Filter

/-- The filter of a name. -/
def ofName? (name : String) : Option Filter :=
  if name = "upcase" then some .upcase
  else if name = "downcase" then some .downcase
  else if name = "strip" then some .strip
  else if name = "size" then some .size
  else if name = "json" then some .json
  else if name = "default" then some .default
  else if name = "append" then some .append
  else if name = "prepend" then some .prepend
  else if name = "plus" then some (.arithmetic .plus)
  else if name = "minus" then some (.arithmetic .minus)
  else if name = "times" then some (.arithmetic .times)
  else if name = "divided_by" then some (.arithmetic .dividedBy)
  else if name = "join" then some .join
  else if name = "first" then some .first
  else if name = "last" then some .last
  else none

/-- Whether `default` puts its argument in place of a value. -/
def isMissing : Value → Bool
  | .null => true
  | .str s => s.isEmpty
  | _ => false

def sizeOf : Value → Nat
  | .str s => s.toList.length
  | .arr items => items.length
  | .obj members => members.length
  | _ => 0

def firstOf : Value → Value
  | .arr items => items.head?.getD .null
  | .str s => (s.toList.head?.map fun c => Value.str (String.singleton c)).getD .null
  | _ => .null

def lastOf : Value → Value
  | .arr items => items.getLast?.getD .null
  | .str s => (s.toList.getLast?.map fun c => Value.str (String.singleton c)).getD .null
  | _ => .null

/-- Items as display text with a separator between them; anything else as display text. -/
def joined (separator : String) : Value → String
  | .arr items => separator.intercalate (items.map Value.displayText)
  | v => v.displayText

def compute (op : Arithmetic) (left right : Value) : Except FilterFault Value :=
  match left.toFloat?, right.toFloat? with
  | some a, some b =>
    if op = .dividedBy ∧ (b == 0) = true then .error .divisionByZero
    else
      let result := match op with
        | .plus => a + b
        | .minus => a - b
        | .times => a * b
        | .dividedBy => a / b
      match Number.ofQuantity? result with
      | some n => .ok (.num n)
      | none => .error .notFinite
  | _, _ => .error (.expectedNumbers left.typeName right.typeName)

/-- Apply a filter; arguments beyond the first are ignored. -/
def apply (filter : Filter) (input : Value) (arguments : List Value) : Except FilterFault Value :=
  let withArgument (f : Value → Except FilterFault Value) : Except FilterFault Value :=
    match arguments with
    | [] => .error .missingArgument
    | a :: _ => f a
  match filter with
  | .upcase => .ok (.str (Text.upper input.displayText))
  | .downcase => .ok (.str (Text.lower input.displayText))
  | .strip => .ok (.str (Text.trimmed input.displayText))
  | .size => .ok (.ofCount (sizeOf input))
  | .json => .ok (.str (Json.compact input))
  | .default => withArgument fun a => .ok (if isMissing input then a else input)
  | .append => withArgument fun a => .ok (.str (input.displayText ++ a.displayText))
  | .prepend => withArgument fun a => .ok (.str (a.displayText ++ input.displayText))
  | .arithmetic op => withArgument fun a => compute op input a
  | .join => .ok (.str (joined ((arguments.head?.map Value.displayText).getD " ") input))
  | .first => .ok (firstOf input)
  | .last => .ok (lastOf input)

end Filter

/-- Apply the filter of a name. -/
def applyFilter (name : String) (input : Value) (arguments : List Value) : Except Error Value :=
  match Filter.ofName? name with
  | none => .error (.unknownFilter name)
  | some f => (f.apply input arguments).mapError (.filter name)

end Flowgraph.Template
