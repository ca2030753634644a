/- # Flowgraph.Binding.Bind -- from a mapping to an argument

A mapping is an expression over the scope of a node.  Without a tag it is a path
and takes the value there as it is; a text that is no path to a value is read as
JSON, and is a string when it is not that either.  With a tag it is rendered, and
the text is repaired and read back as JSON, or is a string.  A blank mapping is
none, and a parameter without mapping takes the zero of its kind.

The values of a dictionary are resolved in the same way but not fitted to a kind.
-/
import Flowgraph.Binding.Coerce
import Flowgraph.Template.Render

set_option autoImplicit false

namespace Flowgraph

/-- From a template and a model to text. -/
abbrev Evaluator := String → Value → Except Template.Error String

/-- An entry of a parameter that is put together from several mappings. -/
structure DictionaryEntry where
  parameter : String
  key : String
  source : String
  deriving DecidableEq

namespace Binding

/-- Whether an expression must be rendered. -/
def hasTag (expression : String) : Bool := Template.hasTag expression.toList

/-- The JSON value of a text, blanks around it aside, or the text `otherwise`. -/
def readOr (text : List Char) (otherwise : String) : Value :=
  (Json.parseChars (Text.trim text)).getD (.str otherwise)

/-- The value of an expression, not yet fitted to a kind. -/
def resolve (evaluator : Evaluator) (parameter expression : String) (scope : Document) :
    Except BindingError Value :=
  if hasTag expression then
    match evaluator expression scope.root with
    | .error cause => .error (.template parameter cause)
    | .ok text => .ok (readOr (repairChars text.toList) text)
  else
    match scope.get? expression with
    | some v => .ok v
    | none => .ok (readOr expression.toList expression)

/-- The argument for a parameter with an optional mapping. -/
def bind (evaluator : Evaluator) (p : Parameter) (expression : Option String) (scope : Document) :
    Except BindingError Value :=
  match expression.filter fun e => !Text.isBlankText e with
  | none => .ok p.kind.zero
  | some e =>
    match resolve evaluator p.name e scope with
    | .error cause => .error cause
    | .ok v => coerce p.name p.kind v

/-- The members that a list of entries gives a parameter, written one after the other. -/
def bindEntries (evaluator : Evaluator) (parameter : String) (scope : Document) :
    Members → List DictionaryEntry → Except BindingError Members
  | members, [] => .ok members
  | members, e :: rest =>
    if e.parameter = parameter then
      match resolve evaluator parameter e.source scope with
      | .error cause => .error cause
      | .ok v => bindEntries evaluator parameter scope (members.put e.key v) rest
    else bindEntries evaluator parameter scope members rest

/-- The object that a parameter gets from dictionary entries. -/
def bindDictionary (evaluator : Evaluator) (parameter : String) (entries : List DictionaryEntry)
    (scope : Document) : Except BindingError Value :=
  (bindEntries evaluator parameter scope [] entries).map .obj

end Binding
end Flowgraph
