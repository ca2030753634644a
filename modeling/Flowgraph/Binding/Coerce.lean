/- # Flowgraph.Binding.Coerce -- fitting a value to a declared kind

Scalars fail when they do not fit: booleans come from booleans, numbers and the
words true and false, integers from numbers and strings without fraction, floats
from numbers and strings that are finite.  A string takes the string form of
anything.  Arrays and objects also come from strings that hold one, and are null
when nothing sensible can be made of the value.  Null becomes the kind's zero.
-/
import Flowgraph.Binding.Kind
import Flowgraph.Binding.Repair
import Flowgraph.Document.View
import Flowgraph.Template.Basic

set_option autoImplicit false

namespace Flowgraph

/-- Why a parameter could not be bound. -/
inductive BindingError where
  | template (parameter : String) (cause : Template.Error)
  | coercion (parameter : String) (expected : ParamKind) (actual : Value)
  deriving DecidableEq

def BindingError.message : BindingError → String
  | .template parameter cause => s!"Cannot bind '{parameter}': {cause.message}"
  | .coercion parameter expected actual =>
    s!"Cannot convert '{parameter}' to {expected.name}: got {actual.typeName} {Json.compact actual}"

namespace Binding

/-- A text that is one of the words true and false, in any ASCII case, with blanks around it. -/
def boolOfText? (s : String) : Option Bool :=
  let word := String.ofList ((Text.trim s.toList).map Char.toLower)
  if word = "true" then some true else if word = "false" then some false else none

def toBool? : Value → Option Bool
  | .bool b => some b
  | .str s => boolOfText? s
  | .num n => some (n.toFloat != 0)
  | _ => none

def integerOfText? (s : String) : Option Int :=
  let cs := Text.trim s.toList
  match (readInteger? cs).filter fun n => -0x8000000000000000 ≤ n && n < 0x8000000000000000 with
  | some n => some n
  | none => (readFloat? cs).bind Number.wholeOf?

def toInteger? : Value → Option Int
  | .num n =>
    match n.toSigned? with
    | some k => some k
    | none => Number.wholeOf? n.toFloat
  | .str s => integerOfText? s
  | _ => none

def toArray? : Value → Option Value
  | .arr items => some (.arr items)
  | .str s =>
    match Json.parse (repair s) with
    | some (.arr items) => some (.arr items)
    | _ => none
  | _ => none

def toObject? : Value → Option Value
  | .obj members => some (.obj members)
  | .str s =>
    match Json.parse s with
    | some (.obj members) => some (.obj members)
    | _ => none
  | _ => none

/-- The value as a kind of scalar, if it fits. -/
def toScalar? : ParamKind → Value → Option Value
  | .bool, v => (toBool? v).map .bool
  | .integer, v => ((toInteger? v).bind Number.ofInt?).map .num
  | .float, v => (v.toFloat?.bind Number.ofFloat?).map .num
  | _, _ => none

/-- Fit a value to the kind of a parameter. -/
def coerce (parameter : String) (kind : ParamKind) (value : Value) : Except BindingError Value :=
  match kind with
  | .any | .context | .flow => .ok value
  | .string =>
    match value with
    | .null => .ok .null
    | v => .ok (.str v.stringForm)
  | .array => .ok ((toArray? value).getD .null)
  | .object | .map => .ok ((toObject? value).getD .null)
  | .bool | .integer | .float =>
    if value = .null then .ok kind.zero
    else
      match toScalar? kind value with
      | some v => .ok v
      | none => .error (.coercion parameter kind value)

end Binding
end Flowgraph
