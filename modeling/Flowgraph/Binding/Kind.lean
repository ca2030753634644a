/- # Flowgraph.Binding.Kind -- the declared kinds of parameters

A parameter takes a value of one of eight kinds, or it is filled by the engine
with a handle on the run (`context`) or on the node's ports (`flow`).
-/
import Flowgraph.Json.Value

set_option autoImplicit false

namespace Flowgraph

inductive ParamKind where
  | bool
  | integer
  | float
  | string
  | array
  | object
  | any
  /-- An object put together from dictionary entries. -/
  | map
  | context
  | flow
  deriving DecidableEq

namespace ParamKind

def name : ParamKind → String
  | .bool => "bool"
  | .integer => "integer"
  | .float => "float"
  | .string => "string"
  | .array => "array"
  | .object => "object"
  | .any => "any"
  | .map => "map"
  | .context => "context"
  | .flow => "flow"

def all : List ParamKind :=
  [.bool, .integer, .float, .string, .array, .object, .any, .map, .context, .flow]

/-- The kind of a name. -/
def ofName? (text : String) : Option ParamKind := all.find? fun k => k.name == text

/-- Kinds that are filled by the engine. -/
def isInjected : ParamKind → Bool
  | .context => true
  | .flow => true
  | _ => false

/-- Kinds that null does not inhabit. -/
def isScalar : ParamKind → Bool
  | .bool => true
  | .integer => true
  | .float => true
  | _ => false

/-- The value of a parameter that nothing is mapped to. -/
def zero : ParamKind → Value
  | .bool => .bool false
  | .integer => .num (.int 0 (by decide))
  | .float => .num (.float (Float.ofBits 0) (by decide))
  | _ => .null

end ParamKind

/-- A declared parameter. -/
structure Parameter where
  name : String
  kind : ParamKind
  deriving DecidableEq

end Flowgraph
