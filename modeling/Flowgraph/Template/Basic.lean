/- # Flowgraph.Template.Basic -- what can go wrong in a template

An error is a fault of form at a byte offset of the template, a filter nobody
knows, or a filter that cannot be applied.
-/

set_option autoImplicit false

namespace Flowgraph.Template

/-- A fault in the form of a template. -/
inductive Fault where
  | unterminatedTag
  | unterminatedString
  | invalidNumber (text : String)
  | unexpectedCharacter (c : Char)
  | expectedValue
  | expectedFilter
  | unexpectedToken
  deriving DecidableEq

/-- Why a filter could not be applied. -/
inductive FilterFault where
  | missingArgument
  | expectedNumbers (left right : String)
  | divisionByZero
  | notFinite
  deriving DecidableEq

inductive Error where
  | form (offset : Nat) (fault : Fault)
  | unknownFilter (name : String)
  | filter (name : String) (fault : FilterFault)
  deriving DecidableEq

def Fault.message : Fault → String
  | .unterminatedTag => "unterminated '\x7b\x7b'"
  | .unterminatedString => "unterminated string literal"
  | .invalidNumber text => s!"invalid number '{text}'"
  | .unexpectedCharacter c => s!"unexpected character '{c}'"
  | .expectedValue => "expected a value"
  | .expectedFilter => "expected a filter name"
  | .unexpectedToken => "unexpected token"

def FilterFault.message : FilterFault → String
  | .missingArgument => "missing argument"
  | .expectedNumbers left right => s!"expected numbers, got {left} and {right}"
  | .divisionByZero => "division by zero"
  | .notFinite => "result is not a finite number"

def Error.message : Error → String
  | .form offset fault => s!"Syntax error at offset {offset}: {fault.message}"
  | .unknownFilter name => s!"Unknown filter: {name}"
  | .filter name fault => s!"Filter '{name}' failed: {fault.message}"

end Flowgraph.Template
