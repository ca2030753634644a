/- # Flowgraph.Document.View -- a value as text, as truth and as a number

`displayText` is what a template writes: strings bare, null as nothing, arrays as
their items in brackets separated by comma and blank, objects as JSON.
`stringForm` is what a string parameter takes: strings bare, null as nothing and
everything else as JSON.  Strings are read as numbers where a number is asked
for, with blanks around them.
-/
import Flowgraph.Json.Printer
import Flowgraph.Number.Reading
import Flowgraph.Text.Blank

set_option autoImplicit false

namespace Flowgraph.Value

mutual

def displayChars : Value → List Char
  | .null => []
  | .bool b => Json.compactChars (.bool b)
  | .num n => n.text
  | .str s => s.toList
  | .arr items => '[' :: displayItems items ++ [']']
  | .obj members => Json.compactChars (.obj members)

def displayItems : List Value → List Char
  | [] => []
  | [v] => displayChars v
  | v :: w :: rest => displayChars v ++ ',' :: ' ' :: displayItems (w :: rest)

end

def displayText (v : Value) : String := String.ofList (displayChars v)

def stringForm : Value → String
  | .str s => s
  | .null => ""
  | v => Json.compact v

def typeName : Value → String
  | .null => "null"
  | .bool _ => "bool"
  | .num _ => "number"
  | .str _ => "string"
  | .arr _ => "array"
  | .obj _ => "object"

/-- Containers are true, numbers unless zero, strings unless empty, null is false. -/
def isTruthy : Value → Bool
  | .bool b => b
  | .null => false
  | .num n => n.toFloat != 0
  | .str s => !s.isEmpty
  | .arr _ => true
  | .obj _ => true

/-- The double that a number is, or that a string names. -/
def toFloat? : Value → Option Float
  | .num n => some n.toFloat
  | .str s => readFloat? (Text.trim s.toList)
  | _ => none

end Flowgraph.Value
