/- # Flowgraph.Json.Printer -- the written forms of a value

Integers are written plainly and doubles with the fewest digits that read back;
members keep their order.
-/
import Flowgraph.Json.Form
import Flowgraph.Json.Value

set_option autoImplicit false

namespace Flowgraph.Json

mutual

def form : Value → Form
  | .null => .null
  | .bool b => .bool b
  | .num n => .scalar n.text
  | .str s => .str s
  | .arr items => .arr (forms items)
  | .obj members => .obj (formMembers members)

def forms : List Value → List Form
  | [] => []
  | v :: vs => form v :: forms vs

def formMembers : List (String × Value) → List (String × Form)
  | [] => []
  | (k, v) :: ms => (k, form v) :: formMembers ms

end

def compactChars (v : Value) : List Char := (form v).compact

/-- The text of a value without blanks. -/
def compact (v : Value) : String := (form v).toText

/-- The indented text of a value. -/
def pretty (v : Value) : String := (form v).toPretty

end Flowgraph.Json
