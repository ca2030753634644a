/- # Flowgraph.Template.Pipeline -- the meaning of a tag

A tag holds an operand and filters with arguments:

    operand ( '|' name ( ':' operand ( ',' operand )* )? )*

`Pipeline.read` takes the tokens as far as they follow this form: the first
operand, the filter applications that are complete, and the fault at which the
form was left, if it was.  `evaluate` folds the applications over the operand's
value; a filter that fails comes before a fault further on.
-/
import Flowgraph.Template.Token
import Flowgraph.Template.Filter
import Flowgraph.Document.Basic

set_option autoImplicit false

namespace Flowgraph.Template

inductive Operand where
  | literal (value : Value)
  | path (text : String)
  deriving DecidableEq

/-- The value of an operand; a path that leads nowhere is null. -/
def Operand.value (model : Value) : Operand → Value
  | .literal v => v
  | .path text => ((Document.mk model).get? text).getD .null

def Token.operand? : Token → Option Operand
  | .literal v => some (.literal v)
  | .path text => some (.path text)
  | _ => none

/-- A filter by name with its arguments. -/
structure Application where
  name : String
  arguments : List Operand
  deriving DecidableEq

structure Pipeline where
  /-- Missing only when the body does not start with an operand. -/
  source : Option Operand
  applications : List Application
  /-- Where and how the tokens leave the form. -/
  fault : Option (Nat × Fault)
  deriving DecidableEq

namespace Pipeline

/-- What the form expects next. -/
inductive Expect where
  | source
  | pipe
  | filterName
  | afterName (filter : String)
  | argument (filter : String) (before : List Operand)
  | afterArgument (filter : String) (before : List Operand)

/-- The application that is complete when the form is left in a state. -/
def Expect.complete : Expect → List Application
  | .afterName f => [⟨f, []⟩]
  | .afterArgument f before => [⟨f, before⟩]
  | _ => []

/-- The fault of a token, or of the end, that the form does not expect. -/
def Expect.fault : Expect → Fault
  | .source => .expectedValue
  | .argument _ _ => .expectedValue
  | .filterName => .expectedFilter
  | _ => .unexpectedToken

/-- Whether the form may end here. -/
def Expect.mayEnd : Expect → Bool
  | .pipe => true
  | .afterName _ => true
  | .afterArgument _ _ => true
  | _ => false

/-- What is expected after a token. -/
def Expect.next : Expect → Token → Option Expect
  | .source, t => t.operand?.map fun _ => .pipe
  | .pipe, .pipe => some .filterName
  | .filterName, .path text => some (.afterName text)
  | .afterName _, .pipe => some .filterName
  | .afterName f, .colon => some (.argument f [])
  | .argument f before, t => t.operand?.map fun o => .afterArgument f (before ++ [o])
  | .afterArgument _ _, .pipe => some .filterName
  | .afterArgument f before, .comma => some (.argument f before)
  | _, _ => none

/-- The application that a token completes. -/
def Expect.completedBy (e : Expect) : Token → List Application
  | .pipe => e.complete
  | _ => []

/-- The applications in the rest of the tokens, and the fault that ends them. -/
def readFrom (stop : Nat) : Expect → List Placed → List Application × Option (Nat × Fault)
  | e, [] => (e.complete, if e.mayEnd then none else some (stop, e.fault))
  | e, t :: ts =>
    match e.next t.token with
    | some e' =>
      let (applications, fault) := readFrom stop e' ts
      (e.completedBy t.token ++ applications, fault)
    | none => (e.complete, some (t.offset, e.fault))

/-- Read the tokens of a body that ends at the offset `stop`. -/
def read (stop : Nat) (ts : List Placed) : Pipeline :=
  let (applications, fault) := readFrom stop .source ts
  ⟨ts.head?.bind fun t => t.token.operand?, applications, fault⟩

/-- Apply filters in order. -/
def fold (model : Value) : Value → List Application → Except Error Value
  | v, [] => .ok v
  | v, a :: rest =>
    match applyFilter a.name v (a.arguments.map (Operand.value model)) with
    | .error e => .error e
    | .ok w => fold model w rest

def evaluate (model : Value) (p : Pipeline) : Except Error Value :=
  match fold model ((p.source.map (Operand.value model)).getD .null) p.applications, p.fault with
  | .error e, _ => .error e
  | .ok _, some (offset, fault) => .error (.form offset fault)
  | .ok v, none => .ok v

end Pipeline

/-- The value of a tag's body whose first byte has the given offset. -/
def evaluateAt (offset : Nat) (body : List Char) (model : Value) : Except Error Value :=
  match tokens offset body with
  | .error e => .error e
  | .ok ts => (Pipeline.read (offset + Text.byteSize body) ts).evaluate model

/-- The value of an expression that stands for itself. -/
def evaluate (expression : String) (model : Value) : Except Error Value :=
  evaluateAt 0 expression.toList model

end Flowgraph.Template
