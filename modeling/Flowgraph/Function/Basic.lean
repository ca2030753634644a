/- # Flowgraph.Function.Basic -- functions that nodes call

A function has a signature, which says what the engine must know before calling
it, and a body: from an invocation to a program.  A program is what the function
does, one request to the engine at a time, each with what follows upon the
engine's answer, up to a result or a failure.  Every path through a program ends,
so every function does.

A panic is a failure too, with an error of its own.  Work that a function leaves
behind is a program that goes on by itself; what comes of it is nobody's result.
-/
import Flowgraph.Document.Basic
import Flowgraph.Error
import Flowgraph.Event.Basic
import Flowgraph.Run.Inputs

set_option autoImplicit false

namespace Flowgraph

structure Signature where
  key : String
  description : String
  category : String
  parameters : List Parameter
  /-- Named output ports; none for functions whose output goes everywhere. -/
  ports : List String
  deriving DecidableEq

namespace Signature

/-- The category of functions that name none. -/
def generalCategory : String := "general"

def parameter? (s : Signature) (name : String) : Option Parameter :=
  s.parameters.find? fun p => p.name == name

def isPortDriven (s : Signature) : Bool := !s.ports.isEmpty

end Signature

/-- What a function gives back. -/
inductive Returned where
  | unit
  /-- One value, exposed as the member `result`. -/
  | value (v : Value)
  /-- Members exposed by their names. -/
  | record (members : Members)
  /-- A point in time, exposed by its calendar members. -/
  | temporal (t : Instant)
  deriving DecidableEq

namespace Returned

/-- An object as a record, anything else as a value. -/
def ofStructured : Value → Returned
  | .obj members => .record members
  | v => .value v

/-- A computed quantity; null when it is not finite. -/
def ofFloat (x : Float) : Returned :=
  .value (((Number.ofQuantity? x).map Value.num).getD .null)

/-- The members that a node exposes. -/
def members : Returned → Members
  | .unit => []
  | .value v => [("result", v)]
  | .record ms => ms
  | .temporal t =>
    [("year", .ofInt t.date.year), ("month", .ofCount t.date.month), ("day", .ofCount t.date.day),
      ("hour", .ofCount t.hour), ("minute", .ofCount t.minute), ("second", .ofCount t.second),
      ("weekday", .str (Date.weekday t.days)), ("timestamp", .ofInt t.seconds),
      ("iso", .str t.toOffset)]

end Returned

inductive Program where
  | finish (outcome : Except NodeError Returned)
  /-- Publish a value of the node. -/
  | publish (key : String) (value : Value) (next : Except PathError Unit → Program)
  /-- Publish a workflow output. -/
  | publishOutput (name : String) (value : Value) (next : Except PathError Unit → Program)
  /-- Look at the shared document. -/
  | readShared (next : Document → Program)
  | notify (notice : Notice) (next : Program)
  /-- Fire a port of the node. -/
  | fire (port : String) (next : Except GraphError Unit → Program)
  | readClock (next : Instant → Program)
  /-- Let time pass. -/
  | pause (milliseconds : Nat) (next : Program)
  /-- Leave work behind. -/
  | leave (work : Program) (next : Program)

namespace Program

def return_ (r : Returned) : Program := .finish (.ok r)

def fail (e : NodeError) : Program := .finish (.error e)

/-- Go on with a value, or fail with its error. -/
def require {α : Type} (r : Except NodeError α) (next : α → Program) : Program :=
  match r with
  | .ok x => next x
  | .error e => fail e

end Program

/-- What a function learns from its context. -/
structure Context where
  execution : ExecutionId
  node : NodeId
  name : Option String
  inputs : RunInputs
  deriving DecidableEq

/-- One call of a function. -/
structure Invocation where
  arguments : Members
  context : Option Context
  /-- The node's ports. -/
  flow : Option (List String)
  deriving DecidableEq

namespace Invocation

def needContext (i : Invocation) : Except NodeError Context :=
  match i.context with
  | some c => .ok c
  | none => .error (.notInjected .context)

def needFlow (i : Invocation) : Except NodeError (List String) :=
  match i.flow with
  | some ports => .ok ports
  | none => .error (.notInjected .flow)

end Invocation

structure Function where
  signature : Signature
  body : Invocation → Program

/-! ## Arguments

Reading an argument fails when it is missing or not of the kind asked for. -/

namespace Arguments

def need (arguments : Members) (name : String) : Except NodeError Value :=
  match Members.get? name arguments with
  | some v => .ok v
  | none => .error (.missingArgument name)

/-- An argument seen through a view that may refuse it. -/
def needAs {α : Type} (view : Value → Option α) (expected : String) (arguments : Members)
    (name : String) : Except NodeError α :=
  match need arguments name with
  | .error e => .error e
  | .ok v =>
    match view v with
    | some x => .ok x
    | none => .error (.invalidArgument name expected v.typeName)

/-- An integer of a signed word. -/
def needInteger : Members → String → Except NodeError Int :=
  needAs (fun | .num n => n.toSigned? | _ => none) "integer"

def needFloat : Members → String → Except NodeError Float :=
  needAs (fun | .num n => some n.toFloat | _ => none) "float"

def needBool : Members → String → Except NodeError Bool :=
  needAs (fun | .bool b => some b | _ => none) "bool"

def needText : Members → String → Except NodeError String :=
  needAs (fun | .str s => some s | _ => none) "string"

def needArray : Members → String → Except NodeError (List Value) :=
  needAs (fun | .arr items => some items | _ => none) "array"

def needObject : Members → String → Except NodeError Members :=
  needAs (fun | .obj members => some members | _ => none) "object"

end Arguments
end Flowgraph
