/- # Flowgraph.Function.Script -- functions written as lists of steps

A scripted function does its steps in order; the first that fails is its failure,
and without a step that returns it gives back nothing.  Work that is left behind
ends with a line saying what became of it.
-/
import Flowgraph.Function.Basic

set_option autoImplicit false

namespace Flowgraph

namespace Function

/-- How an argument is asked for. -/
inductive View where
  | any
  | integer
  | float
  | bool
  | text
  | array
  | object
  deriving DecidableEq

/-- The value of an argument seen through a view. -/
def View.need (view : View) (arguments : Members) (name : String) : Except NodeError Value :=
  match view with
  | .any => Arguments.need arguments name
  | .integer => (Arguments.needInteger arguments name).map .ofInt
  | .float => (Arguments.needFloat arguments name).map fun x => .str (floatName x)
  | .bool => (Arguments.needBool arguments name).map .bool
  | .text => (Arguments.needText arguments name).map .str
  | .array => (Arguments.needArray arguments name).map .arr
  | .object => (Arguments.needObject arguments name).map .obj

/-- What a script gives back. -/
inductive Answer where
  | given (r : Returned)
  | arguments
  | argument (name : String)
  /-- Twice an integer argument, modulo `2 ^ 64`. -/
  | double (name : String)
  | ports
  | parameter (name : String)
  | parameters
  | variable (name : String)
  | environment
  /-- The value at a path of the shared document. -/
  | shared (path : String)
  | service
  | identity

inductive Step where
  | fire (port : String)
  | fireLater (port : String)
  | publish (key : String) (value : Value)
  | publishOutput (name : String) (value : Value)
  | notify (n : Notice)
  | need (view : View) (name : String)
  | fail (e : NodeError)
  | answer (a : Answer)

/-- The line about a fire that was left behind. -/
def fireLine (port : String) : Except GraphError Unit → String
  | .ok () => port ++ ": ok"
  | .error e => port ++ ": " ++ e.message

/-- What an answer gives back that is looked up in the context. -/
def Answer.lookUp (c : Context) : Answer → Value
  | .parameter name => (c.inputs.parameters.get? name).getD .null
  | .parameters => .strings c.inputs.parameters.names
  | .variable name => ((c.inputs.environment.get? name).map Value.str).getD .null
  | .environment => .obj (c.inputs.environment.map fun e => (e.1, .str e.2))
  | .service =>
    match c.inputs.services.get? .text with
    | some (.text s) => .str s
    | _ => .null
  | _ => .null

def Answer.program (i : Invocation) : Answer → Program
  | .given r => .return_ r
  | .arguments => .return_ (.record i.arguments)
  | .argument name => .return_ (.value ((Members.get? name i.arguments).getD .null))
  | .double name =>
    Program.require (Arguments.needInteger i.arguments name) fun n =>
      .return_ (.value (.ofInt (2 * n)))
  | .ports => Program.require i.needFlow fun ports => .return_ (.value (.strings ports))
  | .shared path =>
    Program.require i.needContext fun _ =>
      .readShared fun d => .return_ (.value ((d.get? path).getD .null))
  | .identity =>
    Program.require i.needContext fun c =>
      .return_ (.record [("id", .str c.node.toText), ("name", (c.name.map Value.str).getD .null)])
  | a => Program.require i.needContext fun c => .return_ (.value (a.lookUp c))

/-- One step, and then the rest of the script. -/
def Step.program (i : Invocation) (rest : Program) : Step → Program
  | .fire port =>
    Program.require i.needFlow fun _ =>
      .fire port fun fired => Program.require (fired.mapError .controlFlow) fun _ => rest
  | .fireLater port =>
    Program.require i.needFlow fun _ =>
      .leave (.fire port fun fired => .return_ (.value (.str (fireLine port fired)))) rest
  | .publish key value =>
    Program.require i.needContext fun _ =>
      .publish key value fun done => Program.require (done.mapError .path) fun _ => rest
  | .publishOutput name value =>
    Program.require i.needContext fun _ =>
      .publishOutput name value fun done => Program.require (done.mapError .path) fun _ => rest
  | .notify n => Program.require i.needContext fun _ => .notify n rest
  | .need view name => Program.require (view.need i.arguments name) fun _ => rest
  | .fail e => .fail e
  | .answer a => a.program i

def script (i : Invocation) : List Step → Program
  | [] => .return_ .unit
  | s :: rest => s.program i (script i rest)

/-- A function that does the steps of a script. -/
def scripted (signature : Signature) (steps : List Step) : Function where
  signature := signature
  body i := script i steps

end Function
end Flowgraph
