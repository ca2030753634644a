/- # Flowgraph.Run.Shared -- the document that the nodes of a run share

The document starts with the run's parameters under `workflow.parameters` and its
environment under `environment`.  It is written only by publishing: a node
writes below `nodes.<id>`, where its result is merged too, and workflow outputs
go below `workflow.output`, where the last one counts.
-/
import Flowgraph.Document.Basic
import Flowgraph.Run.Inputs
import Flowgraph.Uuid

set_option autoImplicit false

namespace Flowgraph

structure Shared where
  inputs : RunInputs
  document : Document
  deriving DecidableEq

namespace Shared

/-- The document before anything is published. -/
def seed (inputs : RunInputs) : Document :=
  ⟨.obj [("workflow", .obj [("parameters", .obj inputs.parameters)]),
    ("environment", .obj (inputs.environment.map fun e => (e.1, .str e.2)))]⟩

def start (inputs : RunInputs) : Shared := ⟨inputs, seed inputs⟩

def get? (s : Shared) (path : String) : Option Value := s.document.get? path

/-- Write at a path; a refused write changes nothing. -/
def write (s : Shared) (path : String) (value : Value) : Except PathError Unit × Shared :=
  match s.document.set path value with
  | .ok d => (.ok (), { s with document := d })
  | .error e => (.error e, s)

/-- The path below which a node publishes. -/
def nodePath (node : NodeId) : String := "nodes." ++ node.toText

/-- Write a value of a node. -/
def publishNode (s : Shared) (node : NodeId) (key : String) (value : Value) :
    Except PathError Unit × Shared :=
  s.write (nodePath node ++ "." ++ key) value

/-- Merge the result of a node into what it published. -/
def publishResult (s : Shared) (node : NodeId) (result : Document) : Shared :=
  match Document.empty.set (nodePath node) result.root with
  | .ok under => { s with document := s.document.merge under }
  | .error _ => s

/-- Write a workflow output. -/
def publishOutput (s : Shared) (name : String) (value : Value) : Except PathError Unit × Shared :=
  if Text.isBlankText name then (.error .empty, s)
  else s.write ("workflow.output." ++ name) value

def description (s : Shared) : String :=
  let parameters := s.inputs.parameters.length
  let environment := s.inputs.environment.length
  s!"SharedContext \x7b parameters: {parameters}, environment: {environment} \x7d"

end Shared
end Flowgraph
