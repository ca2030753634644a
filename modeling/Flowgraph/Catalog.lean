/- # Flowgraph.Catalog -- workflows kept to be run by identifier

A catalog holds the graphs of registered workflows, each with the machine it runs
on.  Registering a workflow builds it, and replaces the one of its identifier; a
workflow that cannot be built changes nothing.
-/
import Flowgraph.Run.Drive

set_option autoImplicit false

namespace Flowgraph

/-- A graph and the machine it runs on. -/
structure Installation where
  graph : Graph
  machine : Machine

structure Catalog where
  registry : Registry
  settings : Settings
  /-- Replaces the template evaluator of every graph, if there is one. -/
  evaluator : Option Evaluator
  workflows : List (WorkflowId × Installation)

namespace Catalog

def new (registry : Registry) (settings : Settings) (evaluator : Option Evaluator) : Catalog :=
  ⟨registry, settings, evaluator, []⟩

/-- Build the graph of a workflow for this catalog. -/
def build (c : Catalog) (w : Workflow) : Except GraphError Graph :=
  (Graph.build w c.registry c.settings).map fun g =>
    { g with evaluator := c.evaluator.getD g.evaluator }

/-- Write an installation under an identifier. -/
def put (id : WorkflowId) (i : Installation) :
    List (WorkflowId × Installation) → List (WorkflowId × Installation)
  | [] => [(id, i)]
  | (k, j) :: rest => if k = id then (id, i) :: rest else (k, j) :: put id i rest

def register (c : Catalog) (now : Instant) (w : Workflow) : Except GraphError Catalog :=
  (c.build w).map fun g => { c with workflows := put w.id ⟨g, .new now⟩ c.workflows }

/-- Run a registered workflow: its outcome, the events of the run, and the catalog after it. -/
def execute (c : Catalog) (execution : ExecutionId) (id : WorkflowId) (inputs : RunInputs) :
    Except FlowError RunOutcome × List Event × Catalog :=
  match c.workflows.lookup id with
  | none => (.error (.graph (.notFound id.toText)), [], c)
  | some ⟨g, m⟩ =>
    let before := m.events.length
    let (outcome, m) := m.runAll g execution inputs
    (outcome, m.events.drop before, { c with workflows := put id ⟨g, m⟩ c.workflows })

/-- Build and run a workflow without keeping it. -/
def executeOnce (c : Catalog) (now : Instant) (execution : ExecutionId) (w : Workflow)
    (inputs : RunInputs) : Except FlowError RunOutcome × List Event :=
  match c.build w with
  | .error e => (.error (.graph e), [])
  | .ok g =>
    let (outcome, m) := (Machine.new now).runAll g execution inputs
    (outcome, m.events)

end Catalog
end Flowgraph
