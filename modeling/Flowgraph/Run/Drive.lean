/- # Flowgraph.Run.Drive -- running tasks until nothing is left to do

`drive` is one way to schedule: it takes the first task as far as it goes, with
the calls that it starts before it, then the next one, and comes back to those
that had to wait as long as anything moves.  Fan-out comes after everything else,
so that a caller gets a result before what lies behind it runs.  Work that
functions left behind is held back.

What `drive` does is the execution of some schedule; no rule of the engine depends
on it being this one.
-/
import Flowgraph.Run.Step

set_option autoImplicit false

namespace Flowgraph

/-- Whether a task runs what lies behind a node. -/
def Task.isFanOut (t : Task) : Bool :=
  match t.work with
  | .fanOut _ _ _ => true
  | _ => false

namespace Machine

/-- More steps than any run takes that ends within memory. -/
def stepLimit : Nat := 1000000000

/-- The tasks from a number on that may be driven and are fan-out, or are not. -/
def drivable (m : Machine) (fanOut : Bool) (first : TaskId) : List TaskId :=
  (List.range' first (m.tasks.size - first)).filter fun t =>
    match m.tasks[t]? with
    | some task => !task.isDone && !task.isAside && task.isFanOut == fanOut
    | none => false

/-- Drive the tasks that are ready, in turn, and those that wait once more if any moved. -/
def driveFrom (g : Graph) (goal : List TaskId) :
    Nat → (ready waiting : List TaskId) → (moved : Bool) → Machine → Machine
  | 0, _, _, _, m => m
  | limit + 1, [], waiting, moved, m =>
    if moved && !waiting.isEmpty then driveFrom g goal limit waiting.reverse [] false m
    else m
  | limit + 1, t :: ready, waiting, moved, m =>
    if m.allDone goal then m
    else if m.isDone t then driveFrom g goal limit ready waiting moved m
    else
      let size := m.tasks.size
      match m.step g t with
      | some m =>
        let ready := m.drivable false size ++ t :: ready ++ m.drivable true size
        driveFrom g goal limit ready waiting true m
      | none => driveFrom g goal limit ready (t :: waiting) moved m

/-- Drive every task until those of the goal are done or nothing moves; those come first. -/
def drive (g : Graph) (goal : List TaskId) (m : Machine) : Machine :=
  let others := (m.drivable false 0 ++ m.drivable true 0).filter fun t => t ∉ goal
  driveFrom g goal stepLimit (goal ++ others) [] false m

/-- Start tasks and drive until they are done. -/
def perform (g : Graph) (m : Machine) (tasks : List Task) : List TaskId × Machine :=
  let ts := List.range' m.tasks.size tasks.length
  let m := { m with tasks := m.tasks ++ tasks.toArray }
  (ts, m.drive g ts)

end Machine

/-- A node that failed. -/
structure NodeFailure where
  node : NodeId
  name : Option String
  message : String
  deriving DecidableEq

/-- What a run amounts to. -/
structure RunOutcome where
  execution : ExecutionId
  /-- The shared document at the end. -/
  document : Document
  /-- How many nodes have a result, failed ones included. -/
  executed : Nat
  /-- Ordered by node. -/
  failures : List NodeFailure
  milliseconds : Nat
  deriving DecidableEq

namespace RunOutcome

def isSuccess (o : RunOutcome) : Bool := o.failures.isEmpty

/-- The result of a node as it was published. -/
def nodeResult? (o : RunOutcome) (node : NodeId) : Option Value :=
  o.document.get? (Shared.nodePath node)

/-- A workflow output. -/
def output? (o : RunOutcome) (name : String) : Option Value :=
  o.document.get? ("workflow.output." ++ name)

end RunOutcome

namespace Machine

variable (g : Graph)

/-- The failure of a node that has a result. -/
def failure? (m : Machine) (n : Node) : Option NodeFailure :=
  if (m.cell n.id).result.isSome then
    (m.cell n.id).error.map fun e => ⟨n.id, n.name, e.message⟩
  else none

/-- What a run amounts to at this point. -/
def outcome? (m : Machine) (r : RunId) : Option RunOutcome :=
  (m.run? r).map fun run =>
    { execution := run.execution
      document := run.shared.document
      executed := (g.nodes.filter fun n => (m.cell n.id).result.isSome).length
      failures := (g.nodes.filterMap m.failure?).mergeSort fun a b => a.node.le b.node
      milliseconds := m.millisecondsSince run.began }

/-- Give the results of nodes, running what they depend on, all at the same time. -/
def pull (m : Machine) (r : RunId) (nodes : List NodeId) :
    List (Except GraphError (Option Document)) × Machine :=
  let known := nodes.filter fun id => (g.node? id).isSome
  let (ts, m) := m.perform g (known.map fun id => ⟨r, .call id m.now .probe⟩)
  let results := known.zip (ts.map m.resultOf?)
  (nodes.map fun id =>
    match results.lookup id with
    | some result => .ok result
    | none => .error (.nodeNotFound id), m)

/-- Wait for everything that the run has triggered. -/
def settle (m : Machine) (r : RunId) : Machine := (m.perform g [⟨r, .settle .take⟩]).2

/-- Launch every entry and wait for it and for everything it triggers; whether that came to an end. -/
def launch (m : Machine) (r : RunId) : Bool × Machine :=
  let (ts, m) := m.perform g [⟨r, .launch g.maxEntries .announce⟩]
  (m.allDone ts, m)

/-- Start a run, launch it, and report that it is over. -/
def runAll (m : Machine) (execution : ExecutionId) (inputs : RunInputs) :
    Except FlowError RunOutcome × Machine :=
  let (r, m) := m.startRun execution inputs
  let (finished, m) := m.launch g r
  match m.outcome? g r with
  | none => (.error (.execution "no run was started"), m)
  | some outcome =>
    let m := m.emit r (.run (.completed finished outcome.milliseconds))
    if finished then (.ok outcome, m)
    else (.error (.execution "the run waits for itself"), m)

end Machine
end Flowgraph
