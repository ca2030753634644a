/- # Flowgraph.Run.Machine -- the state of a graph that is being run

A machine holds what the nodes of a graph carry from one moment to the next, the
runs that were started on it, and the tasks at work.  Tasks are numbered and never
removed; one that is done stays with its result.  Each task keeps where it stands,
so that `Machine.step`, in the module after this one, can take the tasks in any
order.

A node's result is set once and kept: whoever asks for it later gets it without
running the node again.  The gate lets one task at a time compute it.  While a
node's queue is open, the ports its function fires wait there until the result is
stored.
-/
import Flowgraph.Graph.Basic
import Flowgraph.Run.Shared

set_option autoImplicit false

namespace Flowgraph

abbrev TaskId := Nat
abbrev RunId := Nat

/-- Ports that were fired before the node was through. -/
structure PortQueue where
  closed : Bool
  pending : List String
  deriving DecidableEq

/-- What a node carries through a run. -/
structure Cell where
  result : Option Document
  /-- What the node's parameters were bound against. -/
  input : Document
  error : Option NodeError
  running : Bool
  /-- The task that is computing the result. -/
  gate : Option TaskId
  queue : PortQueue
  deriving DecidableEq

namespace Cell

def idle : Cell := ⟨none, .empty, none, false, none, ⟨false, []⟩⟩

/-- The cell before a new run.  The gate is left to the task that holds it. -/
def reset (c : Cell) : Cell := { idle with gate := c.gate }

end Cell

/-- Where a node is in its run. -/
inductive Status where
  | idle
  | running
  | completed
  | failed
  deriving DecidableEq

def Cell.status (c : Cell) : Status :=
  if c.result.isSome then if c.error.isSome then .failed else .completed
  else if c.running then .running
  else .idle

/-- What a node got from one upstream so far. -/
inductive Fetch where
  | absent
  | present (result : Document)
  | awaited (task : TaskId)
  deriving DecidableEq

/-- A program at work. -/
inductive Execution where
  | active (program : Program)
  /-- A port was fired and is about to be reported. -/
  | fired (port : String) (queued : Bool) (next : Except GraphError Unit → Program)
  /-- A port was fired and its targets are being run. -/
  | routed (targets : List TaskId) (next : Except GraphError Unit → Program)

/-- Where the computation of a node's result stands. -/
inductive Stage where
  /-- Look for a result. -/
  | probe
  /-- Wait for the gate. -/
  | enter
  /-- Inside the gate, look again. -/
  | recheck
  | mark
  | announce
  /-- Ask the upstreams one after the other. -/
  | gather (fetched : List Fetch) (left : List Upstream)
  /-- Wait for the upstreams that were asked to run. -/
  | join (fetched : List Fetch)
  /-- Look at the shared document. -/
  | scope (received : Document)
  | record (received : Document) (scope : Document)
  | run (received : Document) (execution : Execution)
  | report (outcome : Except NodeError Document)
  | blame (error : NodeError)
  | store (result : Document)
  | publish (result : Document)
  | unmark (result : Document)
  /-- Leave the gate after computing the result. -/
  | release (result : Document)
  | close (result : Document)
  | branch (result : Document) (pending : List String)
  /-- Leave the gate after finding a result. -/
  | yield (result : Document)
  | done (result : Document)

inductive EntryStage where
  /-- Wait for a permit. -/
  | waiting
  | running (call : TaskId)
  | done

inductive SettleStage where
  /-- Take the tasks that the run keeps track of. -/
  | take
  | join (batch : List TaskId)
  | done

inductive LaunchStage where
  | announce
  | spawn
  | join (entries : List TaskId)
  | settle (task : TaskId)
  | done

/-- What a task is there for. -/
inductive Work where
  /-- Give the result of a node. -/
  | call (node : NodeId) (began : Instant) (stage : Stage)
  /-- Run what lies behind a node that is through, one round after the other. -/
  | fanOut (node : NodeId) (rounds : List (List NodeId)) (waiting : List TaskId)
  /-- Work that a function of a node left behind. -/
  | aside (node : NodeId) (execution : Execution)
  /-- Run an entry under a permit of a launch. -/
  | entry (launch : TaskId) (node : NodeId) (stage : EntryStage)
  | launch (permits : Nat) (stage : LaunchStage)
  /-- Wait for everything that the run has triggered. -/
  | settle (stage : SettleStage)

structure Task where
  run : RunId
  work : Work

namespace Task

/-- Whether a task has nothing left to do. -/
def isDone (t : Task) : Bool :=
  match t.work with
  | .call _ _ (.done _) => true
  | .fanOut _ [] [] => true
  | .aside _ (.active (.finish _)) => true
  | .entry _ _ .done => true
  | .launch _ .done => true
  | .settle .done => true
  | _ => false

/-- The result that a finished call gives. -/
def result? (t : Task) : Option Document :=
  match t.work with
  | .call _ _ (.done d) => some d
  | _ => none

/-- Whether a task goes on with work that a function left behind. -/
def isAside (t : Task) : Bool :=
  match t.work with
  | .aside _ _ => true
  | _ => false

end Task

/-- A run that was started. -/
structure RunRecord where
  execution : ExecutionId
  began : Instant
  shared : Shared
  /-- Fan-out tasks that nobody waits for yet. -/
  fanOut : List TaskId

structure Machine where
  cells : List (NodeId × Cell)
  runs : List RunRecord
  tasks : Array Task
  /-- The latest first. -/
  log : List Event
  now : Instant

namespace Machine

/-- A machine on which nothing has run. -/
def new (now : Instant) : Machine := ⟨[], [], #[], [], now⟩

def cell (m : Machine) (id : NodeId) : Cell := (m.cells.lookup id).getD .idle

/-- Write an entry of a list of entries by key. -/
def putCell (id : NodeId) (c : Cell) : List (NodeId × Cell) → List (NodeId × Cell)
  | [] => [(id, c)]
  | (k, d) :: rest => if k = id then (id, c) :: rest else (k, d) :: putCell id c rest

def updateCell (m : Machine) (id : NodeId) (change : Cell → Cell) : Machine :=
  { m with cells := putCell id (change (m.cell id)) m.cells }

def run? (m : Machine) (r : RunId) : Option RunRecord := m.runs[r]?

def updateRun (m : Machine) (r : RunId) (change : RunRecord → RunRecord) : Machine :=
  { m with runs := m.runs.modify r change }

def updateShared (m : Machine) (r : RunId) (change : Shared → Shared) : Machine :=
  m.updateRun r fun run => { run with shared := change run.shared }

/-- Start a task; it gets the next number. -/
def spawn (m : Machine) (t : Task) : TaskId × Machine :=
  (m.tasks.size, { m with tasks := m.tasks.push t })

/-- Start a task for each of a list of nodes. -/
def spawnCalls (m : Machine) (r : RunId) : List NodeId → List TaskId × Machine
  | [] => ([], m)
  | id :: rest =>
    let (t, m) := m.spawn ⟨r, .call id m.now .probe⟩
    let (ts, m) := m.spawnCalls r rest
    (t :: ts, m)

def setWork (m : Machine) (t : TaskId) (work : Work) : Machine :=
  { m with tasks := m.tasks.modify t fun task => { task with work := work } }

def emit (m : Machine) (r : RunId) (fact : Fact) : Machine :=
  match m.run? r with
  | some run => { m with log := ⟨run.execution, m.now, fact⟩ :: m.log }
  | none => m

/-- The events in the order they were emitted. -/
def events (m : Machine) : List Event := m.log.reverse

def isDone (m : Machine) (t : TaskId) : Bool :=
  match m.tasks[t]? with
  | some task => task.isDone
  | none => false

def allDone (m : Machine) (ts : List TaskId) : Bool := ts.all m.isDone

def resultOf? (m : Machine) (t : TaskId) : Option Document := m.tasks[t]?.bind Task.result?

/-- The milliseconds from an instant until now. -/
def millisecondsSince (m : Machine) (t : Instant) : Nat :=
  let nanos (i : Instant) : Int := i.seconds * 1000000000 + i.nanos
  (nanos m.now - nanos t).toNat / 1000000

/-- Reset every node and start a run; nothing is launched yet. -/
def startRun (m : Machine) (execution : ExecutionId) (inputs : RunInputs) : RunId × Machine :=
  (m.runs.length,
    { m with
      cells := m.cells.map fun c => (c.1, c.2.reset)
      runs := m.runs ++ [⟨execution, m.now, .start inputs, []⟩] })

end Machine
end Flowgraph
