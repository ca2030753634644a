/- # Flowgraph.Run.Step -- one step of one task

`Machine.step` takes one task one step further, or is none when the task must
wait or is done.  A step reads or writes one thing that tasks share: a result, a
gate, the shared document, the queue of a node, the log, the tasks a run keeps
track of.  What happens between two such accesses belongs to the step of the first.

A schedule is a list of moves: a step of a task, or the clock being set.  Tasks
may be taken in any order; that is all the freedom there is.
-/
import Flowgraph.Run.Exchange
import Flowgraph.Run.Machine

set_option autoImplicit false

namespace Flowgraph

namespace Machine

variable (g : Graph)

/-! ## Programs -/

/-- One step of a program of a node. -/
def stepExecution (m : Machine) (r : RunId) (n : Node) : Execution → Option (Execution × Machine)
  | .active (.finish _) => none
  | .active (.publish key value next) =>
    (m.run? r).map fun run =>
      let (answer, shared) := run.shared.publishNode n.id key value
      (.active (next answer), m.updateShared r fun _ => shared)
  | .active (.publishOutput name value next) =>
    (m.run? r).map fun run =>
      let (answer, shared) := run.shared.publishOutput name value
      (.active (next answer), m.updateShared r fun _ => shared)
  | .active (.readShared next) =>
    (m.run? r).map fun run => (.active (next run.shared.document), m)
  | .active (.notify notice next) => some (.active next, m.emit r (.node n.id (.notice notice)))
  | .active (.fire port next) =>
    if !n.isPortDriven then some (.active (next (.error (.portless n.id))), m)
    else if port ∉ n.ports then some (.active (next (.error (.unknownPort n.id port))), m)
    else if (m.cell n.id).queue.closed then some (.fired port false next, m)
    else
      some (.fired port true next, m.updateCell n.id fun c =>
        { c with queue := { c.queue with pending := c.queue.pending ++ [port] } })
  | .active (.readClock next) => some (.active (next m.now), m)
  | .active (.pause _ next) => some (.active next, m)
  | .active (.leave work next) =>
    some (.active next, (m.spawn ⟨r, .aside n.id (.active work)⟩).2)
  | .fired port queued next =>
    let m := m.emit r (.node n.id (.portFired port queued))
    if queued then some (.active (next (.ok ())), m)
    else
      let (ts, m) := m.spawnCalls r (n.targets port)
      some (.routed ts next, m)
  | .routed ts next => if m.allDone ts then some (.active (next (.ok ())), m) else none

/-! ## Calls -/

/-- The results of upstreams that were asked and have one. -/
def fetchedResults (m : Machine) (fetched : List Fetch) : List Document :=
  fetched.filterMap fun
    | .absent => none
    | .present d => some d
    | .awaited t => m.resultOf? t

/-- Whether all upstreams that were asked to run are done. -/
def fetchedAll (m : Machine) (fetched : List Fetch) : Bool :=
  fetched.all fun
    | .awaited t => m.isDone t
    | _ => true

/-- Ask one upstream: through a port for a result that is there, otherwise for one that is computed. -/
def fetch (m : Machine) (r : RunId) (u : Upstream) : Fetch × Machine :=
  if (g.node? u.node).isNone then (.absent, m)
  else if u.viaPort then
    match (m.cell u.node).result with
    | some d => (.present d, m)
    | none => (.absent, m)
  else
    let (t, m) := m.spawn ⟨r, .call u.node m.now .probe⟩
    (.awaited t, m)

/-- The outcome of a program that has ended, as a result document. -/
def conclude (n : Node) (received : Document) (outcome : Except NodeError Returned) :
    Except NodeError Document :=
  match outcome with
  | .error e => .error e
  | .ok returned => (n.shape received returned).mapError .path

/-- The program of a node's function once its parameters are bound against a scope. -/
def invocation (run : RunRecord) (n : Node) (scope : Document) : Except NodeError Program :=
  let context : Context := ⟨run.execution, n.id, n.name, run.shared.inputs⟩
  match n.bind g.evaluator context scope with
  | .error e => .error (.binding e)
  | .ok i => .ok (n.function.body i)

/-- What lies behind a node that is through: the targets of each pending port, or
all downstream nodes when it has no ports. -/
def rounds (n : Node) (pending : List String) : List (List NodeId) :=
  if n.isPortDriven then pending.map n.targets else [n.downstream]

/-- One step of the call of a node by the task `t`: the stage after it. -/
def stepCall (m : Machine) (t : TaskId) (r : RunId) (n : Node) (began : Instant) :
    Stage → Option (Stage × Machine)
  | .probe =>
    match (m.cell n.id).result with
    | some d => some (.done d, m)
    | none => some (.enter, m)
  | .enter =>
    match (m.cell n.id).gate with
    | some _ => none
    | none => some (.recheck, m.updateCell n.id fun c => { c with gate := some t })
  | .recheck =>
    match (m.cell n.id).result with
    | some d => some (.yield d, m)
    | none => some (.mark, m)
  | .mark => some (.announce, m.updateCell n.id fun c => { c with running := true })
  | .announce =>
    some (.gather [] n.upstream, m.emit r (.node n.id (.started n.function.signature.key)))
  | .gather fetched [] => some (.join fetched, m)
  | .gather fetched (u :: left) =>
    let (f, m) := m.fetch g r u
    some (.gather (fetched ++ [f]) left, m)
  | .join fetched =>
    if m.fetchedAll fetched then some (.scope (mergeResults (m.fetchedResults fetched)), m) else none
  | .scope received =>
    (m.run? r).map fun run =>
      match inputScope run.shared.document received with
      | .error e => (.report (.error (.path e)), m)
      | .ok scope => (.record received scope, m)
  | .record received scope =>
    (m.run? r).map fun run =>
      let m := m.updateCell n.id fun c => { c with input := scope }
      match invocation g run n scope with
      | .error e => (.report (.error e), m)
      | .ok program => (.run received (.active program), m)
  | .run received (.active (.finish outcome)) => some (.report (conclude n received outcome), m)
  | .run received e => (m.stepExecution r n e).map fun next => (.run received next.1, next.2)
  | .report (.ok d) =>
    some (.store d, m.emit r (.node n.id (.completed (m.millisecondsSince began))))
  | .report (.error e) => some (.blame e, m.emit r (.node n.id (.failed n.name e.message)))
  | .blame e =>
    some (.store (n.failure e m.now), m.updateCell n.id fun c => { c with error := some e })
  | .store d => some (.publish d, m.updateCell n.id fun c => { c with result := some d })
  | .publish d => some (.unmark d, m.updateShared r fun s => s.publishResult n.id d)
  | .unmark d => some (.release d, m.updateCell n.id fun c => { c with running := false })
  | .release d => some (.close d, m.updateCell n.id fun c => { c with gate := none })
  | .close d =>
    some (.branch d (m.cell n.id).queue.pending,
      m.updateCell n.id fun c => { c with queue := ⟨true, []⟩ })
  | .branch d pending =>
    let (task, m) := m.spawn ⟨r, .fanOut n.id (rounds n pending) []⟩
    some (.done d, m.updateRun r fun run => { run with fanOut := run.fanOut ++ [task] })
  | .yield d => some (.done d, m.updateCell n.id fun c => { c with gate := none })
  | .done _ => none

/-- When the computation of a call began, once a step from the given stage is taken. -/
def beganAfter (m : Machine) (began : Instant) : Stage → Instant
  | .announce => m.now
  | _ => began

/-! ## The other tasks -/

/-- One step of fan-out: the next round starts when the one before is done. -/
def stepFanOut (m : Machine) (r : RunId) (rounds : List (List NodeId)) (waiting : List TaskId) :
    Option ((List (List NodeId) × List TaskId) × Machine) :=
  match waiting, rounds with
  | [], [] => none
  | [], targets :: rest =>
    let (ts, m) := m.spawnCalls r targets
    some ((rest, ts), m)
  | _ :: _, rounds => if m.allDone waiting then some ((rounds, []), m) else none

/-- The permits of a launch. -/
def permits (m : Machine) (launch : TaskId) : Nat :=
  match m.tasks[launch]? with
  | some ⟨_, .launch n _⟩ => n
  | _ => 0

def setPermits (m : Machine) (launch : TaskId) (n : Nat) : Machine :=
  match m.tasks[launch]? with
  | some ⟨_, .launch _ stage⟩ => m.setWork launch (.launch n stage)
  | _ => m

def stepEntry (m : Machine) (r : RunId) (launch : TaskId) (node : NodeId) :
    EntryStage → Option (EntryStage × Machine)
  | .waiting =>
    match m.permits launch with
    | 0 => none
    | n + 1 =>
      let (t, m) := (m.setPermits launch n).spawn ⟨r, .call node m.now .probe⟩
      some (.running t, m)
  | .running t =>
    if m.isDone t then some (.done, m.setPermits launch (m.permits launch + 1)) else none
  | .done => none

/-- Start a task for each entry of a launch. -/
def spawnEntries (m : Machine) (r : RunId) (launch : TaskId) :
    List NodeId → List TaskId × Machine
  | [] => ([], m)
  | id :: rest =>
    let (t, m) := m.spawn ⟨r, .entry launch id .waiting⟩
    let (ts, m) := m.spawnEntries r launch rest
    (t :: ts, m)

def stepLaunch (m : Machine) (t : TaskId) (r : RunId) : LaunchStage → Option (LaunchStage × Machine)
  | .announce => some (.spawn, m.emit r (.run (.started g.id g.entries)))
  | .spawn =>
    let (ts, m) := m.spawnEntries r t g.entries
    some (.join ts, m)
  | .join ts =>
    if m.allDone ts then
      let (s, m) := m.spawn ⟨r, .settle .take⟩
      some (.settle s, m)
    else none
  | .settle s => if m.isDone s then some (.done, m) else none
  | .done => none

/-- The most permits that the semaphore of a launch holds: it counts them in a word of 64 bits, of
which three have another use. -/
def maxPermits : Nat := 2305843009213693951

/-- Whether the semaphore of a launch panics at the next step of a task: when it is made with more
permits than it holds, and when an entry gives one back that it has no room for. -/
def panics (m : Machine) (t : TaskId) : Bool :=
  match m.tasks[t]? with
  | some ⟨_, .launch n .spawn⟩ => maxPermits < n
  | some ⟨_, .entry launch _ (.running c)⟩ => m.isDone c && maxPermits ≤ m.permits launch
  | _ => false

def stepSettle (m : Machine) (r : RunId) : SettleStage → Option (SettleStage × Machine)
  | .take =>
    (m.run? r).map fun run =>
      if run.fanOut.isEmpty then (.done, m)
      else (.join run.fanOut, m.updateRun r fun run => { run with fanOut := [] })
  | .join batch => if m.allDone batch then some (.take, m) else none
  | .done => none

/-- One step of a task; none when it must wait or is done.  Where the task `panics` there is no
such step. -/
def step (m : Machine) (t : TaskId) : Option Machine :=
  match m.tasks[t]? with
  | none => none
  | some ⟨r, work⟩ =>
    match work with
    | .call id began stage =>
      (g.node? id).bind fun n =>
        (m.stepCall g t r n began stage).map fun next =>
          next.2.setWork t (.call id (m.beganAfter began stage) next.1)
    | .fanOut id rounds waiting =>
      (m.stepFanOut r rounds waiting).map fun next =>
        next.2.setWork t (.fanOut id next.1.1 next.1.2)
    | .aside id execution =>
      (g.node? id).bind fun n =>
        (m.stepExecution r n execution).map fun next => next.2.setWork t (.aside id next.1)
    | .entry launch id stage =>
      (m.stepEntry r launch id stage).map fun next => next.2.setWork t (.entry launch id next.1)
    | .launch permits stage =>
      (m.stepLaunch g t r stage).map fun next => next.2.setWork t (.launch permits next.1)
    | .settle stage =>
      (m.stepSettle r stage).map fun next => next.2.setWork t (.settle next.1)

/-! ## Schedules -/

inductive Move where
  /-- A task takes a step, if it can. -/
  | step (task : TaskId)
  /-- The clock is set. -/
  | tick (now : Instant)
  deriving DecidableEq

def move (m : Machine) : Move → Machine
  | .step t => (m.step g t).getD m
  | .tick now => { m with now := now }

/-- The machine after a schedule. -/
def exec (m : Machine) (schedule : List Move) : Machine := schedule.foldl (move g) m

end Machine
end Flowgraph
