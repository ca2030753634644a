/- # Flowgraph.Proofs.Run.History -- what is done in the course of a run

A machine says where everything stands, not how it came there.  What must be
counted or ordered over a whole run is its history: the deeds of its steps, in
the order of the schedule.  A step has a deed when it calls a function, when that
function ends, when it stores a result, when it starts what lies behind a node,
and when a port accepts being fired.

A run is started on a machine at rest, where all earlier work is done, and with
some requests: results that are asked for, launches, and waiting for the run to
settle.  A request made later in the run is one whose task takes its first step
later.
-/
import Flowgraph.Proofs.Run.Frame

set_option autoImplicit false

namespace Flowgraph

/-- What a step does that is worth remembering. -/
inductive Deed where
  /-- A task calls the function of a node. -/
  | invoked (node : NodeId) (task : TaskId) (call : Invocation)
  /-- The function of a node ends. -/
  | ended (node : NodeId) (task : TaskId) (outcome : Except NodeError Returned)
  /-- The result of a node is written. -/
  | stored (node : NodeId) (task : TaskId) (result : Document)
  /-- What lies behind a node is started, as a task of its own. -/
  | branched (node : NodeId) (task fanOut : TaskId)
  /-- A port accepts being fired. -/
  | fired (node : NodeId) (port : String) (queued : Bool)

namespace Deed

def invokes (id : NodeId) : Deed → Bool
  | .invoked k _ _ => k == id
  | _ => false

def stores (id : NodeId) : Deed → Bool
  | .stored k _ _ => k == id
  | _ => false

def branches (id : NodeId) : Deed → Bool
  | .branched k _ _ => k == id
  | _ => false

def fires : Deed → Bool
  | .fired _ _ _ => true
  | _ => false

/-- Whether a port is fired that does not wait in a queue. -/
def late : Deed → Bool
  | .fired _ _ queued => !queued
  | _ => false

/-- The port of a node that is put into its queue. -/
def queued? (id : NodeId) : Deed → Option String
  | .fired k port true => if k = id then some port else none
  | _ => none

variable {id : NodeId} {deed : Deed}

theorem of_invokes (is : deed.invokes id = true) : ∃ t i, deed = .invoked id t i := by
  cases deed with
  | invoked k t i =>
      have same : k = id := by simpa [invokes] using is
      exact ⟨t, i, same ▸ rfl⟩
  | _ => cases is

theorem of_stores (is : deed.stores id = true) : ∃ t d, deed = .stored id t d := by
  cases deed with
  | stored k t d =>
      have same : k = id := by simpa [stores] using is
      exact ⟨t, d, same ▸ rfl⟩
  | _ => cases is

theorem of_branches (is : deed.branches id = true) : ∃ t f, deed = .branched id t f := by
  cases deed with
  | branched k t f =>
      have same : k = id := by simpa [branches] using is
      exact ⟨t, f, same ▸ rfl⟩
  | _ => cases is

end Deed

/-- The ports of a node that were fired while its queue was open, in order. -/
def queuedFires (id : NodeId) (h : List Deed) : List String := h.filterMap (Deed.queued? id)

@[simp] theorem queuedFires_append (id : NodeId) (h more : List Deed) :
    queuedFires id (h ++ more) = queuedFires id h ++ queuedFires id more := List.filterMap_append

theorem mem_queuedFires {id : NodeId} {h : List Deed} {port : String} :
    port ∈ queuedFires id h ↔ .fired id port true ∈ h := by
  constructor
  · intro member
    obtain ⟨deed, there, is⟩ := List.mem_filterMap.1 member
    cases deed with
    | fired k port' queued =>
        cases queued with
        | true =>
            simp only [Deed.queued?] at is
            split at is
            · rename_i same
              cases is
              exact same ▸ there
            · cases is
        | false => cases is
    | _ => cases is
  · exact fun there => List.mem_filterMap.2 ⟨_, there, by simp [Deed.queued?]⟩

namespace Machine

variable (g : Graph)

/-! ## Deeds -/

/-- What the function of a node learns from its context in a run. -/
def contextOf (run : RunRecord) (n : Node) : Context :=
  ⟨run.execution, n.id, n.name, run.shared.inputs⟩

/-- The deeds of the next step of a program of a node. -/
def executionDeeds (m : Machine) (n : Node) : Execution → List Deed
  | .active (.fire port _) =>
    if n.isPortDriven ∧ port ∈ n.ports then [.fired n.id port (!(m.cell n.id).queue.closed)] else []
  | _ => []

/-- The deeds of the next step of a call of a node by the task `t`. -/
def callDeeds (m : Machine) (t : TaskId) (r : RunId) (n : Node) : Stage → List Deed
  | .record _ scope =>
    match m.run? r with
    | none => []
    | some run =>
      match n.bind g.evaluator (contextOf run n) scope with
      | .error _ => []
      | .ok i => [.invoked n.id t i]
  | .run _ (.active (.finish outcome)) => [.ended n.id t outcome]
  | .run _ x => m.executionDeeds n x
  | .store d => [.stored n.id t d]
  | .branch _ _ => [.branched n.id t m.tasks.size]
  | _ => []

/-- The deeds of the next step of a task. -/
def deeds (m : Machine) (t : TaskId) : List Deed :=
  match m.tasks[t]? with
  | some ⟨r, .call id _ stage⟩ =>
    match g.node? id with
    | some n => m.callDeeds g t r n stage
    | none => []
  | some ⟨_, .aside id x⟩ =>
    match g.node? id with
    | some n => m.executionDeeds n x
    | none => []
  | _ => []

def moveDeeds (m : Machine) : Move → List Deed
  | .step t => m.deeds g t
  | .tick _ => []

/-- The deeds of a schedule in order. -/
def history : Machine → List Move → List Deed
  | _, [] => []
  | m, v :: rest => m.moveDeeds g v ++ history (m.move g v) rest

theorem exec_cons (m : Machine) (v : Move) (rest : List Move) :
    m.exec g (v :: rest) = (m.move g v).exec g rest := rfl

theorem exec_append (m : Machine) (first rest : List Move) :
    m.exec g (first ++ rest) = (m.exec g first).exec g rest := by
  simp [exec, List.foldl_append]

theorem history_append (m : Machine) (first rest : List Move) :
    m.history g (first ++ rest) = m.history g first ++ (m.exec g first).history g rest := by
  induction first generalizing m with
  | nil => rfl
  | cons v first ih => simp [history, ih, exec_cons]

/-- What the moves of a schedule keep holds after it, of the history and the machine together. -/
theorem exec_induction {P : List Deed → Machine → Prop} :
    ∀ schedule : List Move, (∀ h m, ∀ v ∈ schedule, P h m → P (h ++ m.moveDeeds g v) (m.move g v)) →
      ∀ (h : List Deed) (m : Machine), P h m → P (h ++ m.history g schedule) (m.exec g schedule)
  | [], _, h, m, holds => by simpa [history, exec] using holds
  | v :: rest, keeps, h, m, holds => by
      have first := keeps h m v List.mem_cons_self holds
      have after := exec_induction rest
        (fun h m v member => keeps h m v (List.mem_cons_of_mem _ member)) _ _ first
      rw [exec_cons, history, ← List.append_assoc]
      exact after

/-! ## Runs -/

end Machine

/-- Nothing in the program fires a port. -/
def Program.Fireless : Program → Prop
  | .finish _ => True
  | .publish _ _ next => ∀ answer, (next answer).Fireless
  | .publishOutput _ _ next => ∀ answer, (next answer).Fireless
  | .readShared next => ∀ d, (next d).Fireless
  | .notify _ next => next.Fireless
  | .fire _ _ => False
  | .readClock next => ∀ t, (next t).Fireless
  | .pause _ next => next.Fireless
  | .leave work next => work.Fireless ∧ next.Fireless

/-- Work that a function left behind and that never fires a port of its node. -/
def Work.Harmless (g : Graph) : Work → Prop
  | .aside id x =>
    ∃ p, x = .active p ∧ ∀ n, g.node? id = some n → n.isPortDriven = true → p.Fireless
  | _ => False

namespace Machine

variable (g : Graph)

/-- All work on the graph is done, but for work left behind that no run can notice. -/
structure AtRest (m : Machine) : Prop where
  done : ∀ (t : TaskId) (task : Task), m.tasks[t]? = some task →
    task.isDone = true ∨ task.work.Harmless g
  free : ∀ id, (m.cell id).gate = none

theorem atRest_new (now : Instant) : (Machine.new now).AtRest g where
  done t task here := by simp [new] at here
  free _ := rfl

/-- What can be asked of a run. -/
inductive Request where
  /-- The result of a node. -/
  | result (node : NodeId)
  /-- To run every entry and all that it triggers. -/
  | launch
  /-- To wait for what has been triggered. -/
  | settle
  deriving DecidableEq

/-- What the task of a request has to do. -/
def Request.work (now : Instant) : Request → Work
  | .result node => .call node now .probe
  | .launch => .launch g.maxEntries .announce
  | .settle => .settle .take

/-- The machine on which a run has been started with some requests, before anything moves. -/
def begin (m : Machine) (execution : ExecutionId) (inputs : RunInputs) (requests : List Request) :
    Machine :=
  let (r, m) := m.startRun execution inputs
  { m with tasks := m.tasks ++ (requests.map fun q => (⟨r, q.work g m.now⟩ : Task)).toArray }

/-- The machine on which a graph is about to be run as a whole. -/
def launched (m : Machine) (execution : ExecutionId) (inputs : RunInputs) : Machine :=
  m.begin g execution inputs [.launch]

/-- The number of the run that is started next. -/
def nextRun (m : Machine) : RunId := m.runs.length

/-- The number of the task that is started next. -/
def nextTask (m : Machine) : TaskId := m.tasks.size

variable (m : Machine) (execution : ExecutionId) (inputs : RunInputs) (requests : List Request)

theorem tasks_begin (k : TaskId) : (m.begin g execution inputs requests).tasks[k]? =
    if k < m.nextTask then m.tasks[k]?
    else (requests.map fun q => (⟨m.nextRun, q.work g m.now⟩ : Task))[k - m.nextTask]? := by
  by_cases old : k < m.nextTask
  · rw [if_pos old]
    exact Array.getElem?_append_left old
  · rw [if_neg old]
    have new : m.tasks.size ≤ k := Nat.le_of_not_lt old
    exact (Array.getElem?_append_right new).trans (List.getElem?_toArray ..)

variable {g m execution inputs requests} in
/-- A task of a run that is about to begin is an old one, or that of a request. -/
theorem begun_task {k : TaskId} {task : Task}
    (here : (m.begin g execution inputs requests).tasks[k]? = some task) :
    (k < m.nextTask ∧ m.tasks[k]? = some task) ∨
      (m.nextTask ≤ k ∧ ∃ q ∈ requests, task = ⟨m.nextRun, q.work g m.now⟩) := by
  rw [tasks_begin] at here
  by_cases old : k < m.nextTask
  · rw [if_pos old] at here
    exact .inl ⟨old, here⟩
  · rw [if_neg old] at here
    obtain ⟨q, asked, same⟩ := List.mem_map.1 (List.mem_of_getElem? here)
    exact .inr ⟨Nat.le_of_not_lt old, q, asked, same.symm⟩

theorem size_begin :
    (m.begin g execution inputs requests).tasks.size = m.nextTask + requests.length := by
  simp [begin, startRun, nextTask]

/-- A run starts with every result forgotten. -/
theorem cell_begin (id : NodeId) :
    (m.begin g execution inputs requests).cell id = (m.cell id).reset :=
  cell_startRun m execution inputs id

theorem run?_begin : (m.begin g execution inputs requests).run? m.nextRun =
    some ⟨execution, m.now, .start inputs, []⟩ :=
  run?_startRun m execution inputs

end Machine
end Flowgraph
