/- # Flowgraph.Proofs.Run.Transition -- all that one step can do

`Transition` lists every way in which a task can go on, one rule for each: what
must hold before, where the task stands afterwards, and the `Effect` on the rest
of the machine.  `step_cases` is the inversion of `Machine.step`: every step
follows one of the rules and has its effect and no other (`After`), and its deeds
are those of the effect.  Whatever holds of all runs is derived from the rules.
-/
import Flowgraph.Proofs.Run.History

set_option autoImplicit false

namespace Flowgraph

namespace Machine

/-! ## Effects -/

/-- What a step does besides moving its task on. -/
structure Effect where
  cell : NodeId → Cell → Cell := fun _ c => c
  /-- Tasks that are started, in the order of their numbers. -/
  spawned : List Task := []
  /-- On the record of the task's run. -/
  run : RunRecord → RunRecord := fun run => run
  facts : List Fact := []
  /-- The permits that a launch has afterwards. -/
  grant : Option (TaskId × Nat) := none
  deeds : List Deed := []

/-- Change the cell of one node. -/
def onCell (id : NodeId) (change : Cell → Cell) (k : NodeId) (c : Cell) : Cell :=
  if k = id then change c else c

@[simp] theorem onCell_self (id : NodeId) (change : Cell → Cell) (c : Cell) :
    onCell id change id c = change c := by simp [onCell]

theorem onCell_ne {id k : NodeId} (change : Cell → Cell) (c : Cell) (ne : k ≠ id) :
    onCell id change k c = c := by simp [onCell, ne]

end Machine

/-- A task after permits were granted to a launch; only that launch is touched. -/
def Task.granted (grant : Option (TaskId × Nat)) (k : TaskId) (task : Task) : Task :=
  match grant, task.work with
  | some (launch, n), .launch _ stage =>
    if k = launch then { task with work := .launch n stage } else task
  | _, _ => task

/-- Whether a task is a launch. -/
def Work.isLaunch : Work → Bool
  | .launch _ _ => true
  | _ => false

theorem Work.Harmless.not_launch {g : Graph} {work : Work} (harmless : work.Harmless g) :
    work.isLaunch = false := by
  cases work <;> first | rfl | exact harmless.elim

/-- Granting permits changes how many a launch has, and nothing else. -/
theorem Task.granted_cases (grant : Option (TaskId × Nat)) (k : TaskId) (task : Task) :
    task.granted grant k = task ∨ ∃ r n n' stage, task = ⟨r, .launch n stage⟩ ∧
      task.granted grant k = ⟨r, .launch n' stage⟩ := by
  obtain ⟨r, work⟩ := task
  unfold granted
  split
  · rename_i launch n permits stage isLaunch
    cases isLaunch
    by_cases here : k = launch
    · exact .inr ⟨r, permits, n, stage, rfl, by rw [if_pos here]⟩
    · exact .inl (by rw [if_neg here])
  · exact .inl rfl

theorem Task.granted_of_not_launch (grant : Option (TaskId × Nat)) (k : TaskId) {task : Task}
    (other : task.work.isLaunch = false) : task.granted grant k = task := by
  obtain same | ⟨r, n, n', stage, rfl, -⟩ := task.granted_cases grant k
  · exact same
  · cases other

@[simp] theorem Task.granted_none (k : TaskId) (task : Task) : task.granted none k = task := by
  cases task
  rfl

/-- Where the permits of a launch are not seen, it is not seen that some are granted. -/
theorem Task.view_granted {α : Sort _} (view : Task → α)
    (blind : ∀ r n n' stage, view ⟨r, .launch n' stage⟩ = view ⟨r, .launch n stage⟩)
    (grant : Option (TaskId × Nat)) (k : TaskId) (task : Task) :
    view (task.granted grant k) = view task := by
  obtain same | ⟨r, n, n', stage, rfl, same⟩ := task.granted_cases grant k
  · rw [same]
  · rw [same, blind]

theorem Task.granted_run (grant : Option (TaskId × Nat)) (k : TaskId) (task : Task) :
    (task.granted grant k).run = task.run :=
  view_granted Task.run (fun _ _ _ _ => rfl) grant k task

theorem Task.isLaunch_granted (grant : Option (TaskId × Nat)) (k : TaskId) (task : Task) :
    (task.granted grant k).work.isLaunch = task.work.isLaunch :=
  view_granted (fun task => task.work.isLaunch) (fun _ _ _ _ => rfl) grant k task

theorem Task.isDone_granted (grant : Option (TaskId × Nat)) (k : TaskId) (task : Task) :
    (task.granted grant k).isDone = task.isDone :=
  view_granted Task.isDone (fun _ _ _ stage => by cases stage <;> rfl) grant k task

/-- A program has come to its end, or it goes on. -/
theorem Execution.ended_or_running (x : Execution) :
    (∃ outcome, x = .active (.finish outcome)) ∨ ∀ outcome, x ≠ .active (.finish outcome) := by
  by_cases ended : ∃ outcome, x = .active (.finish outcome)
  · exact .inl ended
  · exact .inr fun outcome same => ended ⟨outcome, same⟩

/-- A call that is done has its answer. -/
theorem Task.answered {r : RunId} {id : NodeId} {began : Instant} {stage : Stage}
    (done : (⟨r, .call id began stage⟩ : Task).isDone = true) : ∃ d, stage = .done d := by
  cases stage with
  | done d => exact ⟨d, rfl⟩
  | _ => cases done

namespace Machine

variable (g : Graph)

/-! ## Rules -/

/-- How a program of the node `n` goes on in the run `r`. -/
inductive ExecutionStep (m : Machine) (r : RunId) (n : Node) : Execution → Execution → Effect → Prop
  | publish {key value next run} (running : m.run? r = some run) :
      ExecutionStep m r n (.active (.publish key value next))
        (.active (next (run.shared.publishNode n.id key value).1))
        { run := fun run => { run with shared := (run.shared.publishNode n.id key value).2 } }
  | publishOutput {name value next run} (running : m.run? r = some run) :
      ExecutionStep m r n (.active (.publishOutput name value next))
        (.active (next (run.shared.publishOutput name value).1))
        { run := fun run => { run with shared := (run.shared.publishOutput name value).2 } }
  | readShared {next run} (running : m.run? r = some run) :
      ExecutionStep m r n (.active (.readShared next)) (.active (next run.shared.document)) {}
  | notify {notice next} :
      ExecutionStep m r n (.active (.notify notice next)) (.active next)
        { facts := [.node n.id (.notice notice)] }
  | portless {port next} (plain : n.isPortDriven = false) :
      ExecutionStep m r n (.active (.fire port next)) (.active (next (.error (.portless n.id)))) {}
  | undeclared {port next} (driven : n.isPortDriven = true) (unknown : port ∉ n.ports) :
      ExecutionStep m r n (.active (.fire port next))
        (.active (next (.error (.unknownPort n.id port)))) {}
  | late {port next} (driven : n.isPortDriven = true) (declared : port ∈ n.ports)
      (closed : (m.cell n.id).queue.closed = true) :
      ExecutionStep m r n (.active (.fire port next)) (.fired port false next)
        { deeds := [.fired n.id port false] }
  | queue {port next} (driven : n.isPortDriven = true) (declared : port ∈ n.ports)
      (isOpen : (m.cell n.id).queue.closed = false) :
      ExecutionStep m r n (.active (.fire port next)) (.fired port true next)
        { cell := onCell n.id fun c =>
            { c with queue := { c.queue with pending := c.queue.pending ++ [port] } }
          deeds := [.fired n.id port true] }
  | readClock {next} :
      ExecutionStep m r n (.active (.readClock next)) (.active (next m.now)) {}
  | pause {milliseconds next} :
      ExecutionStep m r n (.active (.pause milliseconds next)) (.active next) {}
  | leave {work next} :
      ExecutionStep m r n (.active (.leave work next)) (.active next)
        { spawned := [⟨r, .aside n.id (.active work)⟩] }
  | reported {port next} :
      ExecutionStep m r n (.fired port true next) (.active (next (.ok ())))
        { facts := [.node n.id (.portFired port true)] }
  | route {port next} :
      ExecutionStep m r n (.fired port false next)
        (.routed (List.range' m.tasks.size (n.targets port).length) next)
        { facts := [.node n.id (.portFired port false)]
          spawned := (n.targets port).map (m.freshCall r) }
  | arrive {ts next} (all : m.allDone ts = true) :
      ExecutionStep m r n (.routed ts next) (.active (next (.ok ()))) {}

/-- How the call of the node `n` by the task `t` goes on in the run `r`. -/
inductive CallStep (m : Machine) (t : TaskId) (r : RunId) (n : Node) (began : Instant) :
    Stage → Stage → Effect → Prop
  | hit {d} (found : (m.cell n.id).result = some d) : CallStep m t r n began .probe (.done d) {}
  | miss (missing : (m.cell n.id).result = none) : CallStep m t r n began .probe .enter {}
  | enter (free : (m.cell n.id).gate = none) :
      CallStep m t r n began .enter .recheck
        { cell := onCell n.id fun c => { c with gate := some t } }
  | found {d} (found : (m.cell n.id).result = some d) :
      CallStep m t r n began .recheck (.yield d) {}
  | fresh (missing : (m.cell n.id).result = none) : CallStep m t r n began .recheck .mark {}
  | mark :
      CallStep m t r n began .mark .announce
        { cell := onCell n.id fun c => { c with running := true } }
  | announce :
      CallStep m t r n began .announce (.gather [] n.upstream)
        { facts := [.node n.id (.started n.function.signature.key)] }
  | asked {fetched} : CallStep m t r n began (.gather fetched []) (.join fetched) {}
  | skip {fetched u left} (unknown : g.node? u.node = none) :
      CallStep m t r n began (.gather fetched (u :: left)) (.gather (fetched ++ [.absent]) left) {}
  | seen {fetched u left d} (known : (g.node? u.node).isSome = true) (port : u.viaPort = true)
      (found : (m.cell u.node).result = some d) :
      CallStep m t r n began (.gather fetched (u :: left)) (.gather (fetched ++ [.present d]) left)
        {}
  | unseen {fetched u left} (known : (g.node? u.node).isSome = true) (port : u.viaPort = true)
      (missing : (m.cell u.node).result = none) :
      CallStep m t r n began (.gather fetched (u :: left)) (.gather (fetched ++ [.absent]) left) {}
  | pull {fetched u left} (known : (g.node? u.node).isSome = true) (waits : u.viaPort = false) :
      CallStep m t r n began (.gather fetched (u :: left))
        (.gather (fetched ++ [.awaited m.tasks.size]) left)
        { spawned := [m.freshCall r u.node] }
  | join {fetched} (all : m.fetchedAll fetched = true) :
      CallStep m t r n began (.join fetched) (.scope (mergeResults (m.fetchedResults fetched))) {}
  | noScope {received run e} (running : m.run? r = some run)
      (refused : inputScope run.shared.document received = .error e) :
      CallStep m t r n began (.scope received) (.report (.error (.path e))) {}
  | scope {received run scope} (running : m.run? r = some run)
      (taken : inputScope run.shared.document received = .ok scope) :
      CallStep m t r n began (.scope received) (.record received scope) {}
  | unbound {received scope run e} (running : m.run? r = some run)
      (refused : n.bind g.evaluator (contextOf run n) scope = .error e) :
      CallStep m t r n began (.record received scope) (.report (.error (.binding e)))
        { cell := onCell n.id fun c => { c with input := scope } }
  | invoke {received scope run i} (running : m.run? r = some run)
      (bound : n.bind g.evaluator (contextOf run n) scope = .ok i) :
      CallStep m t r n began (.record received scope) (.run received (.active (n.function.body i)))
        { cell := onCell n.id fun c => { c with input := scope }
          deeds := [.invoked n.id t i] }
  | finish {received outcome} :
      CallStep m t r n began (.run received (.active (.finish outcome)))
        (.report (conclude n received outcome)) { deeds := [.ended n.id t outcome] }
  | work {received x x' e} (step : ExecutionStep m r n x x' e) :
      CallStep m t r n began (.run received x) (.run received x') e
  | completed {d} :
      CallStep m t r n began (.report (.ok d)) (.store d)
        { facts := [.node n.id (.completed (m.millisecondsSince began))] }
  | failed {e : NodeError} :
      CallStep m t r n began (.report (.error e)) (.blame e)
        { facts := [.node n.id (.failed n.name e.message)] }
  | blame {e} :
      CallStep m t r n began (.blame e) (.store (n.failure e m.now))
        { cell := onCell n.id fun c => { c with error := some e } }
  | store {d} :
      CallStep m t r n began (.store d) (.publish d)
        { cell := onCell n.id fun c => { c with result := some d }
          deeds := [.stored n.id t d] }
  | publish {d} :
      CallStep m t r n began (.publish d) (.unmark d)
        { run := fun run => { run with shared := run.shared.publishResult n.id d } }
  | unmark {d} :
      CallStep m t r n began (.unmark d) (.release d)
        { cell := onCell n.id fun c => { c with running := false } }
  | release {d} :
      CallStep m t r n began (.release d) (.close d)
        { cell := onCell n.id fun c => { c with gate := none } }
  | close {d} :
      CallStep m t r n began (.close d) (.branch d (m.cell n.id).queue.pending)
        { cell := onCell n.id fun c => { c with queue := ⟨true, []⟩ } }
  | branch {d pending} :
      CallStep m t r n began (.branch d pending) (.done d)
        { spawned := [⟨r, .fanOut n.id (rounds n pending) []⟩]
          run := fun run => { run with fanOut := run.fanOut ++ [m.tasks.size] }
          deeds := [.branched n.id t m.tasks.size] }
  | yield {d} :
      CallStep m t r n began (.yield d) (.done d)
        { cell := onCell n.id fun c => { c with gate := none } }

/-- How the task `t` of the run `r` goes on. -/
inductive Transition (m : Machine) (t : TaskId) (r : RunId) : Work → Work → Effect → Prop
  | call {id n began stage stage' e} (known : g.node? id = some n)
      (step : CallStep g m t r n began stage stage' e) :
      Transition m t r (.call id began stage) (.call id (m.beganAfter began stage) stage') e
  | aside {id n x x' e} (known : g.node? id = some n) (step : ExecutionStep m r n x x' e) :
      Transition m t r (.aside id x) (.aside id x') e
  | round {id targets rest} :
      Transition m t r (.fanOut id (targets :: rest) [])
        (.fanOut id rest (List.range' m.tasks.size targets.length))
        { spawned := targets.map (m.freshCall r) }
  | rested {id rounds w waiting} (all : m.allDone (w :: waiting) = true) :
      Transition m t r (.fanOut id rounds (w :: waiting)) (.fanOut id rounds []) {}
  | permit {launch id n} (permits : m.permits launch = n + 1) :
      Transition m t r (.entry launch id .waiting) (.entry launch id (.running m.tasks.size))
        { spawned := [m.freshCall r id], grant := some (launch, n) }
  | leave {launch id k} (done : m.isDone k = true) :
      Transition m t r (.entry launch id (.running k)) (.entry launch id .done)
        { grant := some (launch, m.permits launch + 1) }
  | opened {permits} :
      Transition m t r (.launch permits .announce) (.launch permits .spawn)
        { facts := [.run (.started g.id g.entries)] }
  | entries {permits} :
      Transition m t r (.launch permits .spawn)
        (.launch permits (.join (List.range' m.tasks.size g.entries.length)))
        { spawned := g.entries.map fun id => ⟨r, .entry t id .waiting⟩ }
  | joined {permits ts} (all : m.allDone ts = true) :
      Transition m t r (.launch permits (.join ts)) (.launch permits (.settle m.tasks.size))
        { spawned := [⟨r, .settle .take⟩] }
  | finished {permits s} (done : m.isDone s = true) :
      Transition m t r (.launch permits (.settle s)) (.launch permits .done) {}
  | settled {run} (running : m.run? r = some run) (empty : run.fanOut = []) :
      Transition m t r (.settle .take) (.settle .done) {}
  | take {run} (running : m.run? r = some run) (left : run.fanOut ≠ []) :
      Transition m t r (.settle .take) (.settle (.join run.fanOut))
        { run := fun run => { run with fanOut := [] } }
  | batch {ts} (all : m.allDone ts = true) :
      Transition m t r (.settle (.join ts)) (.settle .take) {}

/-! ## What a rule leaves behind -/

/-- The machine `m'` is `m` after an effect on behalf of the run `r`; no task has gone on yet. -/
structure Changed (m : Machine) (r : RunId) (e : Effect) (m' : Machine) : Prop where
  cell : ∀ k, m'.cell k = e.cell k (m.cell k)
  tasks : ∀ k, m'.tasks[k]? =
    if k < m.tasks.size then m.tasks[k]?.map (Task.granted e.grant k)
    else e.spawned[k - m.tasks.size]?
  size : m'.tasks.size = m.tasks.size + e.spawned.length
  run : ∀ k, m'.run? k = if k = r then (m.run? k).map e.run else m.run? k
  log : m'.log = (match m.run? r with
    | some run => e.facts.map fun fact => ⟨run.execution, m.now, fact⟩
    | none => []) ++ m.log
  now : m'.now = m.now

/-- The machine `m'` is `m` after the task `t` of the run `r` went on to `work` with an effect. -/
structure After (m : Machine) (t : TaskId) (r : RunId) (work : Work) (e : Effect) (m' : Machine) :
    Prop where
  cell : ∀ k, m'.cell k = e.cell k (m.cell k)
  tasks : ∀ k, m'.tasks[k]? =
    if k = t then some ⟨r, work⟩
    else if k < m.tasks.size then m.tasks[k]?.map (Task.granted e.grant k)
    else e.spawned[k - m.tasks.size]?
  size : m'.tasks.size = m.tasks.size + e.spawned.length
  run : ∀ k, m'.run? k = if k = r then (m.run? k).map e.run else m.run? k
  log : m'.log = (match m.run? r with
    | some run => e.facts.map fun fact => ⟨run.execution, m.now, fact⟩
    | none => []) ++ m.log
  now : m'.now = m.now

variable {g : Graph} {m m' : Machine} {t : TaskId} {r : RunId} {e : Effect}

theorem Changed.after {work work' : Work} (changed : Changed m r e m')
    (here : m.tasks[t]? = some ⟨r, work⟩) : After m t r work' e (m'.setWork t work') where
  cell := changed.cell
  tasks k := by
    rw [tasks_setWork, changed.tasks]
    by_cases same : k = t
    · subst same
      rw [if_pos rfl, if_pos (lt_size_of_tasks here), here]
      simp [Task.granted_run]
    · rw [if_neg same, if_neg same]
  size := by
    have := changed.size
    simpa [setWork] using this
  run := changed.run
  log := changed.log
  now := changed.now

theorem changed_nothing (deeds : List Deed) : Changed m r { deeds := deeds } m where
  cell _ := rfl
  tasks k := by
    by_cases old : k < m.tasks.size <;> simp [old]
  size := by simp
  run k := by simp
  log := by cases m.run? r <;> simp
  now := rfl

theorem changed_updateCell (id : NodeId) (change : Cell → Cell) (deeds : List Deed) :
    Changed m r { cell := onCell id change, deeds := deeds } (m.updateCell id change) where
  cell k := cell_updateCell m id change k
  tasks := (changed_nothing (r := r) deeds).tasks
  size := by simp [updateCell]
  run := (changed_nothing (r := r) deeds).run
  log := (changed_nothing (r := r) deeds).log
  now := rfl

theorem changed_updateRun (change : RunRecord → RunRecord) :
    Changed m r { run := change } (m.updateRun r change) where
  cell _ := rfl
  tasks := (changed_nothing (r := r) []).tasks
  size := by simp [updateRun]
  run k := run?_updateRun m r k change
  log := (changed_nothing (m := m) (r := r) []).log
  now := rfl

theorem changed_emit (fact : Fact) : Changed m r { facts := [fact] } (m.emit r fact) := by
  unfold emit
  cases running : m.run? r with
  | none =>
      have nothing := changed_nothing (m := m) (r := r) []
      exact { nothing with log := by simp [running] }
  | some run =>
      have nothing := changed_nothing (m := m) (r := r) []
      exact
        { cell := nothing.cell, tasks := nothing.tasks, size := nothing.size, run := nothing.run
          log := by simp [running], now := nothing.now }

/-- Writing to the shared document what is computed from it. -/
theorem changed_updateShared {run : RunRecord} (running : m.run? r = some run)
    (change : Shared → Shared) :
    Changed m r { run := fun run => { run with shared := change run.shared } }
      (m.updateShared r fun _ => change run.shared) := by
  have changed := changed_updateRun (m := m) (r := r) fun old =>
    { old with shared := change run.shared }
  refine { changed with run := fun k => ?_ }
  rw [updateShared, changed.run]
  by_cases same : k = r
  · subst same
    simp [running]
  · simp [same]

/-- Tasks that are appended are what an effect starts. -/
theorem Changed.spawn (changed : Changed m r e m') (alone : e.spawned = [])
    (spawned : List Task) :
    Changed m r { e with spawned := spawned }
      { m' with tasks := m'.tasks ++ spawned.toArray } where
  cell := changed.cell
  tasks k := by
    have size : m'.tasks.size = m.tasks.size := by simpa [alone] using changed.size
    have old := changed.tasks k
    by_cases here : k < m.tasks.size
    · simp only [here, if_true] at old ⊢
      rw [Array.getElem?_append_left (by omega), old]
    · simp only [here, if_false]
      rw [Array.getElem?_append_right (by omega), size]
      simp
  size := by
    have size : m'.tasks.size = m.tasks.size := by simpa [alone] using changed.size
    simp [size]
  run := changed.run
  log := changed.log
  now := changed.now

theorem changed_spawn (task : Task) : Changed m r { spawned := [task] } (m.spawn task).2 := by
  have changed := (changed_nothing (m := m) (r := r) []).spawn rfl [task]
  simpa [Machine.spawn] using changed

theorem tasks_setPermits (launch : TaskId) (n : Nat) (k : TaskId) :
    (m.setPermits launch n).tasks[k]? = m.tasks[k]?.map (Task.granted (some (launch, n)) k) := by
  have kept : ∀ task, (¬ ∃ p stage, task.work = .launch p stage) ∨ k ≠ launch →
      Task.granted (some (launch, n)) k task = task := by
    rintro ⟨r, work⟩ other
    cases work <;> simp_all [Task.granted]
  unfold setPermits
  split
  · rename_i r p stage here
    rw [tasks_setWork]
    by_cases same : k = launch
    · subst same
      simp [here, Task.granted]
    · rw [if_neg same]
      cases m.tasks[k]? with
      | none => rfl
      | some task => simp [kept task (.inr same)]
  · rename_i other
    cases here : m.tasks[k]? with
    | none => rfl
    | some task =>
        obtain ⟨r, work⟩ := task
        have : (¬ ∃ p stage, work = .launch p stage) ∨ k ≠ launch := by
          by_cases same : k = launch
          · subst same
            exact .inl fun ⟨p, stage, isLaunch⟩ => other r p stage (by rw [here, isLaunch])
          · exact .inr same
        simp [kept ⟨r, work⟩ this]

theorem size_setPermits (launch : TaskId) (n : Nat) :
    (m.setPermits launch n).tasks.size = m.tasks.size := by
  unfold setPermits
  split <;> simp [setWork]

theorem changed_setPermits (launch : TaskId) (n : Nat) :
    Changed m r { grant := some (launch, n) } (m.setPermits launch n) where
  cell _ := by
    unfold setPermits
    split <;> rfl
  tasks k := by
    rw [tasks_setPermits]
    by_cases old : k < m.tasks.size
    · rw [if_pos old]
    · rw [if_neg old]
      simp [old]
  size := by simp [size_setPermits]
  run k := by
    have : (m.setPermits launch n).run? k = m.run? k := by
      unfold setPermits
      split <;> rfl
    simp [this]
  log := by
    have : (m.setPermits launch n).log = m.log := by
      unfold setPermits
      split <;> rfl
    cases running : m.run? r <;> simp [this]
  now := by
    unfold setPermits
    split <;> rfl

@[simp] theorem tasks_emit (fact : Fact) : (m.emit r fact).tasks = m.tasks := by
  unfold emit
  split <;> rfl

@[simp] theorem freshCall_emit (fact : Fact) : (m.emit r fact).freshCall r = m.freshCall r := by
  unfold emit
  split <;> rfl

/-! ## Inversion -/

theorem stepExecution_fire {n : Node} {port : String} {next : Except GraphError Unit → Program}
    {x' : Execution} {m' : Machine}
    (stepped : m.stepExecution r n (.active (.fire port next)) = some (x', m')) :
    ∃ e, ExecutionStep m r n (.active (.fire port next)) x' e ∧ Changed m r e m' ∧
      m.executionDeeds n (.active (.fire port next)) = e.deeds := by
  simp only [stepExecution] at stepped
  cases driven : n.isPortDriven with
  | false =>
      simp only [driven, Bool.not_false, if_true] at stepped
      cases stepped
      exact ⟨_, .portless driven, changed_nothing [], by simp [executionDeeds, driven]⟩
  | true =>
      simp only [driven, Bool.not_true, Bool.false_eq_true, if_false] at stepped
      by_cases declared : port ∈ n.ports
      · cases closed : (m.cell n.id).queue.closed with
        | true =>
            simp only [declared, not_true, if_false, closed, if_true] at stepped
            cases stepped
            exact ⟨_, .late driven declared closed, changed_nothing _,
              by simp [executionDeeds, driven, declared, closed]⟩
        | false =>
            simp only [declared, not_true, if_false, closed, Bool.false_eq_true] at stepped
            cases stepped
            exact ⟨_, .queue driven declared closed, changed_updateCell _ _ _,
              by simp [executionDeeds, driven, declared, closed]⟩
      · simp only [declared, not_false_eq_true, if_true] at stepped
        cases stepped
        exact ⟨_, .undeclared driven declared, changed_nothing [],
          by simp [executionDeeds, declared]⟩

theorem stepExecution_cases {n : Node} {x x' : Execution} {m' : Machine}
    (stepped : m.stepExecution r n x = some (x', m')) :
    ∃ e, ExecutionStep m r n x x' e ∧ Changed m r e m' ∧ m.executionDeeds n x = e.deeds := by
  cases x with
  | active p =>
      cases p with
      | finish outcome => simp [stepExecution] at stepped
      | publish key value next =>
          simp only [stepExecution, Option.map_eq_some_iff] at stepped
          obtain ⟨run, running, same⟩ := stepped
          cases same
          exact ⟨_, .publish running,
            changed_updateShared running fun s => (s.publishNode n.id key value).2, rfl⟩
      | publishOutput name value next =>
          simp only [stepExecution, Option.map_eq_some_iff] at stepped
          obtain ⟨run, running, same⟩ := stepped
          cases same
          exact ⟨_, .publishOutput running,
            changed_updateShared running fun s => (s.publishOutput name value).2, rfl⟩
      | readShared next =>
          simp only [stepExecution, Option.map_eq_some_iff] at stepped
          obtain ⟨run, running, same⟩ := stepped
          cases same
          exact ⟨_, .readShared running, changed_nothing [], rfl⟩
      | notify notice next =>
          cases stepped
          exact ⟨_, .notify, changed_emit _, rfl⟩
      | fire port next => exact stepExecution_fire stepped
      | readClock next =>
          cases stepped
          exact ⟨_, .readClock, changed_nothing [], rfl⟩
      | pause milliseconds next =>
          cases stepped
          exact ⟨_, .pause, changed_nothing [], rfl⟩
      | leave work next =>
          cases stepped
          exact ⟨_, .leave, changed_spawn _, rfl⟩
  | fired port queued next =>
      cases queued with
      | true =>
          simp only [stepExecution, if_true] at stepped
          cases stepped
          exact ⟨_, .reported, changed_emit _, rfl⟩
      | false =>
          simp only [stepExecution, Bool.false_eq_true, if_false, spawnCalls_eq] at stepped
          cases stepped
          have changed := (changed_emit (m := m) (r := r)
            (.node n.id (.portFired port false))).spawn rfl
              ((n.targets port).map (m.freshCall r))
          rw [freshCall_emit, tasks_emit]
          rw [tasks_emit] at changed
          exact ⟨_, .route, changed, rfl⟩
  | routed ts next =>
      simp only [stepExecution] at stepped
      by_cases all : m.allDone ts = true
      · simp only [all, if_true] at stepped
        cases stepped
        exact ⟨_, .arrive all, changed_nothing [], rfl⟩
      · simp [all] at stepped

theorem stepCall_run {n : Node} {began : Instant} {received : Document} {x : Execution}
    (running : ∀ outcome, x ≠ .active (.finish outcome)) :
    m.stepCall g t r n began (.run received x) =
      (m.stepExecution r n x).map fun next => (.run received next.1, next.2) := by
  cases x with
  | active p => cases p <;> first | rfl | exact absurd rfl (running _)
  | fired | routed => rfl

theorem callDeeds_run {n : Node} {received : Document} {x : Execution}
    (running : ∀ outcome, x ≠ .active (.finish outcome)) :
    m.callDeeds g t r n (.run received x) = m.executionDeeds n x := by
  cases x with
  | active p => cases p <;> first | rfl | exact absurd rfl (running _)
  | fired | routed => rfl

theorem stepCall_gather {n : Node} {began : Instant} {fetched : List Fetch} {u : Upstream}
    {left : List Upstream} {stage' : Stage} {m' : Machine}
    (stepped : m.stepCall g t r n began (.gather fetched (u :: left)) = some (stage', m')) :
    ∃ e, CallStep g m t r n began (.gather fetched (u :: left)) stage' e ∧ Changed m r e m' ∧
      m.callDeeds g t r n (.gather fetched (u :: left)) = e.deeds := by
  simp only [stepCall, fetch] at stepped
  cases known : (g.node? u.node).isNone with
  | true =>
      simp only [known, if_true] at stepped
      cases stepped
      exact ⟨_, .skip (by simpa using known), changed_nothing [], rfl⟩
  | false =>
      have there : (g.node? u.node).isSome = true := by
        simpa [Option.isNone_iff_eq_none, ← Option.isSome_iff_ne_none] using known
      cases port : u.viaPort with
      | true =>
          simp only [known, port, Bool.false_eq_true, if_false, if_true] at stepped
          cases found : (m.cell u.node).result with
          | some d =>
              rw [found] at stepped
              cases stepped
              exact ⟨_, .seen there port found, changed_nothing [], rfl⟩
          | none =>
              rw [found] at stepped
              cases stepped
              exact ⟨_, .unseen there port found, changed_nothing [], rfl⟩
      | false =>
          simp only [known, port, Bool.false_eq_true, if_false] at stepped
          cases stepped
          exact ⟨_, .pull there port, changed_spawn _, rfl⟩

theorem stepCall_cases {n : Node} {began : Instant} {stage stage' : Stage} {m' : Machine}
    (stepped : m.stepCall g t r n began stage = some (stage', m')) :
    ∃ e, CallStep g m t r n began stage stage' e ∧ Changed m r e m' ∧
      m.callDeeds g t r n stage = e.deeds := by
  cases stage with
  | probe =>
      simp only [stepCall] at stepped
      cases found : (m.cell n.id).result with
      | none => cases (found ▸ stepped); exact ⟨_, .miss found, changed_nothing [], rfl⟩
      | some d => cases (found ▸ stepped); exact ⟨_, .hit found, changed_nothing [], rfl⟩
  | enter =>
      simp only [stepCall] at stepped
      cases free : (m.cell n.id).gate with
      | some k => simp [free] at stepped
      | none => cases (free ▸ stepped); exact ⟨_, .enter free, changed_updateCell _ _ [], rfl⟩
  | recheck =>
      simp only [stepCall] at stepped
      cases found : (m.cell n.id).result with
      | none => cases (found ▸ stepped); exact ⟨_, .fresh found, changed_nothing [], rfl⟩
      | some d => cases (found ▸ stepped); exact ⟨_, .found found, changed_nothing [], rfl⟩
  | mark => cases stepped; exact ⟨_, .mark, changed_updateCell _ _ [], rfl⟩
  | announce => cases stepped; exact ⟨_, .announce, changed_emit _, rfl⟩
  | gather fetched left =>
      cases left with
      | nil => cases stepped; exact ⟨_, .asked, changed_nothing [], rfl⟩
      | cons u left => exact stepCall_gather stepped
  | join fetched =>
      simp only [stepCall] at stepped
      by_cases all : m.fetchedAll fetched = true
      · simp only [all, if_true] at stepped
        cases stepped
        exact ⟨_, .join all, changed_nothing [], rfl⟩
      · simp [all] at stepped
  | scope received =>
      simp only [stepCall, Option.map_eq_some_iff] at stepped
      obtain ⟨run, running, same⟩ := stepped
      cases taken : inputScope run.shared.document received with
      | error e =>
          simp only [taken] at same
          cases same
          exact ⟨_, .noScope running taken, changed_nothing [], rfl⟩
      | ok scope =>
          simp only [taken] at same
          cases same
          exact ⟨_, .scope running taken, changed_nothing [], rfl⟩
  | record received scope =>
      simp only [stepCall, invocation, Option.map_eq_some_iff] at stepped
      obtain ⟨run, running, same⟩ := stepped
      cases bound : n.bind g.evaluator (contextOf run n) scope with
      | error e =>
          simp only [contextOf] at bound
          simp only [bound] at same
          cases same
          exact ⟨_, .unbound running bound, changed_updateCell _ _ [],
            by simp [callDeeds, running, contextOf, bound]⟩
      | ok i =>
          simp only [contextOf] at bound
          simp only [bound] at same
          cases same
          exact ⟨_, .invoke running bound, changed_updateCell _ _ _,
            by simp [callDeeds, running, contextOf, bound]⟩
  | run received x =>
      obtain ⟨outcome, rfl⟩ | running := x.ended_or_running
      · cases stepped
        exact ⟨_, .finish, changed_nothing _, rfl⟩
      · rw [stepCall_run running, Option.map_eq_some_iff] at stepped
        obtain ⟨⟨x', m''⟩, executed, same⟩ := stepped
        cases same
        obtain ⟨e, step, changed, deeds⟩ := stepExecution_cases executed
        exact ⟨e, .work step, changed, (callDeeds_run running).trans deeds⟩
  | report outcome =>
      cases outcome with
      | ok d => cases stepped; exact ⟨_, .completed, changed_emit _, rfl⟩
      | error e => cases stepped; exact ⟨_, .failed, changed_emit _, rfl⟩
  | blame e => cases stepped; exact ⟨_, .blame, changed_updateCell _ _ [], rfl⟩
  | store d => cases stepped; exact ⟨_, .store, changed_updateCell _ _ _, rfl⟩
  | publish d =>
      cases stepped
      exact ⟨_, .publish, changed_updateRun _, rfl⟩
  | unmark d => cases stepped; exact ⟨_, .unmark, changed_updateCell _ _ [], rfl⟩
  | release d => cases stepped; exact ⟨_, .release, changed_updateCell _ _ [], rfl⟩
  | close d => cases stepped; exact ⟨_, .close, changed_updateCell _ _ [], rfl⟩
  | branch d pending =>
      cases stepped
      have changed := (changed_updateRun (m := m) (r := r) fun run =>
        { run with fanOut := run.fanOut ++ [m.tasks.size] }).spawn rfl
          [⟨r, .fanOut n.id (rounds n pending) []⟩]
      rw [Array.append_singleton] at changed
      exact ⟨_, .branch, { changed with }, rfl⟩
  | yield d => cases stepped; exact ⟨_, .yield, changed_updateCell _ _ [], rfl⟩
  | done d => simp [stepCall] at stepped

/-- A program can always fire. -/
theorem stepExecution_fire_ne_none {n : Node} {port : String}
    {next : Except GraphError Unit → Program} :
    m.stepExecution r n (.active (.fire port next)) ≠ none := by
  intro stuck
  simp only [stepExecution] at stuck
  split at stuck
  · cases stuck
  · split at stuck
    · cases stuck
    · split at stuck <;> cases stuck

theorem executionDeeds_of_stuck {n : Node} {x : Execution}
    (stuck : m.stepExecution r n x = none) : m.executionDeeds n x = [] := by
  cases x with
  | active p =>
      cases p with
      | fire port next => exact absurd stuck stepExecution_fire_ne_none
      | _ => rfl
  | _ => rfl

theorem callDeeds_of_stuck {n : Node} {began : Instant} {stage : Stage}
    (stuck : m.stepCall g t r n began stage = none) : m.callDeeds g t r n stage = [] := by
  cases stage with
  | record received scope =>
      have missing : m.run? r = none := by simpa [stepCall] using stuck
      simp [callDeeds, missing]
  | run received x =>
      obtain ⟨outcome, rfl⟩ | running := x.ended_or_running
      · cases stuck
      · rw [stepCall_run running, Option.map_eq_none_iff] at stuck
        rw [callDeeds_run running, executionDeeds_of_stuck stuck]
  | store | branch => cases stuck
  | _ => rfl

theorem stepFanOut_cases {id : NodeId} {rounds rest : List (List NodeId)} {waiting ts : List TaskId}
    {m' : Machine} (walked : m.stepFanOut r rounds waiting = some ((rest, ts), m')) :
    ∃ e, Transition g m t r (.fanOut id rounds waiting) (.fanOut id rest ts) e ∧
      Changed m r e m' ∧ e.deeds = [] := by
  cases waiting with
  | nil =>
      cases rounds with
      | nil => simp [stepFanOut] at walked
      | cons targets rest =>
          simp only [stepFanOut, spawnCalls_eq] at walked
          cases walked
          exact ⟨_, .round, (changed_nothing []).spawn rfl _, rfl⟩
  | cons w waiting =>
      simp only [stepFanOut] at walked
      by_cases all : m.allDone (w :: waiting) = true
      · simp only [all, if_true] at walked
        cases walked
        exact ⟨_, .rested all, changed_nothing [], rfl⟩
      · simp [all] at walked

theorem stepEntry_cases {launch : TaskId} {id : NodeId} {stage stage' : EntryStage} {m' : Machine}
    (entered : m.stepEntry r launch id stage = some (stage', m')) :
    ∃ e, Transition g m t r (.entry launch id stage) (.entry launch id stage') e ∧
      Changed m r e m' ∧ e.deeds = [] := by
  cases stage with
  | waiting =>
      simp only [stepEntry] at entered
      split at entered
      · cases entered
      · rename_i n permits
        cases entered
        have changed := (changed_setPermits (m := m) (r := r) launch n).spawn rfl
          [m.freshCall r id]
        rw [Array.append_singleton] at changed
        have task : ((m.setPermits launch n).spawn ⟨r, .call id m.now .probe⟩).1 = m.tasks.size :=
          size_setPermits launch n
        rw [task]
        exact ⟨_, .permit permits, { changed with }, rfl⟩
  | running k =>
      simp only [stepEntry] at entered
      by_cases done : m.isDone k = true
      · simp only [done, if_true] at entered
        cases entered
        exact ⟨_, .leave done, changed_setPermits _ _, rfl⟩
      · simp [done] at entered
  | done => simp [stepEntry] at entered

theorem stepLaunch_cases {permits : Nat} {stage stage' : LaunchStage} {m' : Machine}
    (launched : m.stepLaunch g t r stage = some (stage', m')) :
    ∃ e, Transition g m t r (.launch permits stage) (.launch permits stage') e ∧
      Changed m r e m' ∧ e.deeds = [] := by
  cases stage with
  | announce =>
      cases launched
      exact ⟨_, .opened, changed_emit _, rfl⟩
  | spawn =>
      simp only [stepLaunch, spawnEntries_eq] at launched
      cases launched
      exact ⟨_, .entries, (changed_nothing []).spawn rfl _, rfl⟩
  | join ts =>
      simp only [stepLaunch] at launched
      by_cases all : m.allDone ts = true
      · simp only [all, if_true] at launched
        cases launched
        exact ⟨_, .joined all, changed_spawn _, rfl⟩
      · simp [all] at launched
  | settle s =>
      simp only [stepLaunch] at launched
      by_cases done : m.isDone s = true
      · simp only [done, if_true] at launched
        cases launched
        exact ⟨_, .finished done, changed_nothing [], rfl⟩
      · simp [done] at launched
  | done => simp [stepLaunch] at launched

theorem stepSettle_cases {stage stage' : SettleStage} {m' : Machine}
    (settled : m.stepSettle r stage = some (stage', m')) :
    ∃ e, Transition g m t r (.settle stage) (.settle stage') e ∧ Changed m r e m' ∧
      e.deeds = [] := by
  cases stage with
  | take =>
      simp only [stepSettle, Option.map_eq_some_iff] at settled
      obtain ⟨run, running, taken⟩ := settled
      cases empty : run.fanOut with
      | nil =>
          simp only [empty, List.isEmpty_nil, if_true] at taken
          cases taken
          exact ⟨_, .settled running empty, changed_nothing [], rfl⟩
      | cons f rest =>
          simp only [empty, List.isEmpty_cons, Bool.false_eq_true, if_false] at taken
          cases taken
          have rule := Transition.take (g := g) (t := t) running (by simp [empty])
          rw [empty] at rule
          exact ⟨_, rule, changed_updateRun _, rfl⟩
  | join batch =>
      simp only [stepSettle] at settled
      by_cases all : m.allDone batch = true
      · simp only [all, if_true] at settled
        cases settled
        exact ⟨_, .batch all, changed_nothing [], rfl⟩
      · simp [all] at settled
  | done => simp [stepSettle] at settled

/-- **Every step follows a rule.**  The rule fixes where the task stands
afterwards, the effect on the rest of the machine, and the deeds. -/
theorem step_cases {m' : Machine} (stepped : m.step g t = some m') :
    ∃ r work work' e, m.tasks[t]? = some ⟨r, work⟩ ∧ Transition g m t r work work' e ∧
      After m t r work' e m' ∧ m.deeds g t = e.deeds := by
  unfold step at stepped
  split at stepped
  · cases stepped
  · rename_i r work here
    have finish : ∀ {work' e m₁}, Transition g m t r work work' e → Changed m r e m₁ →
        m.deeds g t = e.deeds → m₁.setWork t work' = m' →
        ∃ r work work' e, m.tasks[t]? = some ⟨r, work⟩ ∧ Transition g m t r work work' e ∧
          After m t r work' e m' ∧ m.deeds g t = e.deeds := by
      intro work' e m₁ rule changed deeds same
      exact ⟨r, work, work', e, here, rule, same ▸ changed.after here, deeds⟩
    cases work with
    | call id began stage =>
        simp only [Option.bind_eq_some_iff, Option.map_eq_some_iff] at stepped
        obtain ⟨n, known, ⟨stage', m₁⟩, called, same⟩ := stepped
        obtain ⟨e, rule, changed, deeds⟩ := stepCall_cases called
        exact finish (.call known rule) changed (by simp [Machine.deeds, here, known, deeds]) same
    | aside id x =>
        simp only [Option.bind_eq_some_iff, Option.map_eq_some_iff] at stepped
        obtain ⟨n, known, ⟨x', m₁⟩, executed, same⟩ := stepped
        obtain ⟨e, rule, changed, deeds⟩ := stepExecution_cases executed
        exact finish (.aside known rule) changed (by simp [Machine.deeds, here, known, deeds]) same
    | fanOut id rounds waiting =>
        simp only [Option.map_eq_some_iff] at stepped
        obtain ⟨⟨⟨rest, ts⟩, m₁⟩, walked, same⟩ := stepped
        obtain ⟨e, rule, changed, none⟩ := stepFanOut_cases walked
        exact finish rule changed (by simp [Machine.deeds, here, none]) same
    | entry launch id stage =>
        simp only [Option.map_eq_some_iff] at stepped
        obtain ⟨⟨stage', m₁⟩, entered, same⟩ := stepped
        obtain ⟨e, rule, changed, none⟩ := stepEntry_cases entered
        exact finish rule changed (by simp [Machine.deeds, here, none]) same
    | launch permits stage =>
        simp only [Option.map_eq_some_iff] at stepped
        obtain ⟨⟨stage', m₁⟩, launched, same⟩ := stepped
        obtain ⟨e, rule, changed, none⟩ := stepLaunch_cases launched
        exact finish rule changed (by simp [Machine.deeds, here, none]) same
    | settle stage =>
        simp only [Option.map_eq_some_iff] at stepped
        obtain ⟨⟨stage', m₁⟩, settled, same⟩ := stepped
        obtain ⟨e, rule, changed, none⟩ := stepSettle_cases settled
        exact finish rule changed (by simp [Machine.deeds, here, none]) same

/-- A task that is stuck has no deeds. -/
theorem deeds_of_stuck (stuck : m.step g t = none) : m.deeds g t = [] := by
  cases here : m.tasks[t]? with
  | none => simp [deeds, here]
  | some task =>
      obtain ⟨r, work⟩ := task
      cases work with
      | call id began stage =>
          cases known : g.node? id with
          | none => simp [deeds, here, known]
          | some n =>
              have stopped : m.stepCall g t r n began stage = none := by
                simpa [step, here, known] using stuck
              simp only [deeds, here, known]
              exact callDeeds_of_stuck stopped
      | aside id x =>
          cases known : g.node? id with
          | none => simp [deeds, here, known]
          | some n =>
              have stopped : m.stepExecution r n x = none := by
                simpa [step, here, known] using stuck
              simp only [deeds, here, known]
              exact executionDeeds_of_stuck stopped
      | _ => simp [deeds, here]

/-- **Runs by their steps.**  What each rule keeps, of the history and the
machine together, and every setting of the clock in the schedule, holds after it. -/
theorem run_induction {P : List Deed → Machine → Prop} (schedule : List Move)
    (steps : ∀ h m t r work work' e m', P h m → m.tasks[t]? = some ⟨r, work⟩ →
      Transition g m t r work work' e → After m t r work' e m' → P (h ++ e.deeds) m')
    (ticks : ∀ h m now, .tick now ∈ schedule → P h m → P h { m with now := now })
    (start : P [] m) : P (m.history g schedule) (m.exec g schedule) := by
  have keeps : ∀ h m, ∀ v ∈ schedule, P h m → P (h ++ m.moveDeeds g v) (m.move g v) := by
    intro h m v member holds
    cases v with
    | tick now => simpa [moveDeeds, move] using ticks h m now member holds
    | step t =>
        cases stepped : m.step g t with
        | none => simpa [moveDeeds, move, stepped, deeds_of_stuck stepped] using holds
        | some m' =>
            obtain ⟨r, work, work', e, here, rule, after, deeds⟩ := step_cases stepped
            simpa [moveDeeds, move, stepped, deeds] using
              steps h m t r work work' e m' holds here rule after
  simpa using exec_induction g schedule keeps [] m start

end Machine
end Flowgraph
