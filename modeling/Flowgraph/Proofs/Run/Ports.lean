/- # Flowgraph.Proofs.Run.Ports -- what is done with ports

A port that is fired is accepted, and its targets are started later: by the fan-out of
the node, round after round, when the port was queued, and by the task that fired it
otherwise.  These deeds make a history of their own, `portHistory`, in the order of the
schedule.  The lemmas here say for one step what it adds to this history and how that
goes with the queue of the node, with where the task stands, and with the tasks that are
started.
-/
import Flowgraph.Proofs.Run.Coverage

set_option autoImplicit false

namespace Flowgraph

/-- What a step does with a port. -/
inductive PortDeed where
  /-- A fire is accepted: it waits in the queue of the node, or it is routed by its task. -/
  | accepted (node : NodeId) (task : TaskId) (port : String) (queued : Bool)
  /-- The targets of a port that was not queued are started, as the tasks `calls`. -/
  | routed (node : NodeId) (task : TaskId) (port : String) (targets : List NodeId)
      (calls : List TaskId)
  /-- The next round of a fan-out is started. -/
  | round (node : NodeId) (task : TaskId) (targets : List NodeId) (calls : List TaskId)
  deriving DecidableEq

namespace PortDeed

def node : PortDeed → NodeId
  | .accepted node _ _ _ | .routed node _ _ _ _ | .round node _ _ _ => node

def task : PortDeed → TaskId
  | .accepted _ task _ _ | .routed _ task _ _ _ | .round _ task _ _ => task

/-- The nodes that are started. -/
def targets : PortDeed → List NodeId
  | .accepted _ _ _ _ => []
  | .routed _ _ _ targets _ | .round _ _ targets _ => targets

/-- The tasks they are started as. -/
def calls : PortDeed → List TaskId
  | .accepted _ _ _ _ => []
  | .routed _ _ _ _ calls | .round _ _ _ calls => calls

/-- Whether nodes are started. -/
def starts : PortDeed → Bool
  | .accepted _ _ _ _ => false
  | _ => true

def queued? (id : NodeId) : PortDeed → Option String
  | .accepted node _ port queued => if node = id ∧ queued = true then some port else none
  | _ => none

def round? (id : NodeId) : PortDeed → Option (List NodeId)
  | .round node _ targets _ => if node = id then some targets else none
  | _ => none

def late? (id : NodeId) (k : TaskId) : PortDeed → Option String
  | .accepted node task port queued =>
      if node = id ∧ task = k ∧ queued = false then some port else none
  | _ => none

def routed? (id : NodeId) (k : TaskId) : PortDeed → Option String
  | .routed node task port _ _ => if node = id ∧ task = k then some port else none
  | _ => none

end PortDeed

/-- The ports of a node whose fires were queued, in order. -/
def queuedPorts (id : NodeId) (p : List PortDeed) : List String := p.filterMap (PortDeed.queued? id)

/-- The rounds that a node's fan-out has started, in order. -/
def roundsOf (id : NodeId) (p : List PortDeed) : List (List NodeId) :=
  p.filterMap (PortDeed.round? id)

/-- The ports of a node that a task fired without their being queued, in order. -/
def latePorts (id : NodeId) (k : TaskId) (p : List PortDeed) : List String :=
  p.filterMap (PortDeed.late? id k)

/-- The ports of a node whose targets a task started after firing them, in order. -/
def routedPorts (id : NodeId) (k : TaskId) (p : List PortDeed) : List String :=
  p.filterMap (PortDeed.routed? id k)

section

variable (id : NodeId) (k : TaskId) (p q : List PortDeed)

@[simp] theorem queuedPorts_append :
    queuedPorts id (p ++ q) = queuedPorts id p ++ queuedPorts id q := List.filterMap_append

@[simp] theorem roundsOf_append : roundsOf id (p ++ q) = roundsOf id p ++ roundsOf id q :=
  List.filterMap_append

@[simp] theorem latePorts_append :
    latePorts id k (p ++ q) = latePorts id k p ++ latePorts id k q := List.filterMap_append

@[simp] theorem routedPorts_append :
    routedPorts id k (p ++ q) = routedPorts id k p ++ routedPorts id k q := List.filterMap_append

variable {id k p}

theorem mem_roundsOf {targets : List NodeId} (member : targets ∈ roundsOf id p) :
    ∃ f calls, .round id f targets calls ∈ p := by
  obtain ⟨deed, there, is⟩ := List.mem_filterMap.1 member
  cases deed with
  | round node f targets' calls =>
      simp only [PortDeed.round?] at is
      split at is
      · rename_i same
        cases is
        exact ⟨f, calls, same ▸ there⟩
      · cases is
  | _ => cases is

theorem mem_routedPorts {port : String} (member : port ∈ routedPorts id k p) :
    ∃ targets calls, .routed id k port targets calls ∈ p := by
  obtain ⟨deed, there, is⟩ := List.mem_filterMap.1 member
  cases deed with
  | routed node task port' targets calls =>
      simp only [PortDeed.routed?] at is
      split at is
      · rename_i same
        cases is
        obtain ⟨rfl, rfl⟩ := same
        exact ⟨targets, calls, there⟩
      · cases is
  | _ => cases is

theorem mem_latePorts {port : String} (member : port ∈ latePorts id k p) :
    .accepted id k port false ∈ p := by
  obtain ⟨deed, there, is⟩ := List.mem_filterMap.1 member
  cases deed with
  | accepted node task port' queued =>
      simp only [PortDeed.late?] at is
      split at is
      · rename_i same
        cases is
        obtain ⟨rfl, rfl, rfl⟩ := same
        exact there
      · cases is
  | _ => cases is

end

/-! ## Where a task stands -/

/-- The port that was fired and not queued, whose targets are not started yet. -/
def Execution.firing : Execution → List String
  | .fired port queued _ => if queued then [] else [port]
  | _ => []

/-- The tasks that are waited for. -/
def Execution.awaiting : Execution → List TaskId
  | .routed ts _ => ts
  | _ => []

namespace Work

/-- The program of a node that the work goes on with. -/
def program? : Work → Option (NodeId × Execution)
  | .call id _ (.run _ x) => some (id, x)
  | .aside id x => some (id, x)
  | _ => none

/-- The port of a node that the work has fired and not routed yet. -/
def firing (id : NodeId) (work : Work) : List String :=
  match work.program? with
  | some (k, x) => if k = id then x.firing else []
  | none => []

/-- The tasks that the work has started for ports and waits for. -/
def awaiting : Work → List TaskId
  | .call _ _ (.run _ x) | .aside _ x => x.awaiting
  | .fanOut _ _ waiting => waiting
  | _ => []

end Work

theorem Task.firing_of_done {id : NodeId} {task : Task} (done : task.isDone = true) :
    task.work.firing id = [] := by
  obtain ⟨j, work⟩ := task
  cases work with
  | call node began stage => cases stage <;> first | rfl | cases done
  | aside node x =>
      cases x with
      | active program => simp [Work.firing, Work.program?, Execution.firing]
      | _ => cases done
  | _ => rfl

theorem Work.Harmless.firing {g : Graph} {id : NodeId} {work : Work}
    (harmless : work.Harmless g) : work.firing id = [] := by
  cases work with
  | aside node x =>
      obtain ⟨program, rfl, -⟩ := harmless
      simp [Work.firing, Work.program?, Execution.firing]
  | _ => exact harmless.elim

/-- A program that has ended does no harm. -/
theorem Task.harmless_of_done {g : Graph} {id : NodeId} {x : Execution} {task : Task}
    (done : task.isDone = true) (program : task.work.program? = some (id, x)) :
    (Work.aside id x).Harmless g := by
  obtain ⟨j, work⟩ := task
  cases work with
  | call node began stage =>
      cases stage with
      | run => cases done
      | _ => cases program
  | aside node x' =>
      cases program
      cases x with
      | active program =>
          cases program with
          | finish outcome => exact ⟨_, rfl, fun _ _ _ => trivial⟩
          | _ => cases done
      | _ => cases done
  | _ => cases program

theorem Work.Harmless.program {g : Graph} {id : NodeId} {x : Execution} {work : Work}
    (harmless : work.Harmless g) (program : work.program? = some (id, x)) :
    (Work.aside id x).Harmless g := by
  cases work with
  | aside node x' =>
      cases program
      exact harmless
  | _ => exact harmless.elim

/-- Permits are no business of a program. -/
theorem Task.granted_idle {k : TaskId} (grant : Option (TaskId × Nat)) (task : Task)
    (id : NodeId) :
    (task.granted grant k).work.awaiting = task.work.awaiting ∧
      (task.granted grant k).work.firing id = task.work.firing id ∧
      (task.granted grant k).work.program? = task.work.program? :=
  ⟨view_granted (fun task => task.work.awaiting) (fun _ _ _ _ => rfl) grant k task,
    view_granted (fun task => task.work.firing id) (fun _ _ _ _ => rfl) grant k task,
    view_granted (fun task => task.work.program?) (fun _ _ _ _ => rfl) grant k task⟩

namespace Machine

variable (g : Graph)

/-! ## The history of ports -/

/-- What the next step of a program of a node by the task `t` does with a port. -/
def executionPorts (m : Machine) (t : TaskId) (n : Node) : Execution → List PortDeed
  | .active (.fire port _) =>
    if n.isPortDriven ∧ port ∈ n.ports then
      [.accepted n.id t port (!(m.cell n.id).queue.closed)]
    else []
  | .fired port queued _ =>
    if queued then []
    else [.routed n.id t port (n.targets port) (List.range' m.tasks.size (n.targets port).length)]
  | _ => []

/-- What the next step of the task `t` at some work does with ports. -/
def workPorts (m : Machine) (t : TaskId) : Work → List PortDeed
  | .call id _ (.run _ x) | .aside id x =>
    match g.node? id with
    | some n => m.executionPorts t n x
    | none => []
  | .fanOut id (targets :: _) [] =>
    [.round id t targets (List.range' m.tasks.size targets.length)]
  | _ => []

/-- What a move does with ports. -/
def ports (m : Machine) : Move → List PortDeed
  | .step t =>
    match m.step g t, m.tasks[t]? with
    | some _, some task => m.workPorts g t task.work
    | _, _ => []
  | .tick _ => []

/-- What is done with ports in the course of a schedule, in order. -/
def portHistory : Machine → List Move → List PortDeed
  | _, [] => []
  | m, v :: rest => m.ports g v ++ portHistory (m.move g v) rest

variable {g} {m m' : Machine} {t k first : TaskId} {r j : RunId} {n : Node} {id : NodeId}
  {x x' : Execution} {work work' : Work} {e : Effect}

theorem ports_of_step (here : m.tasks[t]? = some ⟨r, work⟩) (stepped : m.step g t = some m') :
    m.ports g (.step t) = m.workPorts g t work := by
  simp [ports, here, stepped]

/-- A move does nothing with ports, or it is a step by a rule. -/
theorem ports_cases (m : Machine) (v : Move) : m.ports g v = [] ∨
    ∃ t r work work' e, m.tasks[t]? = some ⟨r, work⟩ ∧ Transition g m t r work work' e ∧
      m.ports g v = m.workPorts g t work := by
  cases v with
  | tick now => exact .inl rfl
  | step t =>
      cases stepped : m.step g t with
      | none => exact .inl (by simp [ports, stepped])
      | some m' =>
          obtain ⟨r, work, work', e, here, rule, -, -⟩ := step_cases stepped
          exact .inr ⟨t, r, work, work', e, here, rule, ports_of_step here stepped⟩

/-- **Runs by their steps, with their ports.**  What each rule keeps, of the history, the history
of ports and the machine together, holds after the schedule. -/
theorem port_induction {P : List Deed → List PortDeed → Machine → Prop}
    (steps : ∀ h p m t r work work' e m', P h p m → m.tasks[t]? = some ⟨r, work⟩ →
      Transition g m t r work work' e → After m t r work' e m' →
      P (h ++ e.deeds) (p ++ m.workPorts g t work) m')
    (ticks : ∀ h p m now, P h p m → P h p { m with now := now }) :
    ∀ (schedule : List Move) (h : List Deed) (p : List PortDeed) (m : Machine), P h p m →
      P (h ++ m.history g schedule) (p ++ m.portHistory g schedule) (m.exec g schedule)
  | [], h, p, m, holds => by simpa [history, portHistory, exec] using holds
  | v :: rest, h, p, m, holds => by
      have next : P (h ++ m.moveDeeds g v) (p ++ m.ports g v) (m.move g v) := by
        cases v with
        | tick now => simpa [moveDeeds, ports, move] using ticks h p m now holds
        | step t =>
            cases stepped : m.step g t with
            | none =>
                simpa [moveDeeds, ports, move, stepped, deeds_of_stuck stepped] using holds
            | some m' =>
                obtain ⟨r, work, work', e, here, rule, after, deeds⟩ := step_cases stepped
                have kept := steps h p m t r work work' e m' holds here rule after
                simpa [moveDeeds, ports_of_step here stepped, move, stepped, deeds] using kept
      have rest := port_induction steps ticks rest _ _ _ next
      rw [exec_cons, history, portHistory, ← List.append_assoc, ← List.append_assoc]
      exact rest

/-! ## What a step adds -/

theorem executionPorts_task {deed : PortDeed} (member : deed ∈ m.executionPorts t n x) :
    deed.task = t ∧ deed.node = n.id := by
  unfold executionPorts at member
  split at member
  · split at member
    · cases List.mem_singleton.1 member
      exact ⟨rfl, rfl⟩
    · cases member
  · split at member
    · cases member
    · cases List.mem_singleton.1 member
      exact ⟨rfl, rfl⟩
  · cases member

theorem workPorts_task {deed : PortDeed} (member : deed ∈ m.workPorts g t work) :
    deed.task = t := by
  unfold workPorts at member
  split at member
  · split at member
    · exact (executionPorts_task member).1
    · cases member
  · split at member
    · exact (executionPorts_task member).1
    · cases member
  · cases List.mem_singleton.1 member
    rfl
  · cases member

/-- What a task does with ports is no other task's doing. -/
theorem latePorts_other (other : k ≠ t) : latePorts id k (m.workPorts g t work) = [] := by
  refine List.filterMap_eq_nil_iff.2 fun deed member => ?_
  have task := workPorts_task member
  cases deed with
  | accepted node s port queued =>
      have mine : s ≠ k := fun same => other (same.symm.trans task)
      cases queued <;> simp [PortDeed.late?, mine]
  | _ => rfl

theorem routedPorts_other (other : k ≠ t) : routedPorts id k (m.workPorts g t work) = [] := by
  refine List.filterMap_eq_nil_iff.2 fun deed member => ?_
  have task := workPorts_task member
  cases deed with
  | routed node s port targets calls =>
      have mine : s ≠ k := fun same => other (same.symm.trans task)
      simp [PortDeed.routed?, mine]
  | _ => rfl

theorem ExecutionStep.queuedPorts_eq (step : ExecutionStep m r n x x' e) (id : NodeId) :
    queuedPorts id (m.executionPorts t n x) = queuedFires id e.deeds := by
  cases step with
  | late driven declared closed =>
      simp [executionPorts, driven, declared, closed, queuedPorts, PortDeed.queued?, queuedFires,
        Deed.queued?, List.filterMap_cons]
  | queue driven declared isOpen =>
      simp [executionPorts, driven, declared, isOpen, queuedPorts, PortDeed.queued?, queuedFires,
        Deed.queued?, List.filterMap_cons]
  | portless plain => simp [executionPorts, plain, queuedPorts, queuedFires]
  | undeclared driven unknown => simp [executionPorts, unknown, queuedPorts, queuedFires]
  | _ => simp [executionPorts, queuedPorts, PortDeed.queued?, queuedFires, List.filterMap_cons]

/-- What is fired without being queued is routed next. -/
theorem ExecutionStep.firing (step : ExecutionStep m r n x x' e) :
    x.firing ++ latePorts n.id t (m.executionPorts t n x) =
      routedPorts n.id t (m.executionPorts t n x) ++ x'.firing := by
  cases step with
  | late driven declared closed =>
      simp [Execution.firing, executionPorts, driven, declared, closed, latePorts, routedPorts,
        PortDeed.late?, PortDeed.routed?, List.filterMap_cons]
  | queue driven declared isOpen =>
      simp [Execution.firing, executionPorts, driven, declared, isOpen, latePorts, routedPorts,
        PortDeed.late?, PortDeed.routed?, List.filterMap_cons]
  | portless plain => simp [Execution.firing, executionPorts, plain, latePorts, routedPorts]
  | undeclared driven unknown =>
      simp [Execution.firing, executionPorts, unknown, latePorts, routedPorts]
  | _ => simp [Execution.firing, executionPorts, latePorts, routedPorts, PortDeed.late?,
      PortDeed.routed?, List.filterMap_cons]

theorem executionPorts_rounds : roundsOf id (m.executionPorts t n x) = [] := by
  refine List.filterMap_eq_nil_iff.2 fun deed member => ?_
  unfold executionPorts at member
  split at member
  · split at member
    · cases List.mem_singleton.1 member
      rfl
    · cases member
  · split at member
    · cases member
    · cases List.mem_singleton.1 member
      rfl
  · cases member

theorem executionPorts_other (other : id ≠ n.id) : latePorts id t (m.executionPorts t n x) = [] ∧
    routedPorts id t (m.executionPorts t n x) = [] := by
  constructor
  all_goals
    refine List.filterMap_eq_nil_iff.2 fun deed member => ?_
    have node := (executionPorts_task member).2
    have mine : deed.node ≠ id := fun same => other (same.symm.trans node)
  · cases deed with
    | accepted k s port queued =>
        replace mine : k ≠ id := mine
        cases queued <;> simp [PortDeed.late?, mine]
    | _ => rfl
  · cases deed with
    | routed k s port targets calls =>
        replace mine : k ≠ id := mine
        simp [PortDeed.routed?, mine]
    | _ => rfl

/-- Both histories tell the same of what is queued. -/
theorem Transition.queuedPorts_eq (rule : Transition g m t r work work' e) (id : NodeId) :
    queuedPorts id (m.workPorts g t work) = queuedFires id e.deeds := by
  cases rule with
  | call known step =>
      cases step with
      | work step => simpa only [workPorts, known] using step.queuedPorts_eq id
      | finish => simp [workPorts, known, executionPorts, queuedPorts, queuedFires, Deed.queued?]
      | _ => rfl
  | aside known step => simpa only [workPorts, known] using step.queuedPorts_eq id
  | @rested k rounds w waiting all => cases rounds <;> rfl
  | _ => rfl

/-- Nothing is queued once the queue is closed. -/
theorem Transition.queued_closed (rule : Transition g m t r work work' e)
    (shut : (m.cell id).queue.closed = true) : queuedPorts id (m.workPorts g t work) = [] :=
  (rule.queuedPorts_eq id).trans (rule.queue_closed shut)

/-- **Fires that are not queued.**  The task that fires the port routes it next. -/
theorem Transition.firing (rule : Transition g m t r work work' e) (id : NodeId) :
    work.firing id ++ latePorts id t (m.workPorts g t work) =
      routedPorts id t (m.workPorts g t work) ++ work'.firing id := by
  have execution {k : NodeId} {n : Node} {x x' : Execution} (known : g.node? k = some n)
      (step : ExecutionStep m r n x x' e) :
      (if k = id then x.firing else []) ++ latePorts id t (m.executionPorts t n x) =
        routedPorts id t (m.executionPorts t n x) ++ (if k = id then x'.firing else []) := by
    cases Graph.id_of_node? known
    by_cases mine : n.id = id
    · subst mine
      simpa using step.firing
    · obtain ⟨late, routed⟩ := executionPorts_other (m := m) (t := t) (x := x) (Ne.symm mine)
      simp [mine, late, routed]
  cases rule with
  | @call _ n began stage stage' e known step =>
      cases step with
      | work step =>
          simpa only [Work.firing, Work.program?, workPorts, known] using execution known step
      | finish =>
          simp [Work.firing, Work.program?, workPorts, known, executionPorts, latePorts, routedPorts,
            Execution.firing]
      | _ =>
          simp [Work.firing, Work.program?, workPorts, latePorts, routedPorts, Execution.firing]
  | aside known step =>
      simpa only [Work.firing, Work.program?, workPorts, known] using execution known step
  | round =>
      simp [Work.firing, Work.program?, workPorts, latePorts, routedPorts, PortDeed.late?,
        PortDeed.routed?, List.filterMap_cons]
  | rested => simp [Work.firing, Work.program?, workPorts, latePorts, routedPorts]
  | _ => simp [Work.firing, Work.program?, workPorts, latePorts, routedPorts]

/-- **Rounds.**  They are started by fan-outs, one at a time. -/
theorem Transition.rounds (rule : Transition g m t r work work' e) (id : NodeId) :
    roundsOf id (m.workPorts g t work) = [] ∨
    ∃ targets rest, work = .fanOut id (targets :: rest) [] ∧
      work' = .fanOut id rest (List.range' m.tasks.size targets.length) ∧
      m.workPorts g t work = [.round id t targets (List.range' m.tasks.size targets.length)] := by
  cases rule with
  | @call _ n began stage stage' e known step =>
      left
      cases stage with
      | run received x => simp only [workPorts, known, executionPorts_rounds]
      | _ => rfl
  | aside known step =>
      left
      simp only [workPorts, known, executionPorts_rounds]
  | @round k targets rest =>
      by_cases mine : k = id
      · subst mine
        exact .inr ⟨targets, rest, rfl, rfl, rfl⟩
      · simp [workPorts, roundsOf, PortDeed.round?, mine]
  | @rested k rounds w waiting all => cases rounds <;> exact .inl rfl
  | _ => exact .inl rfl

/-- A task goes on only when everything that it waits for is done. -/
theorem Transition.awaited (rule : Transition g m t r work work' e) :
    m.allDone work.awaiting = true := by
  have execution {n : Node} {x x' : Execution} (step : ExecutionStep m r n x x' e) :
      m.allDone x.awaiting = true := by
    cases step with
    | arrive all => exact all
    | _ => rfl
  cases rule with
  | call known step =>
      cases step with
      | work step => exact execution step
      | _ => rfl
  | aside known step => exact execution step
  | rested all => exact all
  | _ => rfl

/-- A task waits for what it starts. -/
theorem Transition.starts (rule : Transition g m t r work work' e) {deed : PortDeed}
    (member : deed ∈ m.workPorts g t work) (starts : deed.starts = true) :
    work'.awaiting = deed.calls ∧ deed.calls = List.range' m.tasks.size deed.targets.length ∧
      e.spawned = deed.targets.map (m.freshCall r) := by
  have execution {n : Node} {x x' : Execution} (step : ExecutionStep m r n x x' e)
      (member : deed ∈ m.executionPorts t n x) :
      x'.awaiting = deed.calls ∧ deed.calls = List.range' m.tasks.size deed.targets.length ∧
        e.spawned = deed.targets.map (m.freshCall r) := by
    cases step with
    | portless | undeclared | late | queue =>
        simp only [executionPorts] at member
        split at member
        · cases List.mem_singleton.1 member
          cases starts
        · cases member
    | route =>
        cases List.mem_singleton.1 member
        exact ⟨rfl, rfl, rfl⟩
    | _ => cases member
  cases rule with
  | @call _ n began stage stage' e known step =>
      cases step with
      | work step =>
          simp only [workPorts, known] at member
          exact execution step member
      | finish =>
          simp only [workPorts, known] at member
          cases member
      | _ => cases member
  | aside known step =>
      simp only [workPorts, known] at member
      exact execution step member
  | round =>
      cases List.mem_singleton.1 member
      exact ⟨rfl, rfl, rfl⟩
  | @rested k rounds w waiting all => cases rounds <;> cases member
  | _ => cases member

/-- A port is routed to its targets, by a task that goes on with a program of the node. -/
theorem of_routed {port : String} {targets : List NodeId} {calls : List TaskId}
    (member : .routed id k port targets calls ∈ m.workPorts g t work) :
    work.firing id = [port] ∧ ∃ n, g.node? id = some n ∧ targets = n.targets port := by
  have execution {k' : NodeId} {n : Node} {x : Execution} (known : g.node? k' = some n)
      (member : .routed id k port targets calls ∈ m.executionPorts t n x) :
      k' = id ∧ x.firing = [port] ∧ targets = n.targets port := by
    unfold executionPorts at member
    split at member
    · split at member <;> simp at member
    · split at member
      · cases member
      · rename_i late
        cases List.mem_singleton.1 member
        exact ⟨(Graph.id_of_node? known).symm, if_neg late, rfl⟩
    · cases member
  unfold workPorts at member
  split at member
  · split at member
    · rename_i n known
      obtain ⟨rfl, firing, same⟩ := execution known member
      exact ⟨by simp [Work.firing, Work.program?, firing], n, known, same⟩
    · cases member
  · split at member
    · rename_i n known
      obtain ⟨rfl, firing, same⟩ := execution known member
      exact ⟨by simp [Work.firing, Work.program?, firing], n, known, same⟩
    · cases member
  · simp at member
  · cases member

/-- A port that is accepted without being queued finds the queue closed. -/
theorem closed_of_late {port : String} (member : .accepted id k port false ∈ m.workPorts g t work) :
    (m.cell id).queue.closed = true := by
  have execution {n : Node} {x : Execution}
      (member : .accepted id k port false ∈ m.executionPorts t n x) :
      (m.cell id).queue.closed = true := by
    unfold executionPorts at member
    split at member
    · split at member
      · have same := List.mem_singleton.1 member
        simp only [PortDeed.accepted.injEq, eq_comm (a := false), Bool.not_eq_eq_eq_not,
          Bool.not_false] at same
        rw [same.1]
        exact same.2.2.2
      · cases member
    · simp at member
    · cases member
  unfold workPorts at member
  split at member
  · split at member
    · exact execution member
    · cases member
  · split at member
    · exact execution member
    · cases member
  · simp at member
  · cases member

end Machine
end Flowgraph
