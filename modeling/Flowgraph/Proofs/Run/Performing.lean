/- # Flowgraph.Proofs.Run.Performing -- a performance in the course of a run

When every invocation of a node's function performs (`Rehearsed`), the run that calls it has the
performance whole, wherever it interleaves with the rest: at each stage of the call, the fires
that were accepted and what the node has published are those of the performance so far
(`Stage.Performs`).

Only the call itself could spoil this.  No other task computes while it does, the call stores
before the queue is closed, and nobody else has a program of the node: what performs leaves no
work behind, and what earlier runs left behind has a document of its own to write to.
-/
import Flowgraph.Proofs.Run.Performance
import Flowgraph.Proofs.Run.Shapes

set_option autoImplicit false

namespace Flowgraph

/-! ## Fires -/

/-- The port of a fire that was accepted, with whether it was queued. -/
def PortDeed.accepted? (id : NodeId) : PortDeed → Option (String × Bool)
  | .accepted node _ port queued => if node = id then some (port, queued) else none
  | _ => none

/-- The fires of a node that were accepted, in order. -/
def firesOf (id : NodeId) (p : List PortDeed) : List (String × Bool) :=
  p.filterMap (PortDeed.accepted? id)

@[simp] theorem firesOf_append (id : NodeId) (p q : List PortDeed) :
    firesOf id (p ++ q) = firesOf id p ++ firesOf id q := List.filterMap_append

theorem mem_firesOf {id : NodeId} {k : TaskId} {port : String} {queued : Bool} {p : List PortDeed}
    (member : .accepted id k port queued ∈ p) : (port, queued) ∈ firesOf id p :=
  List.mem_filterMap.2 ⟨_, member, if_pos rfl⟩

/-- Ports whose fires were queued. -/
def queuing (ports : List String) : List (String × Bool) := ports.map fun port => (port, true)

theorem queuedPorts_eq (id : NodeId) (p : List PortDeed) :
    queuedPorts id p = ((firesOf id p).filter Prod.snd).map Prod.fst := by
  induction p with
  | nil => rfl
  | cons deed rest ih =>
      rw [queuedPorts, firesOf, List.filterMap_cons, List.filterMap_cons, ← queuedPorts, ← firesOf,
        ih]
      cases deed with
      | accepted node k port queued =>
          by_cases mine : node = id <;> cases queued <;>
            simp [PortDeed.queued?, PortDeed.accepted?, mine]
      | _ => rfl

/-- When all fires of a node were queued, these are their ports. -/
theorem queuedPorts_of_queuing {id : NodeId} {p : List PortDeed} {ports : List String}
    (fires : firesOf id p = queuing ports) : queuedPorts id p = ports := by
  rw [queuedPorts_eq, fires, queuing, List.filter_map, List.map_map]
  simp [Function.comp_def]

/-! ## Stages -/

/-- A document is the result of a node whose function comes to the end of a performance. -/
def Node.Gives (n : Node) (π : Performance) (d : Document) : Prop :=
  ∃ received, received.Envelope ∧ (Machine.conclude n received π.outcome = .ok d ∨
    ∃ e time, Machine.conclude n received π.outcome = .error e ∧ d = n.failure e time)

/-- How far a performance has come when the call that performs stands at a stage: by what the node
has published, and its fires. -/
def Stage.Performs (n : Node) (π : Performance) (part : Option Value)
    (fires : List (String × Bool)) : Stage → Prop
  | .run _ x => ∃ fired left, π.ports = fired ++ left ∧ fires = queuing fired ∧
      x.Performs n π part left
  | .report outcome => fires = queuing π.ports ∧ part = π.part ∧
      ∃ received, received.Envelope ∧ outcome = Machine.conclude n received π.outcome
  | .blame e => fires = queuing π.ports ∧ part = π.part ∧
      ∃ received, received.Envelope ∧ Machine.conclude n received π.outcome = .error e
  | .store d | .publish d => fires = queuing π.ports ∧ part = π.part ∧ n.Gives π d
  | .unmark d | .release d | .close d | .branch d _ | .done d =>
      fires = queuing π.ports ∧ part = some (Value.mergeOver π.part d.root) ∧ n.Gives π d
  | _ => False

namespace Machine

variable {g : Graph} {m m' : Machine} {t k first : TaskId} {r j : RunId} {n : Node} {id : NodeId}
  {x x' : Execution} {work work' : Work} {e : Effect} {inputs : RunInputs} {π : Performance}
  {part : Option Value} {fires : List (String × Bool)} {began : Instant} {stage stage' : Stage}
  {h : List Deed} {p : List PortDeed}

/-! ## A step of the call -/

/-- A stage at which a call neither runs its program nor publishes does nothing to be seen. -/
theorem firesOf_call (quiet : ∀ received x, stage ≠ .run received x) :
    firesOf id (m.workPorts g t (.call n.id began stage)) = [] := by
  cases stage with
  | run => exact absurd rfl (quiet _ _)
  | _ => rfl

theorem CallStep.performs (step : CallStep g m t r n began stage stage' e)
    (known : g.node? n.id = some n)
    (after : After m t r (.call n.id (m.beganAfter began stage) stage') e m')
    (composed : m.Composed inputs r)
    (isOpen : stage.phase = .computing → (m.cell n.id).queue.closed = false)
    (shaped : ∀ received x, stage = .run received x → received.Envelope)
    (performs : stage.Performs n π (m.published r n.id) fires) :
    stage'.Performs n π (m'.published r n.id)
      (fires ++ firesOf n.id (m.workPorts g t (.call n.id began stage))) := by
  have rule : Transition g m t r (.call n.id began stage) _ e := .call known step
  -- nothing but the program and the publication of the result is published
  have still (quiet : ∀ received x, stage ≠ .run received x)
      (unpublished : ∀ d, stage ≠ .publish d) :
      m'.published r n.id = m.published r n.id ∧
        fires ++ firesOf n.id (m.workPorts g t (.call n.id began stage)) = fires := by
    rw [firesOf_call quiet, List.append_nil]
    obtain ⟨-, same | ⟨-, ⟨x, program⟩ | ⟨_, d, publishes⟩⟩⟩ := composed.step rule after n.id
    · exact ⟨same, rfl⟩
    · cases stage with
      | run => exact absurd rfl (quiet _ _)
      | _ => cases program
    · cases publishes
      exact absurd rfl (unpublished d)
  cases step with
  | @finish received outcome =>
      obtain ⟨fired, left, whole, done, ends⟩ := performs
      have same := after.published_kept (fun _ => rfl) r n.id
      have quiet : firesOf n.id (m.workPorts g t
          (.call n.id began (.run received (.active (.finish outcome))))) = [] := by
        simp [workPorts, known, executionPorts, firesOf]
      rw [same, quiet, List.append_nil]
      generalize m.published r n.id = part at ends
      cases ends with
      | finish =>
          rw [List.append_nil] at whole
          exact ⟨whole ▸ done, rfl, received, shaped received _ rfl, rfl⟩
  | @work received x x' e step =>
      obtain ⟨fired, left, whole, done, goes⟩ := performs
      obtain ⟨-, more, left', split, made, goes⟩ := step.performs after composed (isOpen rfl) goes
      have told : firesOf n.id (m.workPorts g t (.call n.id began (.run received x))) =
          queuing more := by
        simp [workPorts, known, made, firesOf, List.filterMap_map, Function.comp_def,
          PortDeed.accepted?, queuing]
      refine ⟨fired ++ more, left', by rw [whole, split, List.append_assoc], ?_, goes⟩
      rw [told, done, queuing, queuing, queuing, List.map_append]
  | @completed d =>
      obtain ⟨same, none⟩ := still (by simp) (by simp)
      obtain ⟨done, last, received, envelope, concluded⟩ := performs
      rw [same, none]
      exact ⟨done, last, received, envelope, .inl concluded.symm⟩
  | failed =>
      obtain ⟨same, none⟩ := still (by simp) (by simp)
      obtain ⟨done, last, received, envelope, concluded⟩ := performs
      rw [same, none]
      exact ⟨done, last, received, envelope, concluded.symm⟩
  | blame =>
      obtain ⟨same, none⟩ := still (by simp) (by simp)
      obtain ⟨done, last, received, envelope, concluded⟩ := performs
      rw [same, none]
      exact ⟨done, last, received, envelope, .inr ⟨_, _, concluded, rfl⟩⟩
  | @publish d =>
      obtain ⟨done, last, gives⟩ := performs
      obtain ⟨run, parts, running, made⟩ := composed
      have running' := after.run r
      rw [if_pos rfl, running, Option.map_some] at running'
      obtain ⟨-, now⟩ := Composed.answered ⟨run, parts, running, made⟩ (.publishResult n.id d)
        running running' (by simp only [Shared.answer]) n.id
      have quiet : firesOf n.id (m.workPorts g t (.call n.id began (.publish d))) = [] := rfl
      rw [quiet, List.append_nil, now, Call.owner?, if_pos rfl, Owner.next, last]
      exact ⟨done, rfl, gives⟩
  | store | unmark | release | close | branch =>
      obtain ⟨same, none⟩ := still (by simp) (by simp)
      rw [same, none]
      exact performs
  | _ => exact performs.elim

/-! ## Tasks of other runs -/

/-- Of other runs there is nothing left that a run can notice. -/
def Alone (g : Graph) (r : RunId) (m : Machine) : Prop :=
  ∀ (k : TaskId) (task : Task), m.tasks[k]? = some task →
    task.isDone = true ∨ task.run = r ∨ task.run ≠ r ∧ task.work.Harmless g

theorem Alone.current (alone : m.Alone g r) (here : m.tasks[t]? = some ⟨j, work⟩)
    (rule : Transition g m t j work work' e) : j = r ∨ j ≠ r ∧ work.Harmless g := by
  obtain done | one := alone t _ here
  · cases rule.not_done.symm.trans done
  · exact one

theorem Alone.step (alone : m.Alone g r) (here : m.tasks[t]? = some ⟨j, work⟩)
    (rule : Transition g m t j work work' e) (after : After m t j work' e m') : m'.Alone g r := by
  intro k task there
  have goesOn := alone.current here rule
  obtain ⟨rfl, rfl⟩ | ⟨-, old, was, rfl⟩ | ⟨-, new⟩ := after.cases there
  · exact .inr (goesOn.imp_right fun one => ⟨one.1, (rule.harmless one.2).1⟩)
  · rw [Task.isDone_granted, Task.granted_run]
    obtain done | own | ⟨other, harmless⟩ := alone k old was
    · exact .inl done
    · exact .inr (.inl own)
    · rw [Task.granted_of_not_launch _ _ harmless.not_launch]
      exact .inr (.inr ⟨other, harmless⟩)
  · have same : task.run = j := by cases rule.spawnedAt new <;> rfl
    rw [same]
    exact .inr (goesOn.imp_right fun one =>
      ⟨one.1, (rule.harmless one.2).2.1 task (List.mem_of_getElem? new)⟩)

/-- Work that no run can notice fires nothing. -/
theorem firesOf_harmless (harmless : work.Harmless g) :
    firesOf id (m.workPorts g t work) = [] := by
  cases work with
  | aside k x =>
      obtain ⟨program, rfl, fireless⟩ := harmless
      rw [workPorts]
      cases known : g.node? k with
      | none => rfl
      | some n =>
          cases program with
          | fire port next =>
              have plain : n.isPortDriven = false :=
                Bool.eq_false_iff.2 fun driven => fireless n known driven
              simp [executionPorts, plain, firesOf]
          | _ => rfl
  | _ => exact harmless.elim

/-- What fires a port of a node is a program of it. -/
theorem program_of_firesOf (fires : firesOf id (m.workPorts g t work) ≠ []) :
    ∃ x, work.program? = some (id, x) := by
  obtain ⟨one, member⟩ := List.exists_mem_of_ne_nil _ fires
  obtain ⟨deed, there, is⟩ := List.mem_filterMap.1 member
  have mine : deed.node = id := by
    cases deed with
    | accepted node k port queued =>
        simp only [PortDeed.accepted?] at is
        split at is
        · assumption
        · cases is
    | _ => cases is
  have program {k : NodeId} {x : Execution} {n : Node} (known : g.node? k = some n)
      (there : deed ∈ m.executionPorts t n x) : k = id := by
    rw [← Graph.id_of_node? known, ← (executionPorts_task there).2, mine]
  unfold workPorts at there
  split at there
  · split at there
    · rename_i n known
      cases program known there
      exact ⟨_, rfl⟩
    · cases there
  · split at there
    · rename_i n known
      cases program known there
      exact ⟨_, rfl⟩
    · cases there
  · cases List.mem_singleton.1 there
    cases is
  · cases there

theorem Account.invoked_unique {i i' : Invocation} (account : m.Account first id h)
    (one : .invoked id k i ∈ h) (two : .invoked id t i' ∈ h) : k = t ∧ i = i' := by
  cases eq_of_countP_le_one account.invoked one two (by simp [Deed.invokes])
    (by simp [Deed.invokes])
  exact ⟨rfl, rfl⟩

/-- A task that is there before a run begins is of another run. -/
theorem Kept.earlier (kept : m.Kept) {task : Task} (there : m.tasks[k]? = some task) :
    task.run ≠ m.nextRun := by
  obtain ⟨run, running⟩ := kept.running there
  exact Nat.ne_of_lt (List.getElem?_eq_some_iff.1 running).1

/-! ## The invariant -/

/-- Whatever the function of a node is called with, it performs. -/
def Rehearsed (g : Graph) (n : Node) (π : Invocation → Performance) : Prop :=
  ∀ context scope i, n.bind g.evaluator context scope = .ok i →
    (n.function.body i).Performs n (π i) none (π i).ports

/-- In the run `r` nobody but the call of a node has a program of it, and what the node has
published and fired is what the call performed. -/
structure Performing (g : Graph) (n : Node) (π : Invocation → Performance) (inputs : RunInputs)
    (r : RunId) (h : List Deed) (p : List PortDeed) (m : Machine) : Prop where
  composed : m.Composed inputs r
  alone : m.Alone g r
  programs : ∀ {k : TaskId} {task : Task} {x}, m.tasks[k]? = some task → task.run = r →
    task.work.program? = some (n.id, x) → ∃ i, .invoked n.id k i ∈ h
  before : (∀ k i, .invoked n.id k i ∉ h) → firesOf n.id p = [] ∧
    ((m.cell n.id).result = none → m.published r n.id = none)
  performs : ∀ {k i j stage}, .invoked n.id k i ∈ h → m.Calling j k n.id stage →
    stage.Performs n (π i) (m.published r n.id) (firesOf n.id p)

namespace Performing

variable {rehearsal : Invocation → Performance}
  (performing : m.Performing g n rehearsal inputs r h p) (memo : m.Memo first)
  (account : m.Account first n.id h) (here : m.tasks[t]? = some ⟨j, work⟩)
  (rule : Transition g m t j work work' e) (after : After m t j work' e m')
section Apart

include performing rule

/-- A step that has no program of the node in this run fires no port of the node. -/
theorem silent (here : m.tasks[t]? = some ⟨j, work⟩)
    (apart : j = r → ∀ x, work.program? ≠ some (n.id, x)) :
    firesOf n.id (m.workPorts g t work) = [] := by
  obtain mine | ⟨-, harmless⟩ := performing.alone.current here rule
  · by_contra fires
    obtain ⟨x, program⟩ := program_of_firesOf fires
    exact apart mine x program
  · exact firesOf_harmless harmless

/-- Nor does it publish for the node, unless it publishes the result. -/
theorem unpublished (after : After m t j work' e m')
    (apart : j = r → ∀ x, work.program? ≠ some (n.id, x))
    (other : j = r → ∀ began d, work ≠ .call n.id began (.publish d)) :
    m'.published r n.id = m.published r n.id := by
  obtain ⟨-, same | ⟨mine, ⟨x, program⟩ | ⟨began, d, publishes⟩⟩⟩ :=
    performing.composed.step rule after n.id
  · exact same
  · exact absurd program (apart mine x)
  · exact absurd publishes (other mine began d)

end Apart

include performing here

/-- The task of a program of the node in this run is the one that called the function. -/
theorem caller {x : Execution} {i : Invocation} (account : m.Account first n.id h)
    (invoked : .invoked n.id k i ∈ h) (mine : j = r)
    (program : work.program? = some (n.id, x)) : k = t := by
  obtain ⟨i', too⟩ := performing.programs here mine program
  exact (account.invoked_unique invoked too).1

/-- Before the function is called there is no program of the node in this run. -/
theorem idle (none : ∀ k i, .invoked n.id k i ∉ h) (mine : j = r) (x : Execution) :
    work.program? ≠ some (n.id, x) := by
  intro program
  obtain ⟨i, invoked⟩ := performing.programs here mine program
  exact none t i invoked

include memo account rule after

theorem step_before (none : ∀ k i, .invoked n.id k i ∉ h ++ e.deeds) :
    firesOf n.id (p ++ m.workPorts g t work) = [] ∧
      ((m'.cell n.id).result = .none → m'.published r n.id = .none) := by
  have early : ∀ k i, .invoked n.id k i ∉ h := fun k i old => none k i (List.mem_append_left _ old)
  obtain ⟨quiet, unpublished⟩ := performing.before early
  have apart := performing.idle here early
  refine ⟨?_, fun missing => ?_⟩
  · rw [firesOf_append, quiet, performing.silent rule here apart, List.append_nil]
  · have missed : (m.cell n.id).result = .none := by
      cases has : (m.cell n.id).result with
      | none => rfl
      | some d => cases missing.symm.trans (memo.result_kept here rule after has)
    rw [performing.unpublished rule after apart, unpublished missed]
    rintro - began d rfl
    -- a result that is about to be published is there
    obtain ⟨d', stored⟩ := account.closer ⟨began, here⟩ rfl
    cases missed.symm.trans (account.result_of_stored memo stored)

omit memo rule after in
/-- A program of the node in this run is run by the call that performs. -/
theorem running {x : Execution} (mine : j = r) (program : work.program? = some (n.id, x)) :
    ∃ i began received, .invoked n.id t i ∈ h ∧ work = .call n.id began (.run received x) := by
  obtain ⟨i, invoked⟩ := performing.programs here mine program
  obtain ⟨-, _, stage, ⟨began, there⟩, -⟩ := account.invoker invoked
  cases here.symm.trans there
  cases stage with
  | run received =>
      cases program
      exact ⟨i, began, received, invoked, rfl⟩
  | _ => cases program

omit performing here rule after in
/-- The queue of the node is open while its call computes. -/
theorem isOpen (onward : m.Onward g first n.id h) (calling : m.Calling j t n.id stage)
    (computing : stage.phase = .computing) : (m.cell n.id).queue.closed = false := by
  cases shut : (m.cell n.id).queue.closed with
  | false => rfl
  | true =>
      obtain ⟨d, has⟩ := onward.result_of_closed account memo shut
      cases (memo.unset calling computing).symm.trans has

theorem step_programs (onward : m.Onward g first n.id h) (known : g.node? n.id = some n)
    {task : Task} {x : Execution} (there : m'.tasks[k]? = some task) (mine : task.run = r)
    (program : task.work.program? = some (n.id, x)) : ∃ i, .invoked n.id k i ∈ h ++ e.deeds := by
  have kept {k : TaskId} : (∃ i, .invoked n.id k i ∈ h) → ∃ i, .invoked n.id k i ∈ h ++ e.deeds :=
    fun ⟨i, invoked⟩ => ⟨i, List.mem_append_left _ invoked⟩
  obtain ⟨rfl, rfl⟩ | ⟨-, old, was, rfl⟩ | ⟨-, new⟩ := after.cases there
  · obtain ⟨i, invoked⟩ | ⟨x₀, _, had, -⟩ := rule.program program
    · exact ⟨i, List.mem_append_right _ invoked⟩
    · exact kept (performing.programs here mine had)
  · rw [Task.granted_run] at mine
    rw [(Task.granted_idle e.grant old n.id).2.2] at program
    exact kept (performing.programs was mine program)
  · -- what performs starts no other work
    have same : task.run = j := by cases rule.spawnedAt new <;> rfl
    cases same.symm.trans mine
    have member := List.mem_of_getElem? new
    obtain ⟨-, x₀, x₁, n', had, known', step⟩ := rule.left member program
    cases known.symm.trans known'
    obtain ⟨i, began, received, invoked, rfl⟩ := performing.running account here rfl had
    cases had
    have calling : m.Calling _ t n.id (.run received x₀) := ⟨began, here⟩
    have isOpen := isOpen memo account onward calling rfl
    obtain ⟨_, left, -, -, goes⟩ := performing.performs invoked calling
    rw [(step.performs after performing.composed isOpen goes).1] at member
    cases member

/-- The call that performs goes on with its performance, and when another task takes a step it
stands where it stood. -/
theorem step_called (onward : m.Onward g first n.id h) (shaped : m.Shaped g)
    (known : g.node? n.id = some n) {i : Invocation} {s : RunId} (invoked : .invoked n.id k i ∈ h)
    (calling : m'.Calling s k n.id stage) :
    stage.Performs n (rehearsal i) (m'.published r n.id)
      (firesOf n.id p ++ firesOf n.id (m.workPorts g t work)) := by
  obtain ⟨recent, _, stage₀, there, called, -⟩ := account.invoker invoked
  have performs := performing.performs invoked there
  obtain ⟨other, stays⟩ | ⟨rfl, rfl, n', _, stage', known', -, step, stands⟩ :=
    there.moved here rule after
  · obtain ⟨-, -, rfl⟩ := stays.unique calling
    have apart : j = r → ∀ x, work.program? ≠ some (n.id, x) :=
      fun mine x program => other (performing.caller here account invoked mine program)
    have still := performing.unpublished rule after apart (by
      rintro - began d rfl
      obtain ⟨_, stored⟩ := account.closer ⟨began, here⟩ rfl
      exact other (account.executor memo invoked stored))
    rw [performing.silent rule here apart, List.append_nil, still]
    exact performs
  · obtain ⟨began, here'⟩ := there
    cases here.symm.trans here'
    obtain rfl | ⟨-, harmless⟩ := performing.alone.current here rule
    · cases rule with
      | call known' step =>
          cases known.symm.trans known'
          obtain ⟨-, -, rfl⟩ := calling.unique ⟨_, after.here⟩
          refine step.performs known after performing.composed
            (isOpen memo account onward ⟨began, here⟩) ?_ performs
          rintro received x rfl
          obtain probe | ⟨n', -, envelope⟩ := shaped.calls ⟨began, here⟩
          · cases probe
          · exact envelope
    · exact harmless.elim

/-- The call that is made has all of its performance before it. -/
theorem step_calls (known : g.node? n.id = some n) (rehearsed : Rehearsed g n rehearsal)
    {i : Invocation} {s : RunId} (invoked : .invoked n.id k i ∈ e.deeds)
    (calling : m'.Calling s k n.id stage) :
    stage.Performs n (rehearsal i) (m'.published r n.id)
      (firesOf n.id p ++ firesOf n.id (m.workPorts g t work)) := by
  obtain ⟨rfl, began, began', received, scope, x, rfl, rfl⟩ := rule.of_invoked invoked
  have mine : m.Calling j k n.id (.record received scope) := ⟨began, here⟩
  have early : ∀ k i, .invoked n.id k i ∉ h := by
    intro k' i' old
    obtain ⟨recent, _, stage, there, called, -⟩ := account.invoker old
    cases memo.sole mine rfl recent there called
    obtain ⟨-, -, rfl⟩ := there.unique mine
    cases called
  obtain ⟨quiet, unpublished⟩ := performing.before early
  have still := performing.unpublished rule after (by simp [Work.program?]) (by simp)
  have silent := performing.silent rule here (by simp [Work.program?])
  rw [quiet, silent, still, unpublished (memo.unset mine rfl)]
  obtain ⟨-, -, rfl⟩ := calling.unique ⟨_, after.here⟩
  cases rule with
  | call known' step =>
      cases known.symm.trans known'
      cases step with
      | invoke running bound =>
          cases List.mem_singleton.1 invoked
          exact ⟨[], _, rfl, rfl, rehearsed _ _ _ bound⟩

/-- **Every step keeps the performance.** -/
theorem step (onward : m.Onward g first n.id h) (shaped : m.Shaped g)
    (known : g.node? n.id = some n) (rehearsed : Rehearsed g n rehearsal) :
    m'.Performing g n rehearsal inputs r (h ++ e.deeds) (p ++ m.workPorts g t work) where
  composed := (performing.composed.step rule after n.id).1
  alone := performing.alone.step here rule after
  programs := performing.step_programs memo account here rule after onward known
  before := performing.step_before memo account here rule after
  performs := by
    intro k i s stage invoked calling
    rw [firesOf_append]
    obtain old | new := List.mem_append.1 invoked
    · exact performing.step_called memo account here rule after onward shaped known old calling
    · exact performing.step_calls memo account here rule after known rehearsed new calling

omit here rule after in
/-- **A node that has its result has had its performance**: what it fired and published is all of
it, and its result is what comes of it. -/
theorem performed {i : Invocation} {d : Document} (invoked : .invoked n.id k i ∈ h)
    (has : (m.cell n.id).result = some d) :
    firesOf n.id p = queuing (rehearsal i).ports ∧ n.Gives (rehearsal i) d ∧
      (m.published r n.id = (rehearsal i).part ∨
        m.published r n.id = some (Value.mergeOver (rehearsal i).part d.root)) := by
  obtain ⟨t, stored⟩ := account.result has
  cases account.executor memo invoked stored
  obtain ⟨-, j, stage, calling, written, result⟩ := account.storer stored
  have performs := performing.performs invoked calling
  cases stage with
  | publish =>
      cases result
      obtain ⟨fires, part, gives⟩ := performs
      exact ⟨fires, gives, .inl part⟩
  | unmark | release | close | branch | done =>
      cases result
      obtain ⟨fires, part, gives⟩ := performs
      exact ⟨fires, gives, .inr part⟩
  | _ => cases written

end Performing

/-! ## What is done with the ports of a performance -/

/-- A call was started for a port of a node. -/
def StartedBy (id : NodeId) (p : List PortDeed) (c : TaskId) : Prop :=
  ∃ deed ∈ p, deed.node = id ∧ c ∈ deed.calls

section Deeds

variable (routing : m.Routing g n first h p) {ports : List String} {deed : PortDeed}
  (all : firesOf n.id p = queuing ports)
include routing all

/-- When all fires of a node were queued, the rest is left to its fan-out. -/
theorem Routing.deed_cases (member : deed ∈ p) (mine : deed.node = n.id) :
    (∃ k port, deed = .accepted n.id k port true ∧ port ∈ ports) ∨
      ∃ f targets calls, deed = .round n.id f targets calls ∧ targets ∈ roundsOf n.id p := by
  cases deed with
  | accepted node k port queued =>
      cases mine
      have fired := mem_firesOf member
      rw [all] at fired
      obtain ⟨_, declared, same⟩ := List.mem_map.1 fired
      cases same
      exact .inl ⟨k, port, rfl, declared⟩
  | routed node k port targets calls =>
      cases mine
      -- what a task routes itself, it fired when the queue was closed
      have late : port ∈ latePorts n.id k p := by
        rw [routing.honours.late k]
        exact List.mem_append_left _ (List.mem_filterMap.2 ⟨_, member, if_pos ⟨rfl, rfl⟩⟩)
      have fired := mem_firesOf (mem_latePorts late)
      rw [all] at fired
      obtain ⟨_, -, same⟩ := List.mem_map.1 fired
      cases same
  | round node f targets calls =>
      cases mine
      exact .inr ⟨f, targets, calls, rfl, List.mem_filterMap.2 ⟨_, member, if_pos rfl⟩⟩

theorem Routing.rounds_in_order : roundsOf n.id p <+: ports.map n.targets := by
  have order := routing.honours.rounds_in_order
  rwa [queuedPorts_of_queuing all] at order

/-- A call that was started for a port was started in a round, for one of its targets. -/
theorem Routing.started {c : TaskId} (started : StartedBy n.id p c) :
    ∃ f targets calls, .round n.id f targets calls ∈ p ∧ c ∈ calls ∧
      targets ∈ roundsOf n.id p ∧ ∀ {j id stage}, m.Calling j c id stage → id ∈ targets := by
  obtain ⟨deed, member, mine, call⟩ := started
  obtain ⟨k, port, rfl, -⟩ | ⟨f, targets, calls, rfl, round⟩ := routing.deed_cases all member mine
  · cases call
  · refine ⟨f, targets, calls, member, call, round, fun {j id stage} calling => ?_⟩
    obtain ⟨i, small, rfl⟩ := List.getElem_of_mem call
    have one := List.forall₂_iff_get.1 (routing.sent.calls member)
    have paired : i < targets.length := one.1 ▸ small
    obtain ⟨_, _, there⟩ := one.2 i paired small
    obtain ⟨-, rfl, -⟩ := there.unique calling
    exact List.get_mem ..

end Deeds

/-- Whatever has been fired when some of a performance is over was queued. -/
theorem Performing.queued {rehearsal : Invocation → Performance}
    (performing : m.Performing g n rehearsal inputs r h p) (account : m.Account first n.id h) :
    ∃ ports, firesOf n.id p = queuing ports := by
  by_cases some : ∃ k i, .invoked n.id k i ∈ h
  · obtain ⟨k, i, invoked⟩ := some
    obtain ⟨-, j, stage, calling, called, -⟩ := account.invoker invoked
    have performs := performing.performs invoked calling
    cases stage with
    | run =>
        obtain ⟨fired, left, -, fires, -⟩ := performs
        exact ⟨fired, fires⟩
    | report | blame | store | publish | unmark | release | close | branch | done =>
        exact ⟨_, performs.1⟩
    | _ => cases called
  · exact ⟨[], (performing.before fun k i invoked => some ⟨k, i, invoked⟩).1⟩

/-- A node starts nothing before it has been called and has its result. -/
theorem Performing.started {rehearsal : Invocation → Performance} {c : TaskId}
    (performing : m.Performing g n rehearsal inputs r h p) (routing : m.Routing g n first h p)
    (started : StartedBy n.id p c) :
    (∃ k i, .invoked n.id k i ∈ h) ∧ ∃ d, (m.cell n.id).result = some d := by
  obtain ⟨ports, fires⟩ := performing.queued routing.account
  obtain ⟨f, targets, calls, member, -, round, -⟩ := routing.started fires started
  constructor
  · refine routing.honours.invoked fun none => ?_
    have order := routing.honours.rounds_in_order
    rw [none, List.map_nil, List.prefix_nil] at order
    rw [order] at round
    cases round
  · exact routing.onward.result_of_closed routing.account routing.memo
      (routing.onward.fans (routing.honours.started member))

/-! ## A run -/

/-- A run that begins when all else is at rest has nothing published and nothing fired. -/
theorem AtRest.performing (rest : m.AtRest g) (kept : m.Kept) (rehearsal : Invocation → Performance)
    (execution : ExecutionId) (inputs : RunInputs) (requests : List Request) :
    (m.begin g execution inputs requests).Performing g n rehearsal inputs m.nextRun [] [] where
  composed := ⟨_, _, run?_begin g m execution inputs requests, Shared.start_eq_compose inputs⟩
  alone := by
    intro k task there
    obtain ⟨-, old⟩ | ⟨-, q, -, rfl⟩ := begun_task there
    · obtain done | harmless := rest.done k task old
      · exact .inl done
      · exact .inr (.inr ⟨kept.earlier old, harmless⟩)
    · exact .inr (.inl rfl)
  programs := by
    intro k task x there mine program
    obtain ⟨-, old⟩ | ⟨-, q, -, rfl⟩ := begun_task there
    · exact absurd mine (kept.earlier old)
    · rw [q.program?] at program
      cases program
  before _ := by
    refine ⟨rfl, fun _ => ?_⟩
    rw [published_eq (run?_begin g m execution inputs requests) (Shared.start_eq_compose inputs)]
    rfl
  performs := nofun

/-- **A function that performs has its performance in every run**, on a graph at rest, of whatever
is asked and in whatever order. -/
theorem performing_exec {rehearsal : Invocation → Performance} (now : Instant) (past : List Act)
    (rest : (session g now past).AtRest g) (execution : ExecutionId) (inputs : RunInputs)
    (requests : List Request) (schedule : List Move) (known : g.node? n.id = some n)
    (driven : n.isPortDriven = true) (rehearsed : Rehearsed g n rehearsal) :
    let before := session g now past
    let start := before.begin g execution inputs requests
    (start.exec g schedule).Routing g n before.nextTask (start.history g schedule)
        (start.portHistory g schedule) ∧
      (start.exec g schedule).Performing g n rehearsal inputs before.nextRun
        (start.history g schedule) (start.portHistory g schedule) := by
  intro before start
  have kept : before.Kept := kept_session now past
  suffices all : (start.exec g schedule).Routing g n before.nextTask (start.history g schedule)
        (start.portHistory g schedule) ∧ (start.exec g schedule).Kept ∧
      (start.exec g schedule).Shaped g ∧
      (start.exec g schedule).Performing g n rehearsal inputs before.nextRun
        (start.history g schedule) (start.portHistory g schedule)
    from ⟨all.1, all.2.2.2⟩
  refine port_induction (P := fun h p m => m.Routing g n before.nextTask h p ∧ m.Kept ∧
    m.Shaped g ∧ m.Performing g n rehearsal inputs before.nextRun h p) ?_ ?_ schedule [] [] start
    ⟨rest.routing execution inputs requests, kept.begin execution inputs requests,
      (shaped_session now past).begin execution inputs requests,
      rest.performing kept rehearsal execution inputs requests⟩
  · rintro h p m t r work work' e m' ⟨routing, kept, shaped, performing⟩ here rule after
    exact ⟨routing.step known driven here rule after, kept.step here rule after,
      shaped.step routing.memo.gated kept here rule after,
      performing.step routing.memo routing.account here rule after routing.onward shaped known
        rehearsed⟩
  · rintro h p m now' ⟨routing, kept, shaped, performing⟩
    exact ⟨routing.tick now', ⟨kept.running, kept.fanOuts⟩, ⟨shaped.calls, shaped.results⟩,
      { performing with }⟩

end Machine
end Flowgraph
