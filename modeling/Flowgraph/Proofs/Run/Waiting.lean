/- # Flowgraph.Proofs.Run.Waiting -- what a run waits for is there

A run may have any requests, and fires that come late.  A function then waits for the
targets of its port itself, work left behind outlives its function, and there may be several
launches at a time, or none.  Still, whatever a task waits for exists and is of the kind that
the task waits for, every node that is asked for is in the graph, and each launch has its
permits or has entries that hold them (`Provided`).

A call is never in the middle of a late fire: the queue of a node closes after its result is
stored, and a call whose function runs has no result yet.  So a call waits for nothing but a
gate and the calls of upstreams, even if ports lead back to where they come from.
-/
import Flowgraph.Proofs.Run.Fair
import Flowgraph.Proofs.Run.Progress

set_option autoImplicit false

namespace Flowgraph

/-! ## Kinds of work -/

/-- What a task is there for, wherever it stands. -/
inductive Kind where
  | call
  | fanOut
  | aside
  | entry
  | launch
  | settle
  deriving DecidableEq

namespace Work

def kind : Work → Kind
  | call _ _ _ => .call
  | fanOut _ _ _ => .fanOut
  | aside _ _ => .aside
  | entry _ _ _ => .entry
  | launch _ _ => .launch
  | settle _ => .settle

/-- The tasks that must be done before the work goes on.  Those that a call waits for are
among what it fetched. -/
def waitsFor : Work → List TaskId
  | .call _ _ _ => []
  | .aside _ x => x.awaiting
  | .fanOut _ _ waiting => waiting
  | .entry _ _ (.running c) => [c]
  | .launch _ (.join ts) => ts
  | .launch _ (.settle s) => [s]
  | .settle (.join batch) => batch
  | _ => []

/-- The kind of the tasks that the work waits for. -/
def waitsOn : Work → Kind
  | .launch _ (.settle _) => .settle
  | .launch _ _ => .entry
  | .settle _ => .fanOut
  | _ => .call

/-- The work concerns, and will concern, nodes of the graph. -/
def Knows (g : Graph) : Work → Prop
  | .call id _ _ | .aside id _ | .entry _ id _ => ∃ n, g.node? id = some n
  | .fanOut _ rounds _ => ∀ targets ∈ rounds, ∀ id ∈ targets, ∃ n, g.node? id = some n
  | .launch _ _ | .settle _ => True

end Work

theorem Task.knows_granted {g : Graph} (grant : Option (TaskId × Nat)) (k : TaskId) (task : Task) :
    (task.granted grant k).work.Knows g = task.work.Knows g :=
  view_granted (fun task => task.work.Knows g) (fun _ _ _ _ => rfl) grant k task

/-- Permits make no difference to what kind of task it is, and what it waits for. -/
theorem Task.waits_granted (grant : Option (TaskId × Nat)) (k : TaskId) (task : Task) :
    (task.granted grant k).work.kind = task.work.kind ∧
    (task.granted grant k).work.waitsFor = task.work.waitsFor ∧
    (task.granted grant k).work.waitsOn = task.work.waitsOn :=
  ⟨view_granted (fun task => task.work.kind) (fun _ _ _ _ => rfl) grant k task,
    view_granted (fun task => task.work.waitsFor) (fun _ _ _ stage => by cases stage <;> rfl)
      grant k task,
    view_granted (fun task => task.work.waitsOn) (fun _ _ _ stage => by cases stage <;> rfl)
      grant k task⟩

/-- What lies behind a node is in the graph. -/
theorem Wired.rounds_known {cs : List Connection} {g : Graph} (wired : Wired cs g.nodes) {n : Node}
    (there : n ∈ g.nodes) {pending : List String} {targets : List NodeId}
    (round : targets ∈ Machine.rounds n pending) {id : NodeId} (target : id ∈ targets) :
    ∃ n, g.node? id = some n := by
  unfold Machine.rounds at round
  split at round
  · obtain ⟨port, -, rfl⟩ := List.mem_map.1 round
    exact wired.targets_known there target
  · cases List.mem_singleton.1 round
    exact wired.downstream_known there target

namespace Machine

variable {g : Graph} {m m' : Machine} {t k w first : TaskId} {r j : RunId} {n : Node} {id : NodeId}
  {stage : Stage} {x x' : Execution} {work work' : Work} {e : Effect} {h : List Deed}

/-! ## What a step does to waiting -/

theorem Transition.kind (rule : Transition g m t r work work' e) : work'.kind = work.kind := by
  cases rule <;> rfl

/-- A task stays the kind of task that it is. -/
theorem After.kind (after : After m t r work' e m') (here : m.tasks[t]? = some ⟨r, work⟩)
    (rule : Transition g m t r work work' e) {task : Task} (there : m.tasks[k]? = some task) :
    ∃ task', m'.tasks[k]? = some task' ∧ task'.work.kind = task.work.kind := by
  by_cases mine : k = t
  · subst mine
    cases here.symm.trans there
    exact ⟨_, after.here, rule.kind⟩
  · refine ⟨task.granted e.grant k, ?_, (Task.waits_granted e.grant k task).1⟩
    rw [after.tasks, if_neg mine, if_pos (lt_size_of_tasks there), there]
    rfl

theorem ExecutionStep.awaiting (step : ExecutionStep m r n x x' e) (waits : k ∈ x'.awaiting) :
    ∃ i id, k = m.tasks.size + i ∧ e.spawned[i]? = some (m.freshCall r id) := by
  cases step with
  | @route port next =>
      obtain ⟨i, small, rfl⟩ := List.mem_range'.1 waits
      exact ⟨i, _, by rw [Nat.one_mul], by
        rw [List.getElem?_map, List.getElem?_eq_getElem small]
        rfl⟩
  | _ => cases waits

/-- Work waits for what it waited for before, for tasks that it has just started, or for the
fan-out tasks that it has taken off the run's list. -/
theorem Transition.waitsFor (rule : Transition g m t r work work' e)
    (waits : k ∈ work'.waitsFor) :
    (k ∈ work.waitsFor ∧ work'.waitsOn = work.waitsOn) ∨
    (∃ i task, k = m.tasks.size + i ∧ e.spawned[i]? = some task ∧
      task.work.kind = work'.waitsOn) ∨
    ∃ run, m.run? r = some run ∧ k ∈ run.fanOut ∧ work'.waitsOn = .fanOut := by
  cases rule with
  | call => cases waits
  | aside known step =>
      obtain ⟨i, id, rfl, new⟩ := step.awaiting waits
      exact .inr (.inl ⟨i, _, rfl, new, rfl⟩)
  | @round id targets rest =>
      obtain ⟨i, small, rfl⟩ := List.mem_range'.1 waits
      refine .inr (.inl ⟨i, m.freshCall r targets[i], by rw [Nat.one_mul], ?_, rfl⟩)
      rw [List.getElem?_map, List.getElem?_eq_getElem small]
      rfl
  | permit =>
      cases List.mem_singleton.1 waits
      exact .inr (.inl ⟨0, _, rfl, rfl, rfl⟩)
  | entries =>
      obtain ⟨i, small, rfl⟩ := List.mem_range'.1 waits
      refine .inr (.inl ⟨i, ⟨r, .entry t g.entries[i] .waiting⟩, by rw [Nat.one_mul], ?_, rfl⟩)
      rw [List.getElem?_map, List.getElem?_eq_getElem small]
      rfl
  | joined =>
      cases List.mem_singleton.1 waits
      exact .inr (.inl ⟨0, _, rfl, rfl, rfl⟩)
  | take running => exact .inr (.inr ⟨_, running, waits, rfl⟩)
  | _ => cases waits

/-- What is started waits for nothing yet. -/
theorem Transition.spawned_waitsFor (rule : Transition g m t r work work' e) {index : Nat}
    {task : Task} (new : e.spawned[index]? = some task) : task.work.waitsFor = [] := by
  cases rule.spawnedAt new <;> rfl

theorem Transition.knows {cs : List Connection} (wired : Wired cs g.nodes)
    (rule : Transition g m t r work work' e) (knows : work.Knows g) :
    work'.Knows g ∧ ∀ task ∈ e.spawned, task.work.Knows g := by
  have execution {id : NodeId} {n : Node} {x x' : Execution} (known : g.node? id = some n)
      (step : ExecutionStep m r n x x' e) : ∀ task ∈ e.spawned, task.work.Knows g := by
    have there := Graph.mem_of_node? known
    cases step with
    | leave =>
        intro task new
        cases List.mem_singleton.1 new
        exact ⟨n, wired.node? there⟩
    | route =>
        intro task new
        obtain ⟨target, behind, rfl⟩ := List.mem_map.1 new
        exact wired.targets_known there behind
    | _ => simp
  cases rule with
  | call known step =>
      refine ⟨knows, ?_⟩
      cases step with
      | work step => exact execution known step
      | pull asked =>
          intro task new
          cases List.mem_singleton.1 new
          exact Option.isSome_iff_exists.1 asked
      | branch =>
          intro task new
          cases List.mem_singleton.1 new
          exact fun targets round id target =>
            wired.rounds_known (Graph.mem_of_node? known) round target
      | _ => simp
  | aside known step => exact ⟨knows, execution known step⟩
  | round =>
      refine ⟨fun targets later => knows targets (List.mem_cons_of_mem _ later), fun task new => ?_⟩
      obtain ⟨target, member, rfl⟩ := List.mem_map.1 new
      exact knows _ List.mem_cons_self target member
  | permit =>
      refine ⟨knows, fun task new => ?_⟩
      cases List.mem_singleton.1 new
      exact knows
  | entries =>
      refine ⟨trivial, fun task new => ?_⟩
      obtain ⟨id, entry, rfl⟩ := List.mem_map.1 new
      exact wired.entry_known entry
  | joined =>
      refine ⟨trivial, fun task new => ?_⟩
      cases List.mem_singleton.1 new
      trivial
  | _ => exact ⟨knows, by simp⟩

/-! ## The invariant -/

/-- A task of a kind is there, among those from `first` on. -/
def Present (m : Machine) (first k : TaskId) (kind : Kind) : Prop :=
  first ≤ k ∧ ∃ task, m.tasks[k]? = some task ∧ task.work.kind = kind

/-- Whatever the run `r` waits for is there to be waited for, and no permit is lost. -/
structure Provided (g : Graph) (first : TaskId) (r : RunId) (m : Machine) : Prop where
  running : ∃ run, m.run? r = some run
  knows : ∀ {k : TaskId} {task : Task}, first ≤ k → m.tasks[k]? = some task → task.work.Knows g
  prompt : ∀ {k j id received x}, first ≤ k → m.Calling j k id (.run received x) → x.Prompt
  waited : ∀ {w k : TaskId} {task : Task}, first ≤ w → m.tasks[w]? = some task →
    k ∈ task.work.waitsFor → m.Present first k task.work.waitsOn
  tracked : ∀ {run}, m.run? r = some run → ∀ f ∈ run.fanOut, m.Present first f .fanOut
  launched : ∀ {k j launch id stage}, first ≤ k →
    m.tasks[k]? = some ⟨j, .entry launch id stage⟩ → m.Present first launch .launch
  permits : ∀ {k j n stage}, first ≤ k → m.tasks[k]? = some ⟨j, .launch n stage⟩ → m.Balanced g k

section Step

variable (here : m.tasks[t]? = some ⟨r, work⟩) (rule : Transition g m t r work work' e)
  (after : After m t r work' e m')
include here rule after

theorem Present.step {kind : Kind} (present : m.Present first k kind) :
    m'.Present first k kind := by
  obtain ⟨recent, task, there, rfl⟩ := present
  exact ⟨recent, after.kind here rule there⟩

end Step

namespace Provided

variable {cs : List Connection} (wired : Wired cs g.nodes) (provided : m.Provided g first r)
  (traced : m.Traced first r h) (memo : m.Memo first) (here : m.tasks[t]? = some ⟨j, work⟩)
  (rule : Transition g m t j work work' e) (after : After m t j work' e m')
include provided traced here rule after

omit provided traced here rule in
theorem step_running (running : ∃ run, m.run? r = some run) : ∃ run, m'.run? r = some run := by
  obtain ⟨run, running⟩ := running
  rw [after.run, running]
  split <;> exact ⟨_, rfl⟩

include memo in
theorem step_waited {task : Task}
    (recent : first ≤ w) (there : m'.tasks[w]? = some task) (waits : k ∈ task.work.waitsFor) :
    m'.Present first k task.work.waitsOn := by
  obtain ⟨rfl, rfl⟩ | ⟨-, old, was, rfl⟩ | ⟨-, new⟩ := after.cases there
  · obtain ⟨before, same⟩ | ⟨i, task, rfl, new, kind⟩ | ⟨run, running, tracked, kind⟩ :=
      rule.waitsFor waits
    · rw [show Work.waitsOn work' = work.waitsOn from same]
      exact (provided.waited recent here before).step here rule after
    · exact ⟨Nat.le_trans memo.bound (Nat.le_add_right _ _), task, after.started here new, kind⟩
    · rw [show Work.waitsOn work' = .fanOut from kind]
      rw [traced.current here rule] at running
      exact (provided.tracked running k tracked).step here rule after
  · obtain ⟨-, same, kind⟩ := Task.waits_granted e.grant w old
    rw [kind]
    exact (provided.waited recent was (same ▸ waits)).step here rule after
  · rw [rule.spawned_waitsFor new] at waits
    cases waits

include wired in
theorem step_knows {task : Task} (recent : first ≤ k) (there : m'.tasks[k]? = some task) :
    task.work.Knows g := by
  have mine := rule.knows wired (provided.knows (traced.recent here rule) here)
  obtain ⟨rfl, rfl⟩ | ⟨-, old, was, rfl⟩ | ⟨-, new⟩ := after.cases there
  · exact mine.1
  · rw [Task.knows_granted]
    exact provided.knows recent was
  · exact mine.2 task (List.mem_of_getElem? new)

include memo in
/-- The queue of a node is open as long as a call of it has its function run. -/
theorem step_prompt {i : RunId} {received : Document} (recent : first ≤ k)
    (calling : m'.Calling i k id (.run received x)) : x.Prompt := by
  obtain ⟨rfl, rfl, began, rfl⟩ | ⟨-, there⟩ | ⟨-, none, -⟩ := after.calling_cases rule calling
  · cases rule with
    | call known step =>
        have whole := Transition.call known step
        cases step with
        | invoke => trivial
        | work step =>
            have stands : m.Calling i k id (.run received _) := ⟨_, here⟩
            have onTime : OnTime e.deeds := by
              intro id' port deed
              obtain ⟨shut, x', program⟩ := whole.of_late deed
              cases program
              obtain ⟨d, has⟩ := traced.closed shut
              cases (memo.unset stands rfl).symm.trans has
            exact (step.prompt onTime (provided.prompt recent stands)).1
  · exact provided.prompt recent there
  · cases none

omit traced in
include memo in
theorem step_tracked {run : RunRecord} (running : m'.run? r = some run) :
    ∀ f ∈ run.fanOut, m'.Present first f .fanOut := by
  intro f member
  obtain ⟨old, running, tracked⟩ | ⟨rfl, i, id, rounds, new⟩ :=
    after.tracked_cases here rule running member
  · exact (provided.tracked running f tracked).step here rule after
  · exact ⟨memo.bound, _, new, rfl⟩

theorem step_launched {i : RunId} {launch : TaskId} {stage : EntryStage} (recent : first ≤ k)
    (there : m'.tasks[k]? = some ⟨i, .entry launch id stage⟩) :
    m'.Present first launch .launch := by
  have kept : ∀ {l}, m.Present first l .launch → m'.Present first l .launch :=
    fun present => present.step here rule after
  obtain ⟨rfl, same⟩ | ⟨-, old⟩ | ⟨-, new⟩ := after.plain_cases rfl there
  · cases same
    cases rule <;> exact kept (provided.launched recent here)
  · exact kept (provided.launched recent old)
  · obtain ⟨rfl, permits, rfl, -⟩ := rule.of_entry new
    exact kept ⟨traced.recent here rule, _, here, rfl⟩

omit traced in
theorem step_permits {i : RunId} {n : Nat} {stage : LaunchStage} (recent : first ≤ k)
    (there : m'.tasks[k]? = some ⟨i, .launch n stage⟩) : m'.Balanced g k := by
  have before : ∀ {i n stage}, m.tasks[k]? = some ⟨i, .launch n stage⟩ → m'.Balanced g k :=
    fun was => (provided.permits recent was).step here rule after
  obtain ⟨rfl, rfl, rfl⟩ | ⟨-, n', was⟩ | ⟨-, new⟩ := after.launch_cases there
  · cases rule <;> exact before here
  · exact before was
  · cases rule.spawnedAt new

include wired memo in
/-- **Every step leaves the run provided.** -/
theorem step : m'.Provided g first r where
  running := step_running after provided.running
  knows := provided.step_knows wired traced here rule after
  prompt := provided.step_prompt traced memo here rule after
  waited := provided.step_waited traced memo here rule after
  tracked := provided.step_tracked memo here rule after
  launched := provided.step_launched traced here rule after
  permits := provided.step_permits here rule after

end Provided

/-! ## A run from its beginning -/

/-- All that is kept in a run, whatever was asked of it. -/
structure Sustained (g : Graph) (first : TaskId) (r : RunId) (h : List Deed) (m : Machine) :
    Prop where
  memo : m.Memo first
  feeding : m.Feeding g first
  traced : m.Traced first r h
  provided : m.Provided g first r

theorem Sustained.step {cs : List Connection} (wired : Wired cs g.nodes)
    (sustained : m.Sustained g first r h) (here : m.tasks[t]? = some ⟨j, work⟩)
    (rule : Transition g m t j work work' e) (after : After m t j work' e m') :
    m'.Sustained g first r (h ++ e.deeds) where
  memo := sustained.memo.step here rule after
  feeding := sustained.feeding.step sustained.memo here rule after
  traced := sustained.traced.step sustained.memo here rule after
  provided := sustained.provided.step wired sustained.traced sustained.memo here rule after

theorem Sustained.tick (sustained : m.Sustained g first r h) (now : Instant) :
    Sustained g first r h { m with now := now } where
  memo := { sustained.memo with }
  feeding := sustained.feeding.tick now
  traced := { sustained.traced with }
  provided := { sustained.provided with }

section Begin

variable {execution : ExecutionId} {inputs : RunInputs} {requests : List Request}

theorem Still.provided (still : m.Still)
    (known : ∀ id, .result id ∈ requests → (g.node? id).isSome = true) :
    (m.begin g execution inputs requests).Provided g m.nextTask m.nextRun := by
  have asked {k : TaskId} {task : Task} (recent : m.nextTask ≤ k)
      (here : (m.begin g execution inputs requests).tasks[k]? = some task) :
      ∃ q ∈ requests, task = ⟨m.nextRun, q.work g m.now⟩ := by
    obtain ⟨old, -⟩ | ⟨-, found⟩ := begun_task here
    · exact absurd old (Nat.not_lt_of_le recent)
    · exact found
  refine ⟨⟨_, run?_begin g m execution inputs requests⟩, ?_, ?_, ?_, ?_, ?_, ?_⟩
  · intro k task recent here
    obtain ⟨q, member, rfl⟩ := asked recent here
    cases q with
    | result id => exact Option.isSome_iff_exists.1 (known id member)
    | launch | settle => trivial
  · rintro k j id received x recent ⟨began, here⟩
    obtain ⟨q, -, same⟩ := asked recent here
    cases q <;> cases same
  · intro w k task recent here waits
    obtain ⟨q, -, rfl⟩ := asked recent here
    cases q <;> cases waits
  · intro run running f member
    cases (run?_begin g m execution inputs requests).symm.trans running
    cases member
  · intro k j launch id stage recent here
    obtain ⟨q, -, same⟩ := asked recent here
    cases q <;> cases same
  · intro k j n stage recent here
    obtain ⟨q, -, same⟩ := asked recent here
    cases q <;> cases same
    exact still.atRest.balanced here

/-- **Whatever is asked of a run, it is sustained.** -/
theorem Still.sustained {cs : List Connection} (still : m.Still) (wired : Wired cs g.nodes)
    (known : ∀ id, .result id ∈ requests → (g.node? id).isSome = true) (schedule : List Move) :
    ((m.begin g execution inputs requests).exec g schedule).Sustained g m.nextTask m.nextRun
      ((m.begin g execution inputs requests).history g schedule) := by
  refine run_induction (P := fun h m' => m'.Sustained g m.nextTask m.nextRun h) schedule
    (fun h m' t j work work' e m'' before here rule after => before.step wired here rule after)
    (fun h m' now _ before => before.tick now) ?_
  exact ⟨still.unoccupied.memo execution inputs requests,
    still.unoccupied.feeding execution inputs requests, still.traced execution inputs requests,
    still.provided known⟩

end Begin

end Machine
end Flowgraph
