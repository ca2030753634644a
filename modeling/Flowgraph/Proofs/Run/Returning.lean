/- # Flowgraph.Proofs.Run.Returning -- a run without waiting cycles comes to its end

Take a graph in which no cycle consists of links that wait, a machine on which nothing is at
work, and whatever requests.  While some task is not done, some task can take a step
(`Sustained.goes_on`): if none could, the calls would be done along the links that wait, and
with them everything that waits for calls.  Work that functions left behind is not needed for
this; the rest of a run never waits for it.

Every step leaves less to do, so under no schedule do the steps go on for ever, and where all
tasks get their turns the run comes to a moment at which nothing is at work any more.
-/
import Flowgraph.Proofs.Run.Contained
import Flowgraph.Proofs.Run.Waiting

set_option autoImplicit false

namespace Flowgraph

namespace Machine

variable {g : Graph} {m m' : Machine} {t k first launch : TaskId} {r j : RunId} {n : Node}
  {id : NodeId} {stage : Stage} {task : Task} {h : List Deed}

/-! ## Where nothing moves -/

/-- Work that was left behind is stuck when it is done, or when what it waits for is not. -/
theorem aside_stuck {run : RunRecord} {x : Execution} (here : m.tasks[t]? = some ⟨r, .aside id x⟩)
    (known : g.node? id = some n) (running : m.run? r = some run) (stuck : m.step g t = none)
    (all : m.allDone x.awaiting = true) : m.isDone t = true := by
  have stopped : m.stepExecution r n x = none := by simpa [step, here, known] using stuck
  cases x with
  | active p =>
      have prompt : (Execution.active p).Prompt := trivial
      obtain ⟨outcome, same⟩ := execution_stuck running prompt stopped
      cases same
      simp [isDone, here, Task.isDone]
  | fired port queued next => cases queued <;> cases stopped
  | routed ts next => simp [stepExecution, show m.allDone ts = true from all] at stopped

namespace Sustained

variable (sustained : m.Sustained g first r h)
include sustained

theorem running (recent : first ≤ k) (here : m.tasks[k]? = some task) :
    ∃ run, m.run? task.run = some run := by
  rw [sustained.traced.own recent here]
  exact sustained.provided.running

/-- All that a task waits for is done if every task of the kind that it waits for is. -/
theorem waited_done (recent : first ≤ t) (here : m.tasks[t]? = some task)
    (served : ∀ {k}, m.Present first k task.work.waitsOn → m.isDone k = true) :
    m.allDone task.work.waitsFor = true :=
  List.all_eq_true.2 fun _ waits => served (sustained.provided.waited recent here waits)

section Stuck

-- nothing moves but work that functions left behind
variable (stuck : ∀ {k : TaskId} {task : Task}, m.tasks[k]? = some task → task.isAside = false →
  m.step g k = none)
include stuck

theorem stuck_call (acyclic : g.Acyclic) (present : m.Present first k .call) :
    m.isDone k = true := by
  have calls : ∀ {j k id stage}, first ≤ k → m.Calling j k id stage → ∃ d, stage = .done d := by
    intro j k id stage recent calling
    have known : ∀ {j k id stage}, first ≤ k → m.Calling j k id stage → ∃ n, g.node? id = some n :=
      fun recent ⟨_, here⟩ => sustained.provided.knows recent here
    refine sustained.memo.calls_done sustained.feeding (fun _ _ => acyclic _)
      (fun recent calling => Option.isSome_iff_exists.2 (known recent calling)) ?_ id recent calling
    intro j k id stage recent calling
    obtain ⟨n, there⟩ := known recent calling
    have prompt : ∀ {received x}, stage = .run received x → x.Prompt := by
      rintro received x rfl
      exact sustained.provided.prompt recent calling
    obtain ⟨began, here⟩ := calling
    obtain ⟨run, running⟩ := sustained.running recent here
    refine call_stuck here there running ?_ (stuck here rfl)
    cases stage with
    | run received x => exact prompt rfl
    | _ => trivial
  obtain ⟨recent, ⟨j, work⟩, here, kind⟩ := present
  cases work with
  | call id began stage =>
      obtain ⟨d, rfl⟩ := calls recent ⟨began, here⟩
      simp [isDone, here, Task.isDone]
  | _ => cases kind

section Called

variable (called : ∀ {k}, m.Present first k .call → m.isDone k = true)
include called

theorem stuck_fanOut (present : m.Present first k .fanOut) : m.isDone k = true := by
  obtain ⟨recent, ⟨j, work⟩, here, kind⟩ := present
  cases work with
  | fanOut id rounds waiting =>
      exact fanOut_stuck here (stuck here rfl) (sustained.waited_done recent here called)
  | _ => cases kind

/-- When nothing moves, no permit is held. -/
theorem free_permits (present : m.Present first launch .launch) :
    m.permits launch = g.maxEntries := by
  have none : m.holdersOf launch = 0 := by
    refine holdersOf_eq_zero fun k j id c here => ?_
    by_cases past : k < first
    · cases sustained.traced.past past here
    · have served := sustained.waited_done (Nat.le_of_not_lt past) here called
      obtain same | ⟨same, -⟩ | ⟨c', same, undone⟩ := entry_stuck here (stuck here rfl)
      · cases same
      · cases same
      · cases same
        simp [Work.waitsFor, allDone, undone] at served
  obtain ⟨recent, ⟨j, work⟩, here, kind⟩ := present
  cases work with
  | launch n stage =>
      obtain ⟨_, _, _, there, balance⟩ := sustained.provided.permits recent here
      rw [permits_of_launchAt there, ← balance, none, Nat.add_zero]
  | _ => cases kind

theorem stuck_entry (positive : 0 < g.maxEntries) (present : m.Present first k .entry) :
    m.isDone k = true := by
  obtain ⟨recent, ⟨j, work⟩, here, kind⟩ := present
  cases work with
  | entry launch id stage =>
      obtain rfl | ⟨-, none⟩ | ⟨c, rfl, undone⟩ := entry_stuck here (stuck here rfl)
      · simp [isDone, here, Task.isDone]
      · rw [sustained.free_permits stuck called (sustained.provided.launched recent here)] at none
        exact absurd none (Nat.ne_of_gt positive)
      · have served := sustained.waited_done recent here called
        simp [Work.waitsFor, allDone, undone] at served
  | _ => cases kind

theorem stuck_settle (present : m.Present first k .settle) : m.isDone k = true := by
  obtain ⟨recent, ⟨j, work⟩, here, kind⟩ := present
  cases work with
  | settle stage =>
      obtain ⟨run, running⟩ := sustained.running recent here
      obtain rfl | ⟨batch, rfl, undone⟩ := settle_stuck here running (stuck here rfl)
      · simp [isDone, here, Task.isDone]
      · have served := sustained.waited_done recent here (sustained.stuck_fanOut stuck called)
        cases undone.symm.trans served
  | _ => cases kind

theorem stuck_launch (positive : 0 < g.maxEntries) (present : m.Present first k .launch) :
    m.isDone k = true := by
  obtain ⟨recent, ⟨j, work⟩, here, kind⟩ := present
  cases work with
  | launch n stage =>
      obtain rfl | ⟨ts, rfl, undone⟩ | ⟨s, rfl, undone⟩ := launch_stuck here (stuck here rfl)
      · simp [isDone, here, Task.isDone]
      · have served := sustained.waited_done recent here
          (sustained.stuck_entry stuck called positive)
        cases undone.symm.trans served
      · have served := sustained.waited_done recent here (sustained.stuck_settle stuck called)
        simp [Work.waitsFor, allDone, undone] at served
  | _ => cases kind

end Called

/-- Where nothing moves but work that was left behind, everything else is done. -/
theorem stuck_done (acyclic : g.Acyclic) (positive : 0 < g.maxEntries) (recent : first ≤ k)
    (here : m.tasks[k]? = some task) (plain : task.isAside = false) : m.isDone k = true := by
  have called : ∀ {k}, m.Present first k .call → m.isDone k = true :=
    sustained.stuck_call stuck acyclic
  obtain ⟨j, work⟩ := task
  have present : m.Present first k work.kind := ⟨recent, _, here, rfl⟩
  cases work with
  | call => exact called present
  | fanOut => exact sustained.stuck_fanOut stuck called present
  | entry => exact sustained.stuck_entry stuck called positive present
  | settle => exact sustained.stuck_settle stuck called present
  | launch => exact sustained.stuck_launch stuck called positive present
  | aside => cases plain

end Stuck

/-- **While a task is not done, some task can take a step**, and not only work that functions
left behind, unless the task is such work itself. -/
theorem goes_on (acyclic : g.Acyclic) (positive : 0 < g.maxEntries)
    (here : m.tasks[t]? = some task) (undone : task.isDone = false) :
    ∃ k other, m.tasks[k]? = some other ∧ (other.isAside = true → task.isAside = true) ∧
      (m.step g k).isSome = true := by
  by_contra idle
  have halted : ∀ {k other}, m.tasks[k]? = some other →
      (other.isAside = true → task.isAside = true) → m.step g k = none := by
    intro k other there kind
    by_contra steps
    exact idle ⟨k, other, there, kind, Option.isSome_iff_ne_none.2 steps⟩
  have plain : ∀ {k other}, m.tasks[k]? = some other → other.isAside = false →
      m.step g k = none := by
    intro k other there plain
    exact halted there fun aside => by
      rw [plain] at aside
      cases aside
  have recent : first ≤ t := by
    by_contra past
    cases undone.symm.trans (sustained.traced.past (Nat.lt_of_not_le past) here)
  have done : m.isDone t = true := by
    cases aside : task.isAside with
    | false => exact sustained.stuck_done plain acyclic positive recent here aside
    | true =>
        obtain ⟨j, work⟩ := task
        cases work with
        | aside id x =>
            obtain ⟨n, known⟩ := sustained.provided.knows recent here
            obtain ⟨run, running⟩ := sustained.running recent here
            exact aside_stuck here known running (halted here fun _ => rfl)
              (sustained.waited_done recent here (sustained.stuck_call plain acyclic))
        | _ => cases aside
  simp [isDone, here, undone] at done

/-- Where no task can take a step, nothing is at work any more. -/
theorem still (acyclic : g.Acyclic) (positive : 0 < g.maxEntries)
    (stuck : ∀ t, m.step g t = none) : m.Still := by
  have done : ∀ (t : TaskId) (task : Task), m.tasks[t]? = some task → task.isDone = true := by
    intro t task here
    by_contra undone
    obtain ⟨k, -, -, -, steps⟩ :=
      sustained.goes_on acyclic positive here (by simpa using undone)
    rw [stuck k] at steps
    cases steps
  exact Held.still (fun _ _ => sustained.memo.holder) done

end Sustained

/-! ## Every run -/

end Machine

/-! ## Ports that lead back -/

namespace Sample

/-- The entry `1` waits for `3`, and the entry `4` for `1`.  The port of `2` leads to `2` itself, to
`3`, and to the entry `4`. -/
def loop : Workflow where
  id := ⟨106⟩
  name := "loop"
  description := none
  nodes := [.new ⟨1⟩ startKey, .new ⟨2⟩ "echo", .new ⟨3⟩ "plain", .new ⟨4⟩ startKey]
  connections := [⟨⟨1⟩, none, ⟨2⟩⟩, ⟨⟨1⟩, none, ⟨4⟩⟩, ⟨⟨3⟩, none, ⟨1⟩⟩, ⟨⟨2⟩, some "again", ⟨2⟩⟩,
    ⟨⟨2⟩, some "again", ⟨3⟩⟩, ⟨⟨2⟩, some "again", ⟨4⟩⟩]

end Sample

namespace Machine

open Sample

end Machine
end Flowgraph
