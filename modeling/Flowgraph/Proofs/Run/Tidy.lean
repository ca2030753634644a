/- # Flowgraph.Proofs.Run.Tidy -- functions that leave nothing behind

Work that a function leaves behind goes on by itself.  A run is tidy when such work is
done as soon as the function of its node has ended.  In a tidy run every port is fired
on time (`Traced.onTime`): a queue is closed after the result is stored, so after the
function has ended, and then no program of the node is left that could fire.

A function that leaves no work behind at all keeps every run tidy
(`Still.tidy_of_leaveless`).
-/
import Flowgraph.Proofs.Run.Fires

set_option autoImplicit false

namespace Flowgraph

namespace Machine

variable {g : Graph} {m m' : Machine} {t k first : TaskId} {r j : RunId} {n : Node} {id : NodeId}
  {x x' : Execution} {work work' : Work} {e : Effect} {h : List Deed}

/-- No task is at work on the graph, not even one that a function left behind. -/
structure Still (m : Machine) : Prop where
  done : ∀ (t : TaskId) (task : Task), m.tasks[t]? = some task → task.isDone = true
  free : ∀ id, (m.cell id).gate = none

theorem Still.atRest (still : m.Still) : m.AtRest g where
  done t task here := .inl (still.done t task here)
  free := still.free

theorem Still.unoccupied (still : m.Still) : m.Unoccupied where
  done _ k _ _ := fun ⟨_, here⟩ => Task.answered (still.done k _ here)
  free := still.free

/-- When all tasks are done, nobody is inside a gate. -/
theorem Held.still (held : m.Held)
    (done : ∀ (t : TaskId) (task : Task), m.tasks[t]? = some task → task.isDone = true) :
    m.Still := by
  refine ⟨done, fun id => ?_⟩
  by_contra taken
  obtain ⟨k, holds⟩ := Option.ne_none_iff_exists'.1 taken
  obtain ⟨r, stage, ⟨began, here⟩, inside⟩ := held id k holds
  obtain ⟨d, rfl⟩ := Task.answered (done k _ here)
  cases inside

theorem still_new (now : Instant) : (Machine.new now).Still where
  done t task here := by simp [new] at here
  free _ := rfl

/-- Work that the function of a node has left behind is done once the function has ended. -/
def Tidy (h : List Deed) (m : Machine) : Prop :=
  ∀ {id k outcome t r x}, .ended id k outcome ∈ h → m.tasks[t]? = some ⟨r, .aside id x⟩ →
    m.isDone t = true

/-! ## Where programs come from -/

/-- A port that is fired too late is fired by a program of the node when the queue is closed. -/
theorem Transition.of_late (rule : Transition g m t r work work' e) {port : String}
    (deed : .fired id port false ∈ e.deeds) :
    (m.cell id).queue.closed = true ∧ ∃ x, work.program? = some (id, x) := by
  have execution {n : Node} {x x' : Execution} (step : ExecutionStep m r n x x' e) :
      n.id = id ∧ (m.cell id).queue.closed = true := by
    cases step with
    | late driven declared closed =>
        cases List.mem_singleton.1 deed
        exact ⟨rfl, closed⟩
    | queue => cases List.mem_singleton.1 deed
    | _ => simp at deed
  cases rule with
  | call known step =>
      cases step with
      | work step =>
          obtain ⟨rfl, closed⟩ := execution step
          cases Graph.id_of_node? known
          exact ⟨closed, _, rfl⟩
      | invoke | finish | store | branch => cases List.mem_singleton.1 deed
      | _ => simp at deed
  | aside known step =>
      obtain ⟨rfl, closed⟩ := execution step
      cases Graph.id_of_node? known
      exact ⟨closed, _, rfl⟩
  | _ => simp at deed

/-- The tasks of the run `r` are those from `first` on, their programs belong to functions that
were called, and a queue that is closed belongs to a node with a result. -/
structure Traced (first : TaskId) (r : RunId) (h : List Deed) (m : Machine) : Prop where
  past : ∀ {t : TaskId} {task : Task}, t < first → m.tasks[t]? = some task → task.isDone = true
  own : ∀ {t : TaskId} {task : Task}, first ≤ t → m.tasks[t]? = some task → task.run = r
  program : ∀ {t : TaskId} {task : Task} {id x}, first ≤ t → m.tasks[t]? = some task →
    task.work.program? = some (id, x) → m.Begun id ∧ ∃ k i, .invoked id k i ∈ h
  called : ∀ {id k i}, .invoked id k i ∈ h →
    (∃ r received x, m.Calling r k id (.run received x)) ∨ ∃ outcome, .ended id k outcome ∈ h
  closed : ∀ {id}, (m.cell id).queue.closed = true → ∃ d, (m.cell id).result = some d

namespace Traced

variable (traced : m.Traced first r h) (memo : m.Memo first) (here : m.tasks[t]? = some ⟨j, work⟩)
  (rule : Transition g m t j work work' e) (after : After m t j work' e m')
include traced here rule

/-- A task that goes on is one of this run. -/
theorem recent : first ≤ t := by
  by_contra past
  cases rule.not_done.symm.trans (traced.past (Nat.lt_of_not_le past) here)

theorem current : j = r := traced.own (traced.recent here rule) here

include after

theorem step_own {task : Task} (later : first ≤ k) (there : m'.tasks[k]? = some task) :
    task.run = r := by
  have mine : j = r := traced.current here rule
  obtain ⟨-, rfl⟩ | ⟨-, before, was, rfl⟩ | ⟨-, new⟩ := after.cases there
  · exact mine
  · rw [Task.granted_run]
    exact traced.own later was
  · cases rule.spawnedAt new <;> exact mine

theorem step_called {i : Invocation} (deed : .invoked id k i ∈ h ++ e.deeds) :
    (∃ r received x, m'.Calling r k id (.run received x)) ∨
      ∃ outcome, .ended id k outcome ∈ h ++ e.deeds := by
  obtain old | new := List.mem_append.1 deed
  · obtain ⟨i, received, x, calling⟩ | ⟨outcome, ended⟩ := traced.called old
    · obtain ⟨-, stays⟩ | ⟨rfl, rfl, n, _, stage', -, rfl, step, stands⟩ :=
        calling.moved here rule after
      · exact .inl ⟨i, received, x, stays⟩
      · cases step with
        | finish => exact .inr ⟨_, List.mem_append_right _ (List.mem_singleton_self _)⟩
        | work step => exact .inl ⟨_, _, _, stands⟩
    · exact .inr ⟨outcome, List.mem_append_left _ ended⟩
  · obtain ⟨rfl, began, began', received, _, x, -, rfl⟩ := rule.of_invoked new
    exact .inl ⟨j, received, x, began', after.here⟩

include memo

theorem step_program {task : Task} (later : first ≤ k) (there : m'.tasks[k]? = some task)
    (program : task.work.program? = some (id, x)) :
    m'.Begun id ∧ ∃ k i, .invoked id k i ∈ h ++ e.deeds := by
  have kept : (m.Begun id ∧ ∃ k i, .invoked id k i ∈ h) →
      m'.Begun id ∧ ∃ k i, .invoked id k i ∈ h ++ e.deeds :=
    fun ⟨begun, k, i, invoked⟩ =>
      ⟨begun.step memo here rule after, k, i, List.mem_append_left _ invoked⟩
  obtain ⟨rfl, rfl⟩ | ⟨-, before, was, rfl⟩ | ⟨-, new⟩ := after.cases there
  · obtain ⟨i, invoked⟩ | ⟨x₀, n, had, -⟩ := rule.program program
    · obtain ⟨-, began, began', received, _, x', rfl, rfl⟩ := rule.of_invoked invoked
      exact ⟨.inr ⟨j, k, _, ⟨began', after.here⟩, rfl⟩, k, i, List.mem_append_right _ invoked⟩
    · exact kept (traced.program later here had)
  · rw [(Task.granted_idle e.grant before id).2.2] at program
    exact kept (traced.program later was program)
  · obtain ⟨-, x₀, -, n, had, -⟩ := rule.left (List.mem_of_getElem? new) program
    exact kept (traced.program (traced.recent here rule) here had)

omit traced in
theorem step_past {task : Task} (past : ∀ {t : TaskId} {task : Task}, t < first →
      m.tasks[t]? = some task → task.isDone = true) (early : k < first)
    (there : m'.tasks[k]? = some task) : task.isDone = true := by
  obtain ⟨rfl, -⟩ | ⟨-, before, was, rfl⟩ | ⟨late, -⟩ := after.cases there
  · cases rule.not_done.symm.trans (past early here)
  · rw [Task.isDone_granted]
    exact past early was
  · exact absurd early (Nat.not_lt_of_le (Nat.le_trans memo.bound late))

theorem step_closed (shut : (m'.cell id).queue.closed = true) :
    ∃ d, (m'.cell id).result = some d := by
  have kept : (∃ d, (m.cell id).result = some d) → ∃ d, (m'.cell id).result = some d :=
    fun ⟨d, has⟩ => ⟨d, memo.result_kept here rule after has⟩
  rw [after.cell] at shut
  obtain ⟨same, -⟩ | ⟨-, -, began, began', d, rfl, -⟩ := rule.queue id
  · rw [same] at shut
    exact kept (traced.closed shut)
  · exact kept ⟨d, memo.known (memo.recent here rule) ⟨began, here⟩ rfl⟩

theorem step : m'.Traced first r (h ++ e.deeds) where
  past := step_past memo here rule after traced.past
  own := traced.step_own here rule after
  program := traced.step_program memo here rule after
  called := traced.step_called here rule after
  closed := traced.step_closed memo here rule after

omit after in
/-- **Tidy runs fire on time.**  When the queue of a node is closed its function has ended,
and of a function that leaves nothing behind no program is left. -/
theorem onTime (tidy : Tidy h m) : OnTime e.deeds := by
  intro id port deed
  obtain ⟨closed, x, program⟩ := rule.of_late deed
  obtain ⟨d, has⟩ := traced.closed closed
  have idle : ∀ {r k stage}, m.Calling r k id stage → stage.phase ≠ .computing := by
    intro r k stage calling computing
    cases (memo.unset calling computing).symm.trans has
  obtain ⟨-, k, i, invoked⟩ := traced.program (traced.recent here rule) here program
  obtain ⟨_, _, _, calling⟩ | ⟨outcome, ended⟩ := traced.called invoked
  · exact idle calling rfl
  · cases work with
    | call node began stage =>
        cases stage with
        | run received x =>
            cases program
            exact idle ⟨began, here⟩ rfl
        | _ => cases program
    | aside node x =>
        cases program
        have done := tidy ended here
        simp only [isDone, here, rule.not_done] at done
        cases done
    | _ => cases program

end Traced

theorem Request.program? (q : Request) (now : Instant) : (q.work g now).program? = none := by
  cases q <;> rfl

/-- A run that begins while nothing is at work has no program yet and every queue open. -/
theorem Still.traced (still : m.Still) (execution : ExecutionId) (inputs : RunInputs)
    (requests : List Request) :
    (m.begin g execution inputs requests).Traced m.nextTask m.nextRun [] where
  past := by
    intro t task early here
    obtain ⟨-, there⟩ | ⟨late, -⟩ := begun_task here
    · exact still.done t task there
    · exact absurd early (Nat.not_lt_of_le late)
  own := by
    intro t task later here
    obtain ⟨early, -⟩ | ⟨-, q, -, rfl⟩ := begun_task here
    · exact absurd early (Nat.not_lt_of_le later)
    · rfl
  program := by
    intro t task id x later here program
    obtain ⟨early, -⟩ | ⟨-, q, -, rfl⟩ := begun_task here
    · exact absurd early (Nat.not_lt_of_le later)
    · rw [q.program?] at program
      cases program
  called := nofun
  closed := by
    intro id shut
    rw [cell_begin] at shut
    cases shut

end Machine

/-! ## Functions that leave no work behind -/

/-- Nothing in the program leaves work behind. -/
def Program.Leaveless : Program → Prop
  | .finish _ => True
  | .publish _ _ next => ∀ answer, (next answer).Leaveless
  | .publishOutput _ _ next => ∀ answer, (next answer).Leaveless
  | .readShared next => ∀ d, (next d).Leaveless
  | .notify _ next => next.Leaveless
  | .fire _ next => ∀ answer, (next answer).Leaveless
  | .readClock next => ∀ t, (next t).Leaveless
  | .pause _ next => next.Leaveless
  | .leave _ _ => False

def Execution.Leaveless : Execution → Prop
  | .active p => p.Leaveless
  | .fired _ _ next | .routed _ next => ∀ answer, (next answer).Leaveless

theorem Program.Leaveless.require {α : Type} {next : α → Program}
    (leaveless : ∀ a, (next a).Leaveless) (outcome : Except NodeError α) :
    (Program.require outcome next).Leaveless := by
  cases outcome with
  | error e => trivial
  | ok a => exact leaveless a

namespace Function

theorem Answer.leaveless (i : Invocation) (a : Answer) : (a.program i).Leaveless := by
  cases a with
  | given | arguments | argument => trivial
  | _ => exact .require (fun _ => by first | trivial | exact fun _ => trivial) _

/-- A script leaves work behind only by firing a port later. -/
theorem script_leaveless {steps : List Step} (none : ∀ port, .fireLater port ∉ steps)
    (i : Invocation) : (script i steps).Leaveless := by
  induction steps with
  | nil => trivial
  | cons s rest ih =>
      have later : (script i rest).Leaveless :=
        ih fun port member => none port (List.mem_cons_of_mem _ member)
      cases s with
      | fireLater port => exact absurd List.mem_cons_self (none port)
      | fire | publish | publishOutput =>
          refine Program.Leaveless.require (fun _ => ?_) _
          exact fun answer => Program.Leaveless.require (fun _ => later) _
      | notify =>
          refine Program.Leaveless.require (fun _ => ?_) _
          exact later
      | need => exact Program.Leaveless.require (fun _ => later) _
      | fail => trivial
      | answer a => exact a.leaveless i

end Function

namespace Machine

variable {g : Graph} {m m' : Machine} {t k : TaskId} {r : RunId} {n : Node} {id : NodeId}
  {x x' : Execution} {work work' : Work} {e : Effect}

theorem ExecutionStep.leaveless (step : ExecutionStep m r n x x' e) (leaveless : x.Leaveless) :
    x'.Leaveless ∧ ∀ task ∈ e.spawned, task.isAside = false := by
  cases step with
  | leave => exact leaveless.elim
  | route =>
      refine ⟨leaveless, fun task new => ?_⟩
      obtain ⟨id, -, rfl⟩ := List.mem_map.1 new
      rfl
  | late | queue => exact ⟨leaveless, by simp⟩
  | notify | pause => exact ⟨leaveless, by simp⟩
  | _ => exact ⟨leaveless _, by simp⟩

/-- All work that was left behind is done, and no program leaves any. -/
structure Leaveless (m : Machine) : Prop where
  aside : ∀ {t r id x}, m.tasks[t]? = some ⟨r, .aside id x⟩ → m.isDone t = true
  program : ∀ {t : TaskId} {task : Task} {id x}, m.tasks[t]? = some task →
    task.work.program? = some (id, x) → x.Leaveless

theorem Leaveless.step (clean : m.Leaveless)
    (bodies : ∀ n ∈ g.nodes, ∀ i, (n.function.body i).Leaveless)
    (here : m.tasks[t]? = some ⟨r, work⟩) (rule : Transition g m t r work work' e)
    (after : After m t r work' e m') : m'.Leaveless := by
  have spawned : ∀ {j id x}, (⟨j, .aside id x⟩ : Task) ∉ e.spawned := by
    intro j id x new
    obtain ⟨-, x₀, x₁, n, program, -, step⟩ := rule.left new rfl
    cases (step.leaveless (clean.program here program)).2 _ new
  refine ⟨fun {k j id x} there => ?_, fun {k task id x} there program => ?_⟩
  · obtain ⟨rfl, same⟩ | ⟨-, old⟩ | ⟨-, new⟩ := after.plain_cases rfl there
    · cases same
      have undone := rule.not_done
      cases rule with
      | aside known step =>
          have done := clean.aside here
          simp only [isDone, here, undone] at done
          cases done
    · exact after.isDone here rule (clean.aside old)
    · exact absurd (List.mem_of_getElem? new) spawned
  · obtain ⟨-, rfl⟩ | ⟨-, before, was, rfl⟩ | ⟨-, new⟩ := after.cases there
    · obtain ⟨i, invoked⟩ | ⟨x₀, n, had, -, step⟩ := rule.program program
      · obtain ⟨-, began, began', received, scope, x', rfl, rfl⟩ := rule.of_invoked invoked
        cases program
        cases rule with
        | call known step =>
            cases step with
            | invoke => exact bodies _ (Graph.mem_of_node? known) _
      · exact (step.leaveless (clean.program here had)).1
    · rw [(Task.granted_idle e.grant before id).2.2] at program
      exact clean.program was program
    · obtain ⟨isAside, -⟩ := rule.left (List.mem_of_getElem? new) program
      obtain ⟨j, work⟩ := task
      cases isAside
      exact absurd (List.mem_of_getElem? new) spawned

/-- **Functions that leave no work behind keep every run tidy.** -/
theorem Still.tidy_of_leaveless (still : m.Still)
    (bodies : ∀ n ∈ g.nodes, ∀ i, (n.function.body i).Leaveless) (execution : ExecutionId)
    (inputs : RunInputs) (schedule : List Move) :
    Tidy ((m.launched g execution inputs).history g schedule)
      ((m.launched g execution inputs).exec g schedule) := by
  have kept : ((m.launched g execution inputs).exec g schedule).Leaveless := by
    refine run_induction (P := fun _ m' => m'.Leaveless) schedule ?_ ?_ ⟨?_, ?_⟩
    · intro h m' t r work work' e m'' clean here rule after
      exact clean.step bodies here rule after
    · intro h m' now _ clean
      exact { clean with }
    · intro t r id x here
      obtain ⟨-, there⟩ | ⟨-, launch⟩ := launched_task here
      · rw [isDone, here]
        exact still.done t _ there
      · cases launch
    · intro t task id x here program
      obtain ⟨-, there⟩ | ⟨-, rfl⟩ := launched_task here
      · have done := still.done t task there
        obtain ⟨r, work⟩ := task
        cases work with
        | call node began stage =>
            cases stage with
            | run => cases done
            | _ => cases program
        | aside node y =>
            cases program
            cases x with
            | active p =>
                cases p with
                | finish => trivial
                | _ => cases done
            | _ => cases done
        | _ => cases program
      · cases program
  intro id k outcome t r x _ here
  exact kept.aside here

end Machine
end Flowgraph
