/- # Flowgraph.Proofs.Run.Attended -- who waits for a call

Every call that a run starts on its own is waited for by the task that started it:
by the call of another node, by an entry, or by a fan-out.  That task has a smaller
number and cannot be done before the call is.  A fire that comes when the node is
through is the exception: its targets are waited for by the function that fired,
so here every fire is on time.
-/
import Flowgraph.Proofs.Run.Spread

set_option autoImplicit false

namespace Flowgraph

/-- No port is fired after its node was through. -/
def OnTime (h : List Deed) : Prop := ∀ id port, .fired id port false ∉ h

theorem OnTime.of_append {h more : List Deed} (onTime : OnTime (h ++ more)) :
    OnTime h ∧ OnTime more :=
  ⟨fun id port deed => onTime id port (List.mem_append_left _ deed),
    fun id port deed => onTime id port (List.mem_append_right _ deed)⟩

/-- Not in the middle of a fire that came too late. -/
def Execution.Prompt : Execution → Prop
  | .active _ => True
  | .fired _ queued _ => queued = true
  | .routed _ _ => False

namespace Work

def Prompt : Work → Prop
  | .call _ _ (.run _ x) => x.Prompt
  | .aside _ x => x.Prompt
  | _ => True

/-- The task `k` must be done before this work goes on past it. -/
def Awaits (k : TaskId) : Work → Prop
  | .call _ _ (.gather fetched _) => .awaited k ∈ fetched
  | .call _ _ (.join fetched) => .awaited k ∈ fetched
  | .fanOut _ _ waiting => k ∈ waiting
  | .entry _ _ (.running c) => c = k
  | _ => False

/-- What a run triggers and has to wait for. -/
def isTriggered : Work → Bool
  | .call _ _ _ | .fanOut _ _ _ | .entry _ _ _ => true
  | _ => false

theorem Awaits.not_done {k : TaskId} {r : RunId} {work : Work} (awaits : work.Awaits k) :
    Task.isDone ⟨r, work⟩ = false := by
  cases work with
  | call id began stage => cases stage <;> first | rfl | exact awaits.elim
  | fanOut id rounds waiting =>
      cases waiting with
      | nil => cases awaits
      | cons w rest => cases rounds <;> rfl
  | entry launch id stage => cases stage <;> first | rfl | exact awaits.elim
  | _ => exact awaits.elim

theorem isTriggered_granted (grant : Option (TaskId × Nat)) (k : TaskId) (task : Task) :
    (task.granted grant k).work.isTriggered = task.work.isTriggered :=
  Task.view_granted (fun task => task.work.isTriggered) (fun _ _ _ _ => rfl) grant k task

theorem prompt_granted (grant : Option (TaskId × Nat)) (k : TaskId) (task : Task) :
    (task.granted grant k).work.Prompt = task.work.Prompt :=
  Task.view_granted (fun task => task.work.Prompt) (fun _ _ _ _ => rfl) grant k task

theorem Harmless.prompt {g : Graph} {work : Work} (harmless : work.Harmless g) : work.Prompt := by
  cases work with
  | aside id x =>
      obtain ⟨p, rfl, -⟩ := harmless
      trivial
  | _ => trivial

end Work

theorem Task.prompt_of_isDone {task : Task} (done : task.isDone = true) : task.work.Prompt := by
  obtain ⟨r, work⟩ := task
  cases work with
  | call id began stage => cases stage <;> trivial
  | aside id x => cases x <;> trivial
  | _ => trivial

namespace Machine

variable {g : Graph} {m m' : Machine} {t k first : TaskId} {r j : RunId} {n : Node} {id : NodeId}
  {began : Instant} {stage stage' : Stage} {x x' : Execution} {work work' : Work} {e : Effect}
  {h : List Deed}

theorem ExecutionStep.prompt (step : ExecutionStep m r n x x' e) (onTime : OnTime e.deeds)
    (prompt : x.Prompt) :
    x'.Prompt ∧ ∀ task ∈ e.spawned, ∃ id p, task.work = .aside id (.active p) := by
  have none : ∀ task ∈ ([] : List Task), ∃ id p, task.work = .aside id (.active p) :=
    fun _ new => absurd new (by simp)
  cases step with
  | late => exact absurd (List.mem_singleton_self _) (onTime _ _)
  | queue => exact ⟨rfl, none⟩
  | leave =>
      refine ⟨trivial, fun task new => ?_⟩
      cases List.mem_singleton.1 new
      exact ⟨_, _, rfl⟩
  | route => cases prompt
  | _ => exact ⟨trivial, none⟩

theorem Transition.prompt (rule : Transition g m t r work work' e) (onTime : OnTime e.deeds)
    (prompt : work.Prompt) : work'.Prompt := by
  cases rule with
  | call known step =>
      cases step with
      | work step => exact (step.prompt onTime prompt).1
      | _ => trivial
  | aside known step => exact (step.prompt onTime prompt).1
  | _ => trivial

theorem Transition.spawned_prompt (rule : Transition g m t r work work' e) {index : Nat}
    {task : Task} (new : e.spawned[index]? = some task) : task.work.Prompt := by
  cases rule.spawnedAt new <;> trivial

/-- Work goes on waiting until what it waits for is done. -/
theorem Transition.awaits (rule : Transition g m t r work work' e) (awaits : work.Awaits k) :
    work'.Awaits k ∨ m.isDone k = true := by
  cases rule with
  | call known step =>
      cases step with
      | asked => exact .inl awaits
      | skip | seen | unseen | pull => exact .inl (List.mem_append_left _ awaits)
      | join all => exact .inr (List.all_eq_true.1 all _ awaits)
      | _ => exact awaits.elim
  | round => cases awaits
  | rested all => exact .inr (List.all_eq_true.1 all _ awaits)
  | leave done =>
      cases awaits
      exact .inr done
  | _ => exact awaits.elim

/-- A call that is started is waited for, unless a late fire started it. -/
theorem Transition.awaits_new (rule : Transition g m t r work work' e) (prompt : work.Prompt)
    {i : Nat} (new : e.spawned[i]? = some ⟨j, .call id began stage⟩) :
    work'.Awaits (m.tasks.size + i) := by
  have execution : ∀ {n x x'}, ExecutionStep m r n x x' e → x.Prompt → False := by
    intro n x x' step prompt
    cases step with
    | leave => cases List.mem_singleton.1 (List.mem_of_getElem? new)
    | route => cases prompt
    | _ => simp at new
  have within : ∀ {α : Type} {xs : List α} {make : α → Task},
      (xs.map make)[i]? = some ⟨j, .call id began stage⟩ →
      m.tasks.size + i ∈ List.range' m.tasks.size xs.length := by
    intro α xs make found
    obtain ⟨small, -⟩ := List.getElem?_eq_some_iff.1 found
    rw [List.length_map] at small
    exact List.mem_range'.2 ⟨i, small, by simp⟩
  cases rule with
  | call known step =>
      cases step with
      | pull =>
          cases i with
          | zero => exact List.mem_append_right _ (List.mem_singleton_self _)
          | succ i => cases new
      | work step => exact (execution step prompt).elim
      | branch => cases List.mem_singleton.1 (List.mem_of_getElem? new)
      | _ => simp at new
  | aside known step => exact (execution step prompt).elim
  | round => exact within new
  | permit =>
      cases i with
      | zero => rfl
      | succ i => cases new
  | entries =>
      obtain ⟨_, -, made⟩ := List.mem_map.1 (List.mem_of_getElem? new)
      cases made
  | joined => cases List.mem_singleton.1 (List.mem_of_getElem? new)
  | _ => simp at new

/-- Every call of the run that is not done is waited for by an earlier task of the run. -/
structure Attended (first : TaskId) (m : Machine) : Prop where
  prompt : ∀ {k : TaskId} {task : Task}, m.tasks[k]? = some task → task.work.Prompt
  waiter : ∀ {r k id stage}, first ≤ k → m.Calling r k id stage → m.isDone k = false →
    ∃ w, ∃ task : Task, w < k ∧ first ≤ w ∧ m.tasks[w]? = some task ∧ task.work.Awaits k

section Step

variable (attended : m.Attended first) (here : m.tasks[t]? = some ⟨r, work⟩)
  (rule : Transition g m t r work work' e) (after : After m t r work' e m')
include attended here rule after

theorem Attended.step_prompt (onTime : OnTime e.deeds) {task : Task}
    (there : m'.tasks[k]? = some task) : task.work.Prompt := by
  obtain ⟨-, rfl⟩ | ⟨-, old, before, rfl⟩ | ⟨-, new⟩ := after.cases there
  · exact rule.prompt onTime (attended.prompt here)
  · rw [Work.prompt_granted]
    exact attended.prompt before
  · exact rule.spawned_prompt new

theorem Attended.step_waiter (confined : m.Confined g first j h) {i : RunId} (recent : first ≤ k)
    (calling : m'.Calling i k id stage) (undone : m'.isDone k = false) :
    ∃ w, ∃ task : Task, w < k ∧ first ≤ w ∧ m'.tasks[w]? = some task ∧ task.work.Awaits k := by
  have waits : ∀ {old}, m.Calling i k id old →
      ∃ w, ∃ task : Task, w < k ∧ first ≤ w ∧ m'.tasks[w]? = some task ∧ task.work.Awaits k := by
    intro old before
    have undoneBefore : m.isDone k = false := after.undone here rule undone
    obtain ⟨w, task, smaller, later, there, awaits⟩ := attended.waiter recent before undoneBefore
    by_cases mine : w = t
    · subst mine
      cases here.symm.trans there
      obtain still | done := rule.awaits awaits
      · exact ⟨w, _, smaller, later, after.here, still⟩
      · cases undoneBefore.symm.trans done
    · refine ⟨w, task, smaller, later, after.kept mine ?_ there, awaits⟩
      generalize task.work = work at awaits
      cases work <;> first | rfl | exact awaits.elim
  obtain ⟨began, there⟩ := calling
  obtain ⟨rfl, same⟩ | ⟨-, before⟩ | ⟨late, new⟩ := after.plain_cases rfl there
  · cases same
    cases rule with
    | call known step => exact waits ⟨_, here⟩
  · exact waits ⟨began, before⟩
  · have awaits := rule.awaits_new (attended.prompt here) new
    rw [Nat.add_sub_cancel' late] at awaits
    refine ⟨t, _, Nat.lt_of_lt_of_le (lt_size_of_tasks here) late, ?_, after.here, awaits⟩
    obtain ⟨-, done⟩ | harmless | ⟨recent, -⟩ := confined.tasks here
    · cases rule.not_done.symm.trans done
    · exact ((rule.harmless harmless).2.1 _ (List.mem_of_getElem? new)).elim
    · exact recent

theorem Attended.step (confined : m.Confined g first j h) (onTime : OnTime e.deeds) :
    m'.Attended first where
  prompt := attended.step_prompt here rule after onTime
  waiter recent calling undone := attended.step_waiter here rule after confined recent calling undone

end Step

end Machine
end Flowgraph
