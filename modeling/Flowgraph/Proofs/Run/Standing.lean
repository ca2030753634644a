/- # Flowgraph.Proofs.Run.Standing -- where the tasks stand after a step

A step moves one task on, leaves all others where they are, and starts new ones
(`After.cases`, `After.kept`).  A task that is done stays done, with its result.
Work left behind that never fires a port stays so, and changes no cell
(`ExecutionStep.harmless`).
-/
import Flowgraph.Proofs.Run.Transition

set_option autoImplicit false

namespace Flowgraph

namespace Machine

variable {g : Graph} {m m' : Machine} {t k : TaskId} {r j : RunId} {n : Node} {id : NodeId}
  {began : Instant} {stage stage' : Stage} {x x' : Execution} {work work' : Work} {e : Effect}

/-! ## Reading tasks after a step -/

theorem After.here (after : After m t r work' e m') : m'.tasks[t]? = some ⟨r, work'⟩ := by
  rw [after.tasks, if_pos rfl]

theorem After.kept (after : After m t r work' e m') {task : Task} (other : k ≠ t)
    (plain : task.work.isLaunch = false) (here : m.tasks[k]? = some task) :
    m'.tasks[k]? = some task := by
  rw [after.tasks, if_neg other, if_pos (lt_size_of_tasks here), here]
  simp [Task.granted_of_not_launch _ _ plain]

theorem After.launch_kept (after : After m t r work' e m') {n : Nat} {stage : LaunchStage}
    (other : k ≠ t) (here : m.tasks[k]? = some ⟨j, .launch n stage⟩) :
    ∃ n', m'.tasks[k]? = some ⟨j, .launch n' stage⟩ := by
  rw [after.tasks, if_neg other, if_pos (lt_size_of_tasks here), here, Option.map_some]
  obtain same | ⟨_, _, n', _, launch, same⟩ := Task.granted_cases e.grant k ⟨j, .launch n stage⟩
  · exact ⟨n, congrArg some same⟩
  · cases launch
    exact ⟨n', congrArg some same⟩

theorem After.started (after : After m t r work' e m') (here : m.tasks[t]? = some ⟨r, work⟩)
    {i : Nat} {task : Task} (new : e.spawned[i]? = some task) :
    m'.tasks[m.tasks.size + i]? = some task := by
  have late : m.tasks.size ≤ m.tasks.size + i := Nat.le_add_right _ _
  have other : m.tasks.size + i ≠ t :=
    Nat.ne_of_gt (Nat.lt_of_lt_of_le (lt_size_of_tasks here) late)
  rw [after.tasks, if_neg other, if_neg (Nat.not_lt_of_le late), Nat.add_sub_cancel_left, new]

/-- Tasks that a step starts one for each of some things are numbered in the order of these. -/
theorem After.started_map (after : After m t r work' e m') (here : m.tasks[t]? = some ⟨r, work⟩)
    {α : Type} {xs : List α} {make : α → Task} (spawned : e.spawned = xs.map make) {i : Nat}
    (small : i < xs.length) : m'.tasks[m.tasks.size + i]? = some (make xs[i]) := by
  refine after.started here ?_
  rw [spawned, List.getElem?_map, List.getElem?_eq_getElem small, Option.map_some]

theorem After.started_of_mem (after : After m t r work' e m') (here : m.tasks[t]? = some ⟨r, work⟩)
    {α : Type} {xs : List α} {make : α → Task} (spawned : e.spawned = xs.map make) {x : α}
    (member : x ∈ xs) : ∃ k ∈ List.range' m.tasks.size xs.length, m.tasks.size ≤ k ∧
      m'.tasks[k]? = some (make x) := by
  obtain ⟨i, small, rfl⟩ := List.getElem_of_mem member
  have late : m.tasks.size ≤ m.tasks.size + i := Nat.le_add_right _ _
  exact ⟨_, List.mem_range'_1.2 ⟨late, Nat.add_lt_add_left small _⟩, late,
    after.started_map here spawned small⟩

theorem After.cases (after : After m t r work' e m') {task : Task}
    (here : m'.tasks[k]? = some task) :
    (k = t ∧ task = ⟨r, work'⟩) ∨
    (k ≠ t ∧ ∃ old, m.tasks[k]? = some old ∧ task = old.granted e.grant k) ∨
    (m.tasks.size ≤ k ∧ e.spawned[k - m.tasks.size]? = some task) := by
  rw [after.tasks] at here
  by_cases same : k = t
  · rw [if_pos same] at here
    exact .inl ⟨same, (Option.some.inj here).symm⟩
  · rw [if_neg same] at here
    by_cases old : k < m.tasks.size
    · rw [if_pos old, Option.map_eq_some_iff] at here
      obtain ⟨task', there, granted⟩ := here
      exact .inr (.inl ⟨same, task', there, granted.symm⟩)
    · rw [if_neg old] at here
      exact .inr (.inr ⟨Nat.le_of_not_lt old, here⟩)

/-- The cases of a task that is no launch: it took the step, was there before, or was started. -/
theorem After.plain_cases (after : After m t r work' e m') {task : Task}
    (plain : task.work.isLaunch = false) (here : m'.tasks[k]? = some task) :
    (k = t ∧ task = ⟨r, work'⟩) ∨ (k ≠ t ∧ m.tasks[k]? = some task) ∨
    (m.tasks.size ≤ k ∧ e.spawned[k - m.tasks.size]? = some task) := by
  obtain same | ⟨other, old, there, granted⟩ | new := after.cases here
  · exact .inl same
  · subst granted
    rw [Task.isLaunch_granted] at plain
    rw [Task.granted_of_not_launch _ _ plain]
    exact .inr (.inl ⟨other, there⟩)
  · exact .inr (.inr new)

theorem After.launch_cases (after : After m t r work' e m') {n : Nat} {stage : LaunchStage}
    (here : m'.tasks[k]? = some ⟨j, .launch n stage⟩) :
    (k = t ∧ j = r ∧ work' = .launch n stage) ∨
    (k ≠ t ∧ ∃ n', m.tasks[k]? = some ⟨j, .launch n' stage⟩) ∨
    (m.tasks.size ≤ k ∧ e.spawned[k - m.tasks.size]? = some ⟨j, .launch n stage⟩) := by
  obtain ⟨same, stood⟩ | ⟨other, old, there, granted⟩ | new := after.cases here
  · cases stood
    exact .inl ⟨same, rfl, rfl⟩
  · refine .inr (.inl ⟨other, ?_⟩)
    obtain same | ⟨_, n', _, _, rfl, same⟩ := old.granted_cases e.grant k
    · exact ⟨n, by rw [there, granted, same]⟩
    · cases granted.trans same
      exact ⟨n', there⟩
  · exact .inr (.inr new)

section Views

universe u

variable {α : Type u} (view : Task → α)

theorem getElem_map_tasks (here : m.tasks[t]? = some ⟨r, work⟩) :
    ∃ small : t < (m.tasks.toList.map view).length,
      (m.tasks.toList.map view)[t] = view ⟨r, work⟩ := by
  obtain ⟨small, same⟩ := Array.getElem?_eq_some_iff.1 here
  exact ⟨by simpa using small, by simp [same]⟩

/-- What a view that permits have no part in shows of all tasks after a step. -/
theorem After.map_tasks (blind : ∀ grant k task, view (task.granted grant k) = view task)
    (after : After m t r work' e m') (here : m.tasks[t]? = some ⟨r, work⟩) :
    m'.tasks.toList.map view =
      (m.tasks.toList.map view).set t (view ⟨r, work'⟩) ++ e.spawned.map view := by
  obtain ⟨small, -⟩ := getElem_map_tasks view here
  refine List.ext_getElem? fun k => ?_
  rw [List.getElem?_map, Array.getElem?_toList, after.tasks]
  by_cases mine : k = t
  · subst mine
    rw [List.getElem?_append_left (by simpa using small), List.getElem?_set_self small]
    simp
  · rw [if_neg mine]
    by_cases old : k < m.tasks.size
    · rw [if_pos old, List.getElem?_append_left (by simpa using old),
        List.getElem?_set_ne (Ne.symm mine), List.getElem?_map, Array.getElem?_toList,
        Option.map_map]
      congr 1
      exact funext fun task => blind e.grant k task
    · rw [if_neg old, List.getElem?_append_right (by simpa using old)]
      simp

end Views

/-! ## Tasks that are done -/

theorem Transition.not_done (rule : Transition g m t r work work' e) :
    Task.isDone ⟨r, work⟩ = false := by
  cases rule with
  | call known step => cases step <;> rfl
  | aside known step => cases step <;> rfl
  | @rested id rounds w waiting all => cases rounds <;> rfl
  | _ => rfl

/-- What is done stays done. -/
theorem After.isDone (after : After m t r work' e m') (here : m.tasks[t]? = some ⟨r, work⟩)
    (rule : Transition g m t r work work' e) (done : m.isDone k = true) : m'.isDone k = true := by
  cases there : m.tasks[k]? with
  | none => simp [Machine.isDone, there] at done
  | some task =>
      have isDone : task.isDone = true := by simpa [Machine.isDone, there] using done
      have other : k ≠ t := by
        rintro rfl
        rw [here] at there
        cases there
        rw [rule.not_done] at isDone
        cases isDone
      have stays := after.tasks k
      rw [if_neg other, if_pos (lt_size_of_tasks there), there] at stays
      simp [Machine.isDone, stays, Task.isDone_granted, isDone]

theorem After.undone (after : After m t r work' e m') (here : m.tasks[t]? = some ⟨r, work⟩)
    (rule : Transition g m t r work work' e) (undone : m'.isDone k = false) :
    m.isDone k = false := by
  cases done : m.isDone k with
  | false => rfl
  | true => cases undone.symm.trans (after.isDone here rule done)

/-! ## Calls -/

/-- The task `k` is a call of a node in a run, and stands at a stage. -/
def Calling (m : Machine) (r : RunId) (k : TaskId) (id : NodeId) (stage : Stage) : Prop :=
  ∃ began, m.tasks[k]? = some ⟨r, .call id began stage⟩

theorem Calling.unique {id' : NodeId}
    (one : m.Calling r k id stage) (two : m.Calling j k id' stage') :
    j = r ∧ id = id' ∧ stage = stage' := by
  obtain ⟨_, one⟩ := one
  obtain ⟨_, two⟩ := two
  rw [one] at two
  cases two
  exact ⟨rfl, rfl, rfl⟩

theorem Calling.kept (calling : m.Calling j k id stage)
    (after : After m t r work' e m') (other : k ≠ t) : m'.Calling j k id stage := by
  obtain ⟨began, here⟩ := calling
  exact ⟨began, after.kept other rfl here⟩

/-- A call stands where it stood, or it is the one that took the step. -/
theorem Calling.moved (calling : m.Calling j k id stage)
    (here : m.tasks[t]? = some ⟨r, work⟩) (rule : Transition g m t r work work' e)
    (after : After m t r work' e m') :
    (k ≠ t ∧ m'.Calling j k id stage) ∨
    (k = t ∧ j = r ∧ ∃ n began stage', g.node? id = some n ∧ n.id = id ∧
      CallStep g m t r n began stage stage' e ∧ m'.Calling r t id stage') := by
  by_cases same : k = t
  · subst same
    obtain ⟨began, there⟩ := calling
    cases here.symm.trans there
    cases rule with
    | call known step =>
        exact .inr ⟨rfl, rfl, _, _, _, known, Graph.id_of_node? known, step, _, after.here⟩
  · exact .inl ⟨same, calling.kept after same⟩

/-- A call stays a call of its node. -/
theorem Calling.still (calling : m.Calling j k id stage) (here : m.tasks[t]? = some ⟨r, work⟩)
    (rule : Transition g m t r work work' e) (after : After m t r work' e m') :
    ∃ stage', m'.Calling j k id stage' := by
  obtain ⟨-, stays⟩ | ⟨rfl, rfl, _, _, _, -, -, -, stands⟩ := calling.moved here rule after
  · exact ⟨_, stays⟩
  · exact ⟨_, stands⟩

/-- How the task at a place among those that a step of the task `t` starts comes about: it
belongs to the same run, and stands where it begins. -/
inductive SpawnedAt (g : Graph) (m : Machine) (t : TaskId) (r : RunId) (e : Effect) (index : Nat) :
    Work → Work → Task → Prop
  | call {work work' : Work} {id} : SpawnedAt g m t r e index work work' (m.freshCall r id)
  | aside {work work' : Work} {id p} :
      SpawnedAt g m t r e index work work' ⟨r, .aside id (.active p)⟩
  | fanOut {work work' : Work} {id rounds}
      (branched : .branched id t (m.tasks.size + index) ∈ e.deeds) :
      SpawnedAt g m t r e index work work' ⟨r, .fanOut id rounds []⟩
  | entry {permits id} (named : g.entries[index]? = some id) :
      SpawnedAt g m t r e index (.launch permits .spawn)
        (.launch permits (.join (List.range' m.tasks.size g.entries.length)))
        ⟨r, .entry t id .waiting⟩
  | settle {permits ts} (first : index = 0) :
      SpawnedAt g m t r e index (.launch permits (.join ts))
        (.launch permits (.settle m.tasks.size)) ⟨r, .settle .take⟩

theorem ExecutionStep.spawnedAt (step : ExecutionStep m r n x x' e) {index : Nat} {task : Task}
    (new : e.spawned[index]? = some task) : SpawnedAt g m t r e index work work' task := by
  have member := List.mem_of_getElem? new
  cases step with
  | leave =>
      cases List.mem_singleton.1 member
      exact .aside
  | route =>
      obtain ⟨id, -, rfl⟩ := List.mem_map.1 member
      exact .call
  | _ => simp at new

theorem Transition.spawnedAt (rule : Transition g m t r work work' e) {index : Nat} {task : Task}
    (new : e.spawned[index]? = some task) : SpawnedAt g m t r e index work work' task := by
  have member := List.mem_of_getElem? new
  cases rule with
  | call known step =>
      cases step with
      | work step => exact step.spawnedAt new
      | pull =>
          cases List.mem_singleton.1 member
          exact .call
      | branch =>
          cases index with
          | zero =>
              cases new
              exact .fanOut (List.mem_singleton_self _)
          | succ index => cases new
      | _ => simp at new
  | aside known step => exact step.spawnedAt new
  | round =>
      obtain ⟨id, -, rfl⟩ := List.mem_map.1 member
      exact .call
  | permit =>
      cases List.mem_singleton.1 member
      exact .call
  | entries =>
      rw [List.getElem?_map, Option.map_eq_some_iff] at new
      obtain ⟨id, named, rfl⟩ := new
      exact .entry named
  | joined =>
      cases index with
      | zero =>
          cases new
          exact .settle rfl
      | succ index => cases new
  | _ => simp at new

/-- A call after a step: it took the step, stood there before, or is new. -/
theorem After.calling_cases (rule : Transition g m t r work work' e) (after : After m t r work' e m')
    (calling : m'.Calling j k id stage) :
    (k = t ∧ j = r ∧ ∃ began, work' = .call id began stage) ∨ (k ≠ t ∧ m.Calling j k id stage) ∨
    (m.tasks.size ≤ k ∧ stage = .probe ∧ j = r) := by
  obtain ⟨began, here⟩ := calling
  obtain ⟨same, stands⟩ | ⟨other, there⟩ | ⟨new, spawned⟩ := after.plain_cases rfl here
  · cases stands
    exact .inl ⟨same, rfl, began, rfl⟩
  · exact .inr (.inl ⟨other, began, there⟩)
  · refine .inr (.inr ⟨new, ?_⟩)
    cases rule.spawnedAt spawned with
    | call => exact ⟨rfl, rfl⟩

/-! ## Cells -/

/-- A program touches neither gates nor results. -/
theorem ExecutionStep.cell_kept (step : ExecutionStep m r n x x' e) (c : Cell) :
    (e.cell id c).gate = c.gate ∧ (e.cell id c).result = c.result := by
  cases step with
  | queue driven declared isOpen =>
      by_cases same : id = n.id
      · subst same
        simp
      · simp [onCell_ne _ _ same]
  | _ => exact ⟨rfl, rfl⟩

theorem ExecutionStep.other (step : ExecutionStep m r n x x' e) (c : Cell)
    (other : id ≠ n.id) : e.cell id c = c := by
  cases step with
  | queue => simp [onCell, other]
  | _ => rfl

theorem CallStep.other (step : CallStep g m t r n began stage stage' e) (c : Cell)
    (other : id ≠ n.id) : e.cell id c = c := by
  cases step with
  | work step => exact step.other c other
  | enter | mark | unbound | invoke | blame | store | unmark | release | close | yield =>
      simp [onCell, other]
  | _ => rfl

/-- A program leaves the error of its node alone. -/
theorem ExecutionStep.error_kept (step : ExecutionStep m r n x x' e) (c : Cell) :
    (e.cell id c).error = c.error := by
  by_cases mine : id = n.id
  · subst mine
    cases step with
    | queue => simp
    | _ => rfl
  · rw [step.other c mine]

/-- A step is one of a call of the node, or one of work that was left behind there, or it
leaves the cell of the node alone. -/
theorem Transition.node_cases (rule : Transition g m t r work work' e) (id : NodeId) :
    (∃ n began began' stage stage', g.node? id = some n ∧ n.id = id ∧
      work = .call id began stage ∧ work' = .call id began' stage' ∧
      CallStep g m t r n began stage stage' e) ∨
    ((∀ began stage, work ≠ .call id began stage) ∧ (∀ began stage, work' ≠ .call id began stage) ∧
      ((∀ c, e.cell id c = c) ∨ ∃ n x x', g.node? id = some n ∧ n.id = id ∧
        work = .aside id x ∧ work' = .aside id x' ∧ ExecutionStep m r n x x' e)) := by
  cases rule with
  | @call node n began stage stage' e known step =>
      cases Graph.id_of_node? known
      by_cases mine : id = n.id
      · subst mine
        exact .inl ⟨n, _, _, _, _, known, rfl, rfl, rfl, step⟩
      · refine .inr ⟨?_, ?_, .inl fun c => step.other c mine⟩
        · rintro _ _ ⟨⟩
          exact mine rfl
        · rintro _ _ ⟨⟩
          exact mine rfl
  | @aside node n x x' e known step =>
      cases Graph.id_of_node? known
      refine .inr ⟨by simp, by simp, ?_⟩
      by_cases mine : id = n.id
      · subst mine
        exact .inr ⟨n, x, x', known, rfl, rfl, rfl, step⟩
      · exact .inl fun c => step.other c mine
  | _ => exact .inr ⟨by simp, by simp, .inl fun _ => rfl⟩

/-! ## Runs -/

/-- A run keeps the identifier of its execution. -/
theorem Transition.execution (rule : Transition g m t r work work' e) (run : RunRecord) :
    (e.run run).execution = run.execution := by
  cases rule with
  | call known step =>
      cases step with
      | work step => cases step <;> rfl
      | _ => rfl
  | aside known step => cases step <;> rfl
  | _ => rfl

/-! ## Work that no run can notice -/

/-- Harmless work goes on harmlessly: it starts no other, changes no cell and has no deeds. -/
theorem ExecutionStep.harmless (step : ExecutionStep m r n x x' e) (known : g.node? id = some n)
    (harmless : (Work.aside id x).Harmless g) :
    (Work.aside id x').Harmless g ∧ (∀ task ∈ e.spawned, task.work.Harmless g) ∧
      (∀ k c, e.cell k c = c) ∧ e.deeds = [] := by
  obtain ⟨p, rfl, fireless⟩ := harmless
  cases Graph.id_of_node? known
  have goesOn : ∀ next : Program, (n.isPortDriven = true → next.Fireless) →
      (Work.aside n.id (.active next)).Harmless g := by
    intro next quiet
    refine ⟨next, rfl, fun n' known' driven => ?_⟩
    cases known.symm.trans known'
    exact quiet driven
  have none : ∀ task ∈ ([] : List Task), task.work.Harmless g := fun _ new => absurd new (by simp)
  cases step with
  | publish | publishOutput | readShared | readClock =>
      exact ⟨goesOn _ fun driven => fireless n known driven _, none, fun _ _ => rfl, rfl⟩
  | notify | pause =>
      exact ⟨goesOn _ fun driven => fireless n known driven, none, fun _ _ => rfl, rfl⟩
  | portless plain =>
      refine ⟨goesOn _ fun driven => ?_, none, fun _ _ => rfl, rfl⟩
      rw [plain] at driven
      cases driven
  | undeclared driven | late driven | queue driven => exact (fireless n known driven).elim
  | leave =>
      refine ⟨goesOn _ fun driven => (fireless n known driven).2, ?_, fun _ _ => rfl, rfl⟩
      intro task new
      cases List.mem_singleton.1 new
      exact goesOn _ fun driven => (fireless n known driven).1

theorem Transition.harmless (rule : Transition g m t r work work' e)
    (harmless : work.Harmless g) :
    work'.Harmless g ∧ (∀ task ∈ e.spawned, task.work.Harmless g) ∧
      (∀ k c, e.cell k c = c) ∧ e.deeds = [] := by
  cases rule with
  | aside known step => exact step.harmless known harmless
  | _ => exact harmless.elim

end Machine
end Flowgraph
