/- # Flowgraph.Proofs.Run.Spread -- how a run spreads over the graph

A run starts at the entries and spreads in three ways: a node pulls the upstreams
it waits for, a node without ports pushes on to all that is downstream of it, and
a port that was fired leads to its targets.  `Executed` is what it can reach in
these ways when certain ports are fired.

`Confined` is the invariant: every task of the run, every result and every port
that is waiting in a queue is accounted for by what has been fired so far.  So
nothing runs that the spread does not reach (`executed_of_result`), for any
functions, under any schedule, and at every moment of the run.
-/
import Flowgraph.Proofs.Run.Deeds

set_option autoImplicit false

namespace Flowgraph

/-! ## Reaching -/

/-- A node leads to another when the ports in `fired` are fired. -/
inductive Leads (g : Graph) (fired : NodeId → String → Prop) : NodeId → NodeId → Prop
  | pull {id n u} (known : g.node? id = some n) (linked : u ∈ n.upstream)
      (waits : u.viaPort = false) : Leads g fired id u.node
  | push {id n target} (known : g.node? id = some n) (plain : n.isPortDriven = false)
      (behind : target ∈ n.downstream) : Leads g fired id target
  | route {id n port target} (known : g.node? id = some n) (driven : n.isPortDriven = true)
      (fires : fired id port) (behind : target ∈ n.targets port) : Leads g fired id target

/-- What is reached from the entries. -/
inductive Reached (g : Graph) (leads : NodeId → NodeId → Prop) : NodeId → Prop
  | entry {id} (start : id ∈ g.entries) : Reached g leads id
  | next {id target} (reached : Reached g leads id) (step : leads id target) :
      Reached g leads target

/-- What a run reaches when the ports in `fired` are fired. -/
def Executed (g : Graph) (fired : NodeId → String → Prop) : NodeId → Prop :=
  Reached g (Leads g fired)

/-- The ports that accepted being fired. -/
def firedIn (h : List Deed) (id : NodeId) (port : String) : Prop :=
  ∃ queued, .fired id port queued ∈ h

section Reached

variable {g : Graph} {fired : NodeId → String → Prop} {id : NodeId}

theorem Reached.mono {leads leads' : NodeId → NodeId → Prop}
    (more : ∀ a b, leads a b → leads' a b) (reached : Reached g leads id) :
    Reached g leads' id := by
  induction reached with
  | entry start => exact .entry start
  | next _ step ih => exact .next ih (more _ _ step)

theorem Leads.mono {fired' : NodeId → String → Prop} {a b : NodeId}
    (more : ∀ id port, fired id port → fired' id port) (leads : Leads g fired a b) :
    Leads g fired' a b := by
  cases leads with
  | pull known linked waits => exact .pull known linked waits
  | push known plain behind => exact .push known plain behind
  | route known driven fires behind => exact .route known driven (more _ _ fires) behind

theorem firedIn_append {h : List Deed} (more : List Deed) {port : String}
    (fires : firedIn h id port) : firedIn (h ++ more) id port := by
  obtain ⟨queued, deed⟩ := fires
  exact ⟨queued, List.mem_append_left _ deed⟩

theorem Executed.append {h : List Deed} (more : List Deed) (executed : Executed g (firedIn h) id) :
    Executed g (firedIn (h ++ more)) id :=
  executed.mono fun _ _ => Leads.mono fun _ _ => firedIn_append more

end Reached

/-! ## The invariant -/

variable {g : Graph} {h : List Deed}

/-- A port that is being reported or run has been fired, by a node that has ports. -/
def Execution.Due (g : Graph) (h : List Deed) (id : NodeId) : Execution → Prop
  | .fired port _ _ => firedIn h id port ∧ ∀ n, g.node? id = some n → n.isPortDriven = true
  | _ => True

def Stage.Due (g : Graph) (h : List Deed) (id : NodeId) : Stage → Prop
  | .gather _ left => ∀ u ∈ left, ∀ n, g.node? id = some n → u ∈ n.upstream
  | .run _ x => x.Due g h id
  | .branch _ pending => ∀ port ∈ pending, firedIn h id port
  | _ => True

/-- Work that the run has reached when `h` has been done. -/
def Work.Due (g : Graph) (h : List Deed) : Work → Prop
  | .call id _ stage => Executed g (firedIn h) id ∧ stage.Due g h id
  | .fanOut _ rounds _ => ∀ targets ∈ rounds, ∀ id ∈ targets, Executed g (firedIn h) id
  | .aside id x => Executed g (firedIn h) id ∧ x.Due g h id
  | .entry _ id _ => Executed g (firedIn h) id
  | _ => True

theorem Execution.Due.append (more : List Deed) {id : NodeId} {x : Execution}
    (due : x.Due g h id) : x.Due g (h ++ more) id := by
  cases x with
  | fired port queued next => exact ⟨firedIn_append more due.1, due.2⟩
  | _ => trivial

theorem Stage.Due.append (more : List Deed) {id : NodeId} {stage : Stage}
    (due : stage.Due g h id) : stage.Due g (h ++ more) id := by
  cases stage with
  | gather fetched left => exact due
  | run received x => exact Execution.Due.append more due
  | branch d pending => exact fun port waits => firedIn_append more (due port waits)
  | _ => trivial

theorem Work.Due.append (more : List Deed) {work : Work} (due : work.Due g h) :
    work.Due g (h ++ more) := by
  cases work with
  | call id began stage => exact ⟨due.1.append more, Stage.Due.append more due.2⟩
  | fanOut id rounds waiting => exact fun targets member id target =>
      (due targets member id target).append more
  | aside id x => exact ⟨due.1.append more, due.2.append more⟩
  | entry launch id stage => exact Executed.append more due
  | _ => trivial

theorem Work.due_granted (grant : Option (TaskId × Nat)) (k : TaskId) (task : Task) :
    (task.granted grant k).work.Due g h = task.work.Due g h :=
  Task.view_granted (fun task => task.work.Due g h) (fun _ _ _ _ => rfl) grant k task

namespace Machine

variable {m m' : Machine} {t k first : TaskId} {r j : RunId} {n : Node} {id : NodeId}
  {began : Instant} {stage stage' : Stage} {x x' : Execution} {work work' : Work} {e : Effect}

/-- The run `r` has not gone beyond what `h` accounts for.  Tasks below `first` are of earlier runs. -/
structure Confined (g : Graph) (first : TaskId) (r : RunId) (h : List Deed) (m : Machine) : Prop where
  bound : first ≤ m.tasks.size
  tasks : ∀ {k task}, m.tasks[k]? = some task → (k < first ∧ task.isDone = true) ∨
    task.work.Harmless g ∨ (first ≤ k ∧ task.run = r ∧ task.work.Due g h)
  results : ∀ {id d}, (m.cell id).result = some d →
    Executed g (firedIn h) id ∧ (g.node? id).isSome = true
  pending : ∀ {id port}, port ∈ (m.cell id).queue.pending → firedIn h id port

/-- What can go on belongs to the run, or to work that no run can notice. -/
theorem Confined.current (confined : m.Confined g first r h) (here : m.tasks[t]? = some ⟨j, work⟩)
    (rule : Transition g m t j work work' e) :
    work.Harmless g ∨ (first ≤ t ∧ j = r) := by
  obtain ⟨-, done⟩ | harmless | ⟨recent, same, -⟩ := confined.tasks here
  · cases rule.not_done.symm.trans done
  · exact .inl harmless
  · exact .inr ⟨recent, same⟩

theorem ExecutionStep.due (step : ExecutionStep m r n x x' e) (known : g.node? id = some n)
    (executed : Executed g (firedIn h) id) (due : x.Due g h id) :
    x'.Due g (h ++ e.deeds) id ∧
      ∀ task ∈ e.spawned, task.run = r ∧ task.work.Due g (h ++ e.deeds) := by
  have none : ∀ {h'}, ∀ task ∈ ([] : List Task), task.run = r ∧ task.work.Due g h' :=
    fun _ new => absurd new (by simp)
  cases Graph.id_of_node? known
  cases step with
  | late driven | queue driven =>
      refine ⟨⟨⟨_, List.mem_append_right _ (List.mem_singleton_self _)⟩, ?_⟩, none⟩
      intro n' known'
      cases known.symm.trans known'
      exact driven
  | leave =>
      refine ⟨trivial, fun task new => ?_⟩
      cases List.mem_singleton.1 new
      exact ⟨rfl, executed.append _, trivial⟩
  | route =>
      refine ⟨trivial, fun task new => ?_⟩
      obtain ⟨target, behind, rfl⟩ := List.mem_map.1 new
      refine ⟨rfl, Executed.append _ ?_, trivial⟩
      exact .next executed (.route known (due.2 n known) due.1 behind)
  | _ => exact ⟨trivial, none⟩

theorem CallStep.due (step : CallStep g m t r n began stage stage' e) (known : g.node? id = some n)
    (pending : ∀ {port}, port ∈ (m.cell id).queue.pending → firedIn h id port)
    (executed : Executed g (firedIn h) id) (due : stage.Due g h id) :
    stage'.Due g (h ++ e.deeds) id ∧
      ∀ task ∈ e.spawned, task.run = r ∧ task.work.Due g (h ++ e.deeds) := by
  have none : ∀ {h'}, ∀ task ∈ ([] : List Task), task.run = r ∧ task.work.Due g h' :=
    fun _ new => absurd new (by simp)
  cases step with
  | announce =>
      refine ⟨fun u linked n' known' => ?_, none⟩
      cases known.symm.trans known'
      exact linked
  | skip | seen | unseen =>
      exact ⟨fun u left => due u (List.mem_cons_of_mem _ left), none⟩
  | pull there waits =>
      refine ⟨fun u left => due u (List.mem_cons_of_mem _ left), fun task new => ?_⟩
      cases List.mem_singleton.1 new
      refine ⟨rfl, Executed.append _ ?_, trivial⟩
      exact .next executed (.pull known (due _ List.mem_cons_self n known) waits)
  | work step => exact step.due known executed due
  | close =>
      cases Graph.id_of_node? known
      exact ⟨fun port waits => firedIn_append _ (pending waits), none⟩
  | branch =>
      refine ⟨trivial, fun task new => ?_⟩
      cases List.mem_singleton.1 new
      refine ⟨rfl, fun targets member target behind => Executed.append _ ?_⟩
      cases driven : n.isPortDriven with
      | true =>
          simp only [rounds, driven, if_true] at member
          obtain ⟨port, waits, rfl⟩ := List.mem_map.1 member
          exact .next executed (.route known driven (due port waits) behind)
      | false =>
          simp only [rounds, driven, Bool.false_eq_true, if_false, List.mem_singleton] at member
          exact .next executed (.push known driven (member ▸ behind))
  | _ => exact ⟨trivial, none⟩

/-- Whatever a task goes on to and starts is due when the task was. -/
theorem Transition.due (rule : Transition g m t r work work' e) (confined : m.Confined g first r h)
    (due : work.Due g h) :
    work'.Due g (h ++ e.deeds) ∧
      ∀ task ∈ e.spawned, task.run = r ∧ task.work.Due g (h ++ e.deeds) := by
  have none : ∀ {h'}, ∀ task ∈ ([] : List Task), task.run = r ∧ task.work.Due g h' :=
    fun _ new => absurd new (by simp)
  cases rule with
  | call known step =>
      obtain ⟨stays, starts⟩ := step.due known confined.pending due.1 due.2
      exact ⟨⟨due.1.append _, stays⟩, starts⟩
  | aside known step =>
      obtain ⟨stays, starts⟩ := step.due known due.1 due.2
      exact ⟨⟨due.1.append _, stays⟩, starts⟩
  | round =>
      refine ⟨fun targets member id target => ?_, fun task new => ?_⟩
      · exact (due targets (List.mem_cons_of_mem _ member) id target).append _
      · obtain ⟨id, target, rfl⟩ := List.mem_map.1 new
        exact ⟨rfl, (due _ List.mem_cons_self id target).append _, trivial⟩
  | rested => exact ⟨Work.Due.append _ due, none⟩
  | permit =>
      refine ⟨Work.Due.append _ due, fun task new => ?_⟩
      cases List.mem_singleton.1 new
      exact ⟨rfl, Executed.append _ due, trivial⟩
  | leave => exact ⟨Work.Due.append _ due, none⟩
  | entries =>
      refine ⟨trivial, fun task new => ?_⟩
      obtain ⟨id, start, rfl⟩ := List.mem_map.1 new
      exact ⟨rfl, .entry start⟩
  | joined =>
      refine ⟨trivial, fun task new => ?_⟩
      cases List.mem_singleton.1 new
      exact ⟨rfl, trivial⟩
  | _ => exact ⟨trivial, none⟩

section Step

variable (confined : m.Confined g first r h) (here : m.tasks[t]? = some ⟨j, work⟩)
  (rule : Transition g m t j work work' e) (after : After m t j work' e m')
include confined here rule after

theorem Confined.step_tasks {task : Task} (there : m'.tasks[k]? = some task) :
    (k < first ∧ task.isDone = true) ∨ task.work.Harmless g ∨
      (first ≤ k ∧ task.run = r ∧ task.work.Due g (h ++ e.deeds)) := by
  obtain ⟨rfl, rfl⟩ | ⟨-, old, before, rfl⟩ | ⟨late, new⟩ := after.cases there
  · obtain ⟨-, done⟩ | harmless | ⟨recent, rfl, due⟩ := confined.tasks here
    · cases rule.not_done.symm.trans done
    · exact .inr (.inl (rule.harmless harmless).1)
    · exact .inr (.inr ⟨recent, rfl, (rule.due confined due).1⟩)
  · rw [Task.isDone_granted, Task.granted_run]
    obtain done | harmless | ⟨recent, same, due⟩ := confined.tasks before
    · exact .inl done
    · rw [Task.granted_of_not_launch _ _ harmless.not_launch]
      exact .inr (.inl harmless)
    · rw [Work.due_granted]
      exact .inr (.inr ⟨recent, same, due.append _⟩)
  · have member := List.mem_of_getElem? new
    obtain ⟨-, done⟩ | harmless | ⟨-, rfl, due⟩ := confined.tasks here
    · cases rule.not_done.symm.trans done
    · exact .inr (.inl ((rule.harmless harmless).2.1 task member))
    · exact .inr (.inr ⟨Nat.le_trans confined.bound late, (rule.due confined due).2 task member⟩)

theorem Confined.step_results {d : Document} (has : (m'.cell id).result = some d) :
    Executed g (firedIn (h ++ e.deeds)) id ∧ (g.node? id).isSome = true := by
  rw [after.cell] at has
  obtain same | ⟨d', stored, -⟩ := rule.result id
  · obtain ⟨executed, known⟩ := confined.results (same.symm.trans has)
    exact ⟨executed.append _, known⟩
  · obtain ⟨-, began, began', rfl, rfl⟩ := rule.of_stored stored
    cases rule with
    | call known step =>
        obtain ⟨-, done⟩ | harmless | ⟨-, -, due⟩ := confined.tasks here
        · cases done
        · exact harmless.elim
        · exact ⟨due.1.append _, by rw [known]; rfl⟩

/-- A step stays within what the history accounts for. -/
theorem Confined.step : m'.Confined g first r (h ++ e.deeds) where
  bound := by
    rw [after.size]
    exact Nat.le_trans confined.bound (Nat.le_add_right _ _)
  tasks := confined.step_tasks here rule after
  results := confined.step_results here rule after
  pending := by
    intro id port waits
    rw [after.cell] at waits
    obtain old | deed := rule.pending waits
    · exact firedIn_append _ (confined.pending old)
    · exact ⟨true, List.mem_append_right _ deed⟩

end Step

variable {execution : ExecutionId} {inputs : RunInputs}

/-- A task of a run that is about to be launched: it is old and done, or the launch. -/
theorem launched_task {task : Task} (here : (m.launched g execution inputs).tasks[k]? = some task) :
    (k < m.nextTask ∧ m.tasks[k]? = some task) ∨
      (k = m.nextTask ∧ task = ⟨m.nextRun, .launch g.maxEntries .announce⟩) := by
  rw [launched, tasks_begin] at here
  by_cases old : k < m.nextTask
  · rw [if_pos old] at here
    exact .inl ⟨old, here⟩
  · rw [if_neg old] at here
    cases index : k - m.nextTask with
    | zero =>
        rw [index] at here
        cases here
        exact .inr ⟨Nat.le_antisymm (Nat.sub_eq_zero_iff_le.1 index) (Nat.le_of_not_lt old), rfl⟩
    | succ i =>
        rw [index] at here
        cases here

/-- Nothing but the launch is there of a run that is about to be launched. -/
theorem launched_only {task : Task} (recent : m.nextTask ≤ k)
    (here : (m.launched g execution inputs).tasks[k]? = some task) :
    k = m.nextTask ∧ task = ⟨m.nextRun, .launch g.maxEntries .announce⟩ := by
  obtain ⟨old, -⟩ | found := launched_task here
  · exact absurd old (Nat.not_lt_of_le recent)
  · exact found

theorem AtRest.confined (rest : m.AtRest g) :
    (m.launched g execution inputs).Confined g m.nextTask m.nextRun [] where
  bound := by
    rw [launched, size_begin]
    exact Nat.le_add_right _ _
  tasks := by
    intro k task here
    obtain ⟨old, there⟩ | ⟨rfl, rfl⟩ := launched_task here
    · obtain done | harmless := rest.done k task there
      · exact .inl ⟨old, done⟩
      · exact .inr (.inl harmless)
    · exact .inr (.inr ⟨Nat.le_refl _, rfl, trivial⟩)
  results := by
    intro id d has
    rw [launched, cell_begin] at has
    cases has
  pending := by
    intro id port waits
    rw [launched, cell_begin] at waits
    cases waits

/-- A run that is launched never leaves what its history accounts for. -/
theorem AtRest.confined_exec (rest : m.AtRest g) (schedule : List Move) :
    ((m.launched g execution inputs).exec g schedule).Confined g m.nextTask m.nextRun
      ((m.launched g execution inputs).history g schedule) := by
  refine run_induction (P := fun h m' => m'.Confined g m.nextTask m.nextRun h) schedule ?_ ?_
    rest.confined
  · intro h m' t j work work' e m'' confined here rule after
    exact confined.step here rule after
  · intro h m' now _ confined
    exact { confined with }

/-- A node has a result, or is being called by a task from the number `first` on. -/
def Ran (m : Machine) (first : TaskId) (id : NodeId) : Prop :=
  (∃ d, (m.cell id).result = some d) ∨ ∃ r k stage, first ≤ k ∧ m.Calling r k id stage

/-- Nothing runs that the run does not reach. -/
theorem Confined.executed (confined : m.Confined g first r h) (ran : m.Ran first id) :
    Executed g (firedIn h) id := by
  obtain ⟨d, has⟩ | ⟨j, k, stage, recent, began, here⟩ := ran
  · exact (confined.results has).1
  · obtain ⟨old, -⟩ | harmless | ⟨-, -, due⟩ := confined.tasks here
    · exact absurd old (Nat.not_lt_of_le recent)
    · exact harmless.elim
    · exact due.1

end Machine
end Flowgraph
