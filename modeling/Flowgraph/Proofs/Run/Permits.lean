/- # Flowgraph.Proofs.Run.Permits -- the permits of a launch

An entry takes a permit of its launch when it starts to run, and gives it back when it is
through.  So no permit is lost or made: what a launch has and what its entries hold always
add up to as many as the graph allows (`After.balance`).

The semaphore that counts the permits is not the engine's own.  It holds `maxPermits` of them,
and panics when it is made with more or when one too many is given back (`Machine.panics`).
A graph that allows no more than that never makes it panic (`AtRest.never_panics`); one that
allows more makes it panic as soon as it is launched (`launched_panics_iff`).
-/
import Flowgraph.Proofs.Run.Deeds

set_option autoImplicit false

namespace Flowgraph

/-- Whether a task holds a permit of the launch. -/
def Task.holdsPermitOf (launch : TaskId) (t : Task) : Bool :=
  match t.work with
  | .entry l _ (.running _) => l == launch
  | _ => false

theorem Task.holdsPermitOf_granted (launch : TaskId) (grant : Option (TaskId × Nat)) (k : TaskId)
    (task : Task) : (task.granted grant k).holdsPermitOf launch = task.holdsPermitOf launch :=
  view_granted (holdsPermitOf launch) (fun _ _ _ _ => rfl) grant k task

/-- The launch whose semaphore the task with the number `k` makes, or takes a permit of. -/
def Work.draws (k : TaskId) : Work → Option TaskId
  | .launch _ _ => some k
  | .entry l _ _ => some l
  | _ => none

theorem Task.draws_granted (grant : Option (TaskId × Nat)) (k : TaskId) (task : Task) :
    (task.granted grant k).work.draws k = task.work.draws k :=
  view_granted (fun task => task.work.draws k) (fun _ _ _ _ => rfl) grant k task

namespace Machine

variable {g : Graph} {m m' : Machine} {t k launch : TaskId} {r j : RunId} {id : NodeId} {n : Nat}
  {stage : LaunchStage} {work work' : Work} {e : Effect}

/-! ## Counting tasks -/

theorem count_eq_zero (view : Task → Bool) (none : ∀ (k : TaskId) (task : Task),
    m.tasks[k]? = some task → view task = false) : (m.tasks.toList.map view).count true = 0 := by
  rw [List.count_eq_zero]
  intro holds
  obtain ⟨task, member, held⟩ := List.mem_map.1 holds
  obtain ⟨k, here⟩ := List.getElem?_of_mem member
  rw [Array.getElem?_toList] at here
  cases (none k task here).symm.trans held

/-- A step changes a count of tasks by the task that takes it and by those that it starts. -/
theorem After.count (view : Task → Bool)
    (blind : ∀ grant k task, view (task.granted grant k) = view task)
    (after : After m t r work' e m') (here : m.tasks[t]? = some ⟨r, work⟩) :
    (m'.tasks.toList.map view).count true + (if view ⟨r, work⟩ then 1 else 0) =
      (m.tasks.toList.map view).count true + (if view ⟨r, work'⟩ then 1 else 0) +
        (e.spawned.map view).count true := by
  obtain ⟨small, held⟩ := getElem_map_tasks view here
  have some := List.boole_getElem_le_count (a := true) small
  rw [held] at some
  rw [after.map_tasks view blind here, List.count_append, List.count_set small, held]
  generalize (m.tasks.toList.map view).count true = before at some ⊢
  cases holds : view ⟨r, work⟩ with
  | false => cases view ⟨r, work'⟩ <;> simp
  | true =>
      have positive : 1 ≤ before := by simpa [holds] using some
      cases view ⟨r, work'⟩ <;> simp <;> omega

/-- How many tasks hold a permit of a launch. -/
def holdersOf (m : Machine) (launch : TaskId) : Nat :=
  (m.tasks.toList.map (Task.holdsPermitOf launch)).count true

theorem holdersOf_eq_zero (none : ∀ (k : TaskId) j id call,
    m.tasks[k]? ≠ some (⟨j, .entry launch id (.running call)⟩ : Task)) :
    m.holdersOf launch = 0 := by
  refine count_eq_zero (Task.holdsPermitOf launch) fun k ⟨j, work⟩ here => ?_
  cases work with
  | entry l id stage =>
      cases stage with
      | running call =>
          have other : l ≠ launch := by
            rintro rfl
            exact none k j id call here
          simp [Task.holdsPermitOf, other]
      | _ => rfl
  | _ => rfl

theorem holdersOf_pos {call : TaskId}
    (here : m.tasks[k]? = some ⟨j, .entry launch id (.running call)⟩) : 0 < m.holdersOf launch := by
  have member := Array.mem_toList_iff.2 (Array.mem_of_getElem? here)
  exact List.count_pos_iff.2 (List.mem_map.2 ⟨_, member, by simp [Task.holdsPermitOf]⟩)

/-! ## The balance of a launch -/

theorem permits_of_launchAt (here : m.tasks[k]? = some ⟨r, .launch n stage⟩) : m.permits k = n := by
  simp [Machine.permits, here]

section Step

variable (here : m.tasks[t]? = some ⟨r, work⟩) (rule : Transition g m t r work work' e)
  (after : After m t r work' e m')

include here after in
theorem After.holdersOf (launch : TaskId) :
    m'.holdersOf launch + (if Task.holdsPermitOf launch ⟨r, work⟩ then 1 else 0) =
      m.holdersOf launch + (if Task.holdsPermitOf launch ⟨r, work'⟩ then 1 else 0) +
        (e.spawned.map (Task.holdsPermitOf launch)).count true :=
  after.count _ (Task.holdsPermitOf_granted launch) here

include rule

/-- What is started holds no permit yet. -/
theorem Transition.spawned_holdsOf (launch : TaskId) :
    (e.spawned.map (Task.holdsPermitOf launch)).count true = 0 := by
  rw [List.count_eq_zero]
  intro holds
  obtain ⟨task, member, held⟩ := List.mem_map.1 holds
  obtain ⟨index, new⟩ := List.getElem?_of_mem member
  cases rule.spawnedAt new <;> cases held

/-- A permit of a launch is taken by an entry that starts to run, and given back by one that is
through. -/
theorem Transition.permits (launch : TaskId) :
    (e.grant.elim (m.permits launch) fun grant =>
        if launch = grant.1 then grant.2 else m.permits launch) +
      (if Task.holdsPermitOf launch ⟨r, work'⟩ then 1 else 0) =
    m.permits launch + (if Task.holdsPermitOf launch ⟨r, work⟩ then 1 else 0) := by
  cases rule with
  | call known step =>
      cases step with
      | work step => cases step <;> rfl
      | _ => rfl
  | aside known step => cases step <;> rfl
  | @permit l id n permits =>
      by_cases same : launch = l
      · subst same
        simp [Task.holdsPermitOf, permits]
      · simp [Task.holdsPermitOf, same, Ne.symm same]
  | @leave l id k done =>
      by_cases same : launch = l
      · subst same
        simp [Task.holdsPermitOf]
      · simp [Task.holdsPermitOf, same, Ne.symm same]
  | _ => rfl

/-- A task makes a semaphore or draws on one all its life, and it is always the same. -/
theorem Transition.draws : work'.draws t = work.draws t := by
  cases rule <;> rfl

include here after

theorem After.permits (there : m.tasks[k]? = some ⟨j, .launch n stage⟩) :
    m'.permits k = e.grant.elim (m.permits k) fun grant =>
      if k = grant.1 then grant.2 else m.permits k := by
  by_cases mine : k = t
  · subst mine
    cases here.symm.trans there
    rw [permits_of_launchAt there]
    cases rule <;> exact permits_of_launchAt after.here
  · have stands := after.tasks k
    rw [if_neg mine, if_pos (lt_size_of_tasks there), there] at stands
    rw [permits_of_launchAt there]
    cases grant : e.grant with
    | none =>
        rw [grant] at stands
        exact permits_of_launchAt stands
    | some given =>
        obtain ⟨l, p⟩ := given
        rw [grant] at stands
        simp only [Option.map_some, Task.granted] at stands
        by_cases same : k = l
        · rw [if_pos same] at stands
          simp [same, ← permits_of_launchAt stands]
        · rw [if_neg same] at stands
          simp [same, ← permits_of_launchAt stands]

/-- A launch has its permits, or its entries hold them. -/
theorem After.balance (there : m.tasks[k]? = some ⟨j, .launch n stage⟩) :
    m'.permits k + m'.holdersOf k = m.permits k + m.holdersOf k := by
  have held := after.holdersOf here k
  have given := rule.permits k
  rw [rule.spawned_holdsOf] at held
  rw [← after.permits here rule there] at given
  omega

end Step

/-- A launch has as many permits as the graph allows, but for those that its entries hold. -/
def Balanced (g : Graph) (m : Machine) (launch : TaskId) : Prop :=
  ∃ j n stage, m.tasks[launch]? = some ⟨j, .launch n stage⟩ ∧ n + m.holdersOf launch = g.maxEntries

/-- The permits of every launch that is at work, or has entries at work, are balanced, and a
semaphore holds as many as the graph allows. -/
def Furnished (g : Graph) (m : Machine) : Prop :=
  ∀ (k : TaskId) (task : Task), m.tasks[k]? = some task → task.isDone = false →
    ∀ launch, task.work.draws k = some launch → m.Balanced g launch ∧ g.maxEntries ≤ maxPermits

section Step

variable (here : m.tasks[t]? = some ⟨r, work⟩) (rule : Transition g m t r work work' e)
  (after : After m t r work' e m')
include here rule after

theorem Balanced.step (balanced : m.Balanced g launch) : m'.Balanced g launch := by
  obtain ⟨j, n, stage, there, balance⟩ := balanced
  have stands : ∃ j n stage, m'.tasks[launch]? = some ⟨j, .launch n stage⟩ := by
    by_cases mine : launch = t
    · subst mine
      cases here.symm.trans there
      cases rule <;> exact ⟨_, _, _, after.here⟩
    · obtain ⟨n', stands⟩ := after.launch_kept mine there
      exact ⟨j, n', stage, stands⟩
  obtain ⟨j', n', stage', stands⟩ := stands
  refine ⟨j', n', stage', stands, ?_⟩
  rw [← permits_of_launchAt stands, after.balance here rule there, permits_of_launchAt there,
    balance]

theorem Furnished.step (furnished : m.Furnished g) : m'.Furnished g := by
  intro k task there undone launch draws
  suffices before : m.Balanced g launch ∧ g.maxEntries ≤ maxPermits from
    before.imp_left fun balanced => balanced.step here rule after
  obtain ⟨rfl, rfl⟩ | ⟨-, old, was, rfl⟩ | ⟨-, new⟩ := after.cases there
  · exact furnished k _ here rule.not_done launch (rule.draws.symm.trans draws)
  · rw [Task.isDone_granted] at undone
    rw [Task.draws_granted] at draws
    exact furnished k old was undone launch draws
  · -- only a launch starts a task that takes a permit, and it takes the launch's own
    cases rule.spawnedAt new with
    | entry =>
        cases draws
        exact furnished t _ here rfl t rfl
    | _ => cases draws

end Step

/-! ## A run from its beginning -/

section Begin

variable {execution : ExecutionId} {inputs : RunInputs} {requests : List Request}

/-- Nobody holds a permit when a run begins on a graph at rest. -/
theorem AtRest.holdersOf (rest : m.AtRest g) (launch : TaskId) :
    (m.begin g execution inputs requests).holdersOf launch = 0 := by
  refine holdersOf_eq_zero fun k j id call here => ?_
  obtain ⟨-, old⟩ | ⟨-, q, -, made⟩ := begun_task here
  · obtain done | harmless := rest.done k _ old
    · cases done
    · exact harmless.elim
  · cases q <;> cases made

theorem AtRest.balanced (rest : m.AtRest g)
    (here : (m.begin g execution inputs requests).tasks[k]? =
      some ⟨j, .launch g.maxEntries stage⟩) :
    (m.begin g execution inputs requests).Balanced g k :=
  ⟨j, g.maxEntries, stage, here, by rw [rest.holdersOf, Nat.add_zero]⟩

theorem AtRest.furnished (rest : m.AtRest g)
    (room : .launch ∈ requests → g.maxEntries ≤ maxPermits) :
    (m.begin g execution inputs requests).Furnished g := by
  intro k task here undone launch draws
  obtain ⟨-, old⟩ | ⟨-, q, asked, rfl⟩ := begun_task here
  · obtain done | harmless := rest.done k task old
    · cases undone.symm.trans done
    · generalize task.work = work at harmless draws
      cases work with
      | aside => cases draws
      | _ => exact harmless.elim
  · cases q with
    | launch =>
        cases draws
        exact ⟨rest.balanced here, room asked⟩
    | _ => cases draws

/-! ## The semaphore -/

/-- Where the permits are balanced, and a semaphore holds as many as the graph allows, none
panics. -/
theorem Furnished.panics (furnished : m.Furnished g) (t : TaskId) : m.panics t = false := by
  unfold Machine.panics
  split
  · rename_i j n here
    obtain ⟨⟨_, n', _, there, balance⟩, room⟩ := furnished t _ here rfl t rfl
    cases here.symm.trans there
    exact decide_eq_false (by omega)
  · rename_i j launch id call here
    obtain ⟨⟨_, n, _, there, balance⟩, room⟩ := furnished t _ here rfl launch rfl
    have held := holdersOf_pos here
    rw [permits_of_launchAt there, decide_eq_false (by omega : ¬ maxPermits ≤ n), Bool.and_false]
  · rfl

/-- A launch makes its semaphore after it has been announced, and panics there when the graph
allows more permits than a semaphore holds. -/
theorem launched_panics_iff :
    ((m.launched g execution inputs).exec g [.step m.nextTask]).panics m.nextTask = true ↔
      maxPermits < g.maxEntries := by
  have here : (m.launched g execution inputs).tasks[m.nextTask]? =
      some ⟨m.nextRun, .launch g.maxEntries .announce⟩ := by
    rw [launched, tasks_begin, if_neg (Nat.lt_irrefl _), Nat.sub_self]
    rfl
  have stepped : (m.launched g execution inputs).step g m.nextTask =
      some (((m.launched g execution inputs).emit m.nextRun
        (.run (.started g.id g.entries))).setWork m.nextTask (.launch g.maxEntries .spawn)) := by
    simp [step, here, stepLaunch]
  obtain ⟨r, work, work', e, there, rule, after, -⟩ := step_cases stepped
  cases here.symm.trans there
  cases rule with
  | opened => simp [exec, move, stepped, Machine.panics, after.here]

end Begin

end Machine
end Flowgraph
