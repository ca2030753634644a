/- # Flowgraph.Proofs.Run.Settling -- what settling waits for

Settling takes the fan-out tasks that a run keeps track of, waits for them, and looks again; it is
over when it finds none.  Any number of tasks may settle one run at the same time.  What one of
them has taken nobody else sees: another one that looks meanwhile may find nothing and return
while the fan-out is at work (`second_settling_returns_early`).

That is all that can go wrong.  A fan-out task that is not done is kept track of by its run or is
in the batch of a task that settles the run (`Kept`), and whatever else a task starts it waits for
(`Minds`).  So if no other task holds an unfinished batch when a settling finds nothing left, all
the fan-out of the run is done, and all that it has triggered; and what is done triggers nothing
any more (`settling_waits_for_all`).  Work that a function left behind belongs to nobody.
-/
import Mathlib.Logic.Relation
import Flowgraph.Proofs.Run.Settled
import Flowgraph.Proofs.Run.Overlap

set_option autoImplicit false

namespace Flowgraph

/-- The targets of a port that was fired late, the task `k` among them, are being run. -/
def Execution.Expects (k : TaskId) : Execution → Prop
  | .routed ts _ => k ∈ ts
  | _ => False

/-- The task `k` must be done before this work goes on. -/
def Work.Expects (k : TaskId) : Work → Prop
  | .call _ _ (.gather fetched _) => .awaited k ∈ fetched
  | .call _ _ (.join fetched) => .awaited k ∈ fetched
  | .call _ _ (.run _ x) => x.Expects k
  | .fanOut _ _ waiting => k ∈ waiting
  | .aside _ x => x.Expects k
  | .entry _ _ (.running c) => c = k
  | .launch _ (.join ts) => k ∈ ts
  | .launch _ (.settle s) => s = k
  | _ => False

theorem Work.Expects.not_done {k : TaskId} {r : RunId} {work : Work} (expects : work.Expects k) :
    Task.isDone ⟨r, work⟩ = false := by
  cases work with
  | call id began stage => cases stage <;> first | rfl | exact expects.elim
  | fanOut id rounds waiting =>
      cases waiting with
      | nil => cases expects
      | cons w rest => cases rounds <;> rfl
  | aside id x => cases x <;> first | rfl | exact expects.elim
  | entry launch id stage => cases stage <;> first | rfl | exact expects.elim
  | launch permits stage => cases stage <;> first | rfl | exact expects.elim
  | settle stage => exact expects.elim

theorem Task.expects_granted (grant : Option (TaskId × Nat)) (j k : TaskId) (task : Task) :
    (task.granted grant j).work.Expects k = task.work.Expects k :=
  view_granted (fun task => task.work.Expects k) (fun _ _ _ stage => by cases stage <;> rfl)
    grant j task

/-- Whether a task settles a run. -/
def Work.isSettling : Work → Bool
  | .settle _ => true
  | _ => false

namespace Machine

variable {g : Graph} {m m' : Machine} {t k c f s : TaskId} {r j : RunId} {n : Node} {id : NodeId}
  {x x' : Execution} {work work' : Work} {e : Effect} {now : Instant} {acts first : List Act}
  {execution : ExecutionId} {inputs : RunInputs} {requests : List Request}

/-! ## Tasks and those that started them -/

/-- The task `k` runs what lies behind a node, in the run `r`. -/
def FanningOut (m : Machine) (r : RunId) (k : TaskId) : Prop :=
  ∃ id rounds waiting, m.tasks[k]? = some ⟨r, .fanOut id rounds waiting⟩

/-- The tasks `t` and `k` are of the run `r`.  The one is fan-out, or done, or the other has to
wait for it. -/
structure Minds (m : Machine) (r : RunId) (t k : TaskId) : Prop where
  parent : m.tasks[t]?.map Task.run = some r
  child : m.tasks[k]?.map Task.run = some r
  waits : m.FanningOut r k ∨ m.isDone k = true ∨
    ∃ task, m.tasks[t]? = some task ∧ task.work.Expects k

theorem ExecutionStep.expects_new (step : ExecutionStep m r n x x' e) {i : Nat} {task : Task}
    (new : e.spawned[i]? = some task) (triggered : task.isAside = false) :
    x'.Expects (m.tasks.size + i) := by
  have member := List.mem_of_getElem? new
  cases step with
  | leave =>
      cases List.mem_singleton.1 member
      cases triggered
  | @route port next =>
      obtain ⟨small, -⟩ := List.getElem?_eq_some_iff.1 new
      rw [List.length_map] at small
      exact List.mem_range'.2 ⟨i, small, by rw [Nat.one_mul]⟩
  | _ => simp at new

/-- A task waits until what it expects is done. -/
theorem Transition.expects (rule : Transition g m t r work work' e) (expects : work.Expects k) :
    work'.Expects k ∨ m.isDone k = true := by
  cases rule with
  | call known step =>
      cases step with
      | asked => exact .inl expects
      | skip | seen | unseen | pull => exact .inl (List.mem_append_left _ expects)
      | join all => exact .inr (List.all_eq_true.1 all _ expects)
      | work step =>
          cases step with
          | arrive all => exact .inr (List.all_eq_true.1 all _ expects)
          | _ => exact expects.elim
      | _ => exact expects.elim
  | aside known step =>
      cases step with
      | arrive all => exact .inr (List.all_eq_true.1 all _ expects)
      | _ => exact expects.elim
  | round => cases expects
  | rested all => exact .inr (List.all_eq_true.1 all _ expects)
  | leave done | finished done =>
      cases expects
      exact .inr done
  | joined all => exact .inr (List.all_eq_true.1 all _ expects)
  | _ => exact expects.elim

/-- What a task starts is fan-out, or work left behind, or something that it waits for. -/
theorem Transition.expects_new (rule : Transition g m t r work work' e) {i : Nat} {task : Task}
    (new : e.spawned[i]? = some task) (triggered : task.isAside = false) :
    (∃ id rounds waiting, task = ⟨r, .fanOut id rounds waiting⟩) ∨
      work'.Expects (m.tasks.size + i) := by
  have member := List.mem_of_getElem? new
  have listed : ∀ {ids : List NodeId} {made : NodeId → Task}, (ids.map made)[i]? = some task →
      m.tasks.size + i ∈ List.range' m.tasks.size ids.length := by
    intro ids made here
    obtain ⟨small, -⟩ := List.getElem?_eq_some_iff.1 here
    rw [List.length_map] at small
    exact List.mem_range'.2 ⟨i, small, by rw [Nat.one_mul]⟩
  have alone : ∀ {made : Task}, [made][i]? = some task → i = 0 ∧ made = task := by
    intro made here
    cases i with
    | zero => exact ⟨rfl, Option.some.inj here⟩
    | succ i => cases here
  cases rule with
  | call known step =>
      cases step with
      | work step => exact .inr (step.expects_new new triggered)
      | pull =>
          obtain ⟨rfl, -⟩ := alone new
          exact .inr (List.mem_append_right _ (List.mem_singleton_self _))
      | branch =>
          obtain ⟨-, rfl⟩ := alone new
          exact .inl ⟨_, _, _, rfl⟩
      | _ => simp at new
  | aside known step => exact .inr (step.expects_new new triggered)
  | round | entries => exact .inr (listed new)
  | permit | joined =>
      obtain ⟨rfl, -⟩ := alone new
      exact .inr rfl
  | _ => simp at new

/-! ## What the acts of a session keep -/

theorem tasks_begin_old {task : Task} (here : m.tasks[k]? = some task) :
    (m.begin g execution inputs requests).tasks[k]? = some task := by
  have early : k < m.nextTask := lt_size_of_tasks here
  rw [tasks_begin, if_pos early]
  exact here

theorem run?_begin_old {run : RunRecord} (running : m.run? j = some run) :
    (m.begin g execution inputs requests).run? j = some run := by
  have small : j < m.runs.length := (List.getElem?_eq_some_iff.1 running).1
  exact (List.getElem?_append_left small).trans running

theorem isDone_begin (done : m.isDone k = true) :
    (m.begin g execution inputs requests).isDone k = true := by
  cases here : m.tasks[k]? with
  | none => simp [isDone, here] at done
  | some task =>
      simp only [isDone, here] at done
      simp only [isDone, tasks_begin_old here, done]

/-- What is done stays done. -/
theorem isDone_acts (done : m.isDone k = true) (acts : List Act) :
    (acts.foldl (act g) m).isDone k = true := by
  refine acts_induction (P := fun m => m.isDone k = true) ?_ ?_ ?_ done acts
  · intro m execution inputs requests done
    exact isDone_begin done
  · intro m t r work work' e m' done here rule after
    exact after.isDone here rule done
  · intro m now done
    exact done

theorem After.fanningOut (after : After m t r work' e m') (here : m.tasks[t]? = some ⟨r, work⟩)
    (rule : Transition g m t r work work' e) (fans : m.FanningOut j k) : m'.FanningOut j k := by
  obtain ⟨id, rounds, waiting, there⟩ := fans
  by_cases mine : k = t
  · subst mine
    cases here.symm.trans there
    cases rule <;> exact ⟨_, _, _, after.here⟩
  · exact ⟨id, rounds, waiting, after.kept mine rfl there⟩

theorem fanningOut_begin (fans : m.FanningOut j k) :
    (m.begin g execution inputs requests).FanningOut j k := by
  obtain ⟨id, rounds, waiting, there⟩ := fans
  exact ⟨id, rounds, waiting, tasks_begin_old there⟩

theorem fanningOut_acts (fans : m.FanningOut j k) (acts : List Act) :
    (acts.foldl (act g) m).FanningOut j k := by
  refine acts_induction (P := fun m => m.FanningOut j k) ?_ ?_ ?_ fans acts
  · intro m execution inputs requests fans
    exact fanningOut_begin fans
  · intro m t r work work' e m' fans here rule after
    exact after.fanningOut here rule fans
  · intro m now fans
    exact fans

theorem taskRun_begin (of : m.tasks[k]?.map Task.run = some j) :
    (m.begin g execution inputs requests).tasks[k]?.map Task.run = some j := by
  obtain ⟨task, there, same⟩ := Option.map_eq_some_iff.1 of
  rw [tasks_begin_old there, Option.map_some, same]

theorem After.taskRun (after : After m t r work' e m') (here : m.tasks[t]? = some ⟨r, work⟩)
    (of : m.tasks[k]?.map Task.run = some j) : m'.tasks[k]?.map Task.run = some j := by
  obtain ⟨task, there, rfl⟩ := Option.map_eq_some_iff.1 of
  rw [after.tasks]
  by_cases mine : k = t
  · subst mine
    rw [if_pos rfl]
    cases here.symm.trans there
    rfl
  · rw [if_neg mine, if_pos (lt_size_of_tasks there), there]
    simp [Task.granted_run]

theorem Minds.step (minds : m.Minds j c k) (here : m.tasks[t]? = some ⟨r, work⟩)
    (rule : Transition g m t r work work' e) (after : After m t r work' e m') : m'.Minds j c k where
  parent := after.taskRun here minds.parent
  child := after.taskRun here minds.child
  waits := by
    rcases minds.waits with fans | done | ⟨task, there, expects⟩
    · exact .inl (after.fanningOut here rule fans)
    · exact .inr (.inl (after.isDone here rule done))
    · by_cases mine : c = t
      · subst mine
        cases here.symm.trans there
        rcases rule.expects expects with still | done
        · exact .inr (.inr ⟨_, after.here, still⟩)
        · exact .inr (.inl (after.isDone here rule done))
      · refine .inr (.inr ⟨task.granted e.grant c, ?_, ?_⟩)
        · rw [after.tasks, if_neg mine, if_pos (lt_size_of_tasks there), there, Option.map_some]
        · rw [Task.expects_granted]
          exact expects

theorem Minds.later (minds : m.Minds j c k) (acts : List Act) :
    (acts.foldl (act g) m).Minds j c k := by
  refine acts_induction (P := fun m => m.Minds j c k) ?_ ?_ ?_ minds acts
  · intro m execution inputs requests minds
    refine ⟨taskRun_begin minds.parent, taskRun_begin minds.child, ?_⟩
    rcases minds.waits with fans | done | ⟨task, there, expects⟩
    · exact .inl (fanningOut_begin fans)
    · exact .inr (.inl (isDone_begin done))
    · exact .inr (.inr ⟨task, tasks_begin_old there, expects⟩)
  · intro m t r work work' e m' minds here rule after
    exact minds.step here rule after
  · intro m now minds
    exact ⟨minds.parent, minds.child, minds.waits⟩

/-- In the course of the acts a step of the task `t` starts the task `k`, and not as work that is
left behind. -/
def Triggers (g : Graph) (now : Instant) (acts : List Act) (t k : TaskId) : Prop :=
  ∃ first task, first ++ [.move (.step t)] <+: acts ∧ (session g now first).tasks.size ≤ k ∧
    (session g now (first ++ [.move (.step t)])).tasks[k]? = some task ∧ task.isAside = false

/-- A task minds what it triggers. -/
theorem Triggers.minds (triggers : Triggers g now acts t k) :
    ∃ r, (session g now acts).Minds r t k := by
  obtain ⟨first, task, ⟨rest, rfl⟩, new, there, triggered⟩ := triggers
  rw [session_append]
  rw [session_step] at there ⊢
  cases stepped : (session g now first).step g t with
  | none =>
      rw [stepped, Option.getD_none] at there
      exact absurd (lt_size_of_tasks there) (Nat.not_lt_of_le new)
  | some m' =>
      rw [stepped, Option.getD_some] at there
      obtain ⟨r, work, work', e, here, rule, after, -⟩ := step_cases stepped
      have other : k ≠ t := Nat.ne_of_gt (Nat.lt_of_lt_of_le (lt_size_of_tasks here) new)
      have spawned : e.spawned[k - (session g now first).tasks.size]? = some task := by
        rw [after.tasks, if_neg other, if_neg (Nat.not_lt_of_le new)] at there
        exact there
      have ofRun : task.run = r := by cases rule.spawnedAt spawned <;> rfl
      refine ⟨r, Minds.later ⟨?_, ?_, ?_⟩ rest⟩
      · rw [Option.getD_some, after.here]
        rfl
      · rw [Option.getD_some, there, Option.map_some, ofRun]
      · rcases rule.expects_new spawned triggered with ⟨id, rounds, waiting, rfl⟩ | expects
        · exact .inl ⟨id, rounds, waiting, there⟩
        · rw [Nat.add_sub_cancel' new] at expects
          exact .inr (.inr ⟨_, after.here, expects⟩)

/-! ## Fan-out that is kept track of -/

/-- The task `s` settles the run `r`, and stands at a stage. -/
def Settles (m : Machine) (r : RunId) (s : TaskId) (stage : SettleStage) : Prop :=
  m.tasks[s]? = some ⟨r, .settle stage⟩

/-- A fan-out task that is not done is kept track of by its run, or it is in the batch of a task
that settles the run. -/
structure Kept (m : Machine) : Prop where
  running : ∀ {k : TaskId} {task : Task}, m.tasks[k]? = some task →
    ∃ run, m.run? task.run = some run
  fanOuts : ∀ {k j}, m.FanningOut j k → m.isDone k = false →
    (∃ run, m.run? j = some run ∧ k ∈ run.fanOut) ∨
      ∃ s batch, m.Settles j s (.join batch) ∧ k ∈ batch

namespace Kept

variable (kept : m.Kept)
include kept

section Step

variable (here : m.tasks[t]? = some ⟨r, work⟩) (rule : Transition g m t r work work' e)
  (after : After m t r work' e m')
include here rule after

theorem step_running {task : Task} (there : m'.tasks[k]? = some task) :
    ∃ run, m'.run? task.run = some run := by
  have still : ∀ {j run}, m.run? j = some run → ∃ run, m'.run? j = some run := by
    intro j run running
    obtain ⟨run', running', -⟩ := after.running rule running
    exact ⟨run', running'⟩
  obtain ⟨run, running⟩ := kept.running here
  obtain ⟨-, rfl⟩ | ⟨-, old, before, rfl⟩ | ⟨-, new⟩ := after.cases there
  · exact still running
  · obtain ⟨run', running'⟩ := kept.running before
    rw [Task.granted_run]
    exact still running'
  · have ofRun : task.run = r := by cases rule.spawnedAt new <;> rfl
    rw [ofRun]
    exact still running

theorem step_fanOuts (fans : m'.FanningOut j k) (undone : m'.isDone k = false) :
    (∃ run, m'.run? j = some run ∧ k ∈ run.fanOut) ∨
      ∃ s batch, m'.Settles j s (.join batch) ∧ k ∈ batch := by
  obtain ⟨id, rounds, waiting, there⟩ := fans
  obtain ⟨_, _, old⟩ | ⟨late, new⟩ := after.fanOut_cases here rule there
  · have undoneBefore : m.isDone k = false := after.undone here rule undone
    rcases kept.fanOuts ⟨_, _, _, old⟩ undoneBefore with
      ⟨run, running, tracked⟩ | ⟨s, batch, joining, member⟩
    · obtain still | ⟨rfl, rfl, batch, rfl, member⟩ := after.tracked rule running tracked
      · exact .inl still
      · exact .inr ⟨t, batch, after.here, member⟩
    · exact .inr ⟨s, batch, after.joining here rule joining member undoneBefore, member⟩
  · obtain ⟨run, running⟩ := kept.running here
    have ofRun : j = r := by cases rule.spawnedAt new; rfl
    subst ofRun
    exact .inl (after.tracked_new rule late new running)

theorem step : m'.Kept where
  running := kept.step_running here rule after
  fanOuts := kept.step_fanOuts here rule after

end Step

theorem begin (execution : ExecutionId) (inputs : RunInputs) (requests : List Request) :
    (m.begin g execution inputs requests).Kept where
  running := by
    intro k task there
    rcases begun_task there with ⟨-, old⟩ | ⟨-, q, -, rfl⟩
    · obtain ⟨run, running⟩ := kept.running old
      exact ⟨run, run?_begin_old running⟩
    · exact ⟨_, run?_begin ..⟩
  fanOuts := by
    rintro k j ⟨id, rounds, waiting, there⟩ undone
    rcases begun_task there with ⟨-, old⟩ | ⟨-, q, -, made⟩
    · have undoneBefore : m.isDone k = false := by
        cases done : m.isDone k with
        | false => rfl
        | true => cases undone.symm.trans (isDone_begin done)
      rcases kept.fanOuts ⟨id, rounds, waiting, old⟩ undoneBefore with
        ⟨run, running, tracked⟩ | ⟨s, batch, joining, member⟩
      · exact .inl ⟨run, run?_begin_old running, tracked⟩
      · exact .inr ⟨s, batch, tasks_begin_old joining, member⟩
    · cases q <;> cases made

/-- When nothing is kept track of and no batch is unfinished, all fan-out of the run is done. -/
theorem all_done {run : RunRecord} (running : m.run? r = some run) (empty : run.fanOut = [])
    (finished : ∀ s batch, m.Settles r s (.join batch) → m.allDone batch = true)
    (fans : m.FanningOut r k) : m.isDone k = true := by
  by_contra undone
  rcases kept.fanOuts fans (by simpa using undone) with
    ⟨run', running', tracked⟩ | ⟨s, batch, joining, member⟩
  · cases running.symm.trans running'
    rw [empty] at tracked
    cases tracked
  · apply undone
    exact List.all_eq_true.1 (finished s batch joining) k member

end Kept

theorem kept_session (now : Instant) (acts : List Act) : (session g now acts).Kept := by
  refine session_induction ?_ ?_ ?_ ?_ acts
  · intro m execution inputs requests kept
    exact kept.begin execution inputs requests
  · intro m t r work work' e m' kept here rule after
    exact kept.step here rule after
  · intro m now kept
    exact ⟨kept.running, kept.fanOuts⟩
  · refine ⟨?_, ?_⟩
    · intro k task here
      simp [new] at here
    · rintro k j ⟨id, rounds, waiting, here⟩
      simp [new] at here

/-! ## Calls that settle a run -/

/-- The task `c` is a call that settles the run `r`, on its own or at the end of a launch, and it
has not begun. -/
def Opens (m : Machine) (r : RunId) (c : TaskId) : Prop :=
  m.Settles r c .take ∨ m.LaunchAt r c .announce

/-- The task `s` settles the run for the call `c`. -/
def SettlesFor (m : Machine) (r : RunId) (c s : TaskId) : Prop :=
  c = s ∨ m.LaunchAt r c (.settle s)

/-- The task `s` looks for fan-out of its run, and there is none to take. -/
def FindsNothing (m : Machine) (r : RunId) (s : TaskId) : Prop :=
  m.Settles r s .take ∧ ∃ run, m.run? r = some run ∧ run.fanOut = []

/-- A call that settles the run `r` has not come to its end; nor has the task that does it for a
launch. -/
inductive Busy (m : Machine) (r : RunId) (c : TaskId) : Prop
  | settle {stage : SettleStage} (settles : m.Settles r c stage) (unfinished : stage ≠ .done)
  | launch {stage : LaunchStage} (stands : m.LaunchAt r c stage) (unfinished : stage ≠ .done)
      (settling : ∀ s, stage = .settle s → ∃ at', m.Settles r s at' ∧ at' ≠ .done)

theorem Opens.busy (opens : m.Opens r c) : m.Busy r c := by
  rcases opens with settles | stands
  · exact .settle settles nofun
  · exact .launch stands nofun nofun

theorem Busy.not_done (busy : m.Busy r c) : m.isDone c = false := by
  cases busy with
  | @settle stage settles unfinished =>
      simp only [isDone, Settles] at settles ⊢
      rw [settles]
      cases stage <;> first | rfl | exact absurd rfl unfinished
  | @launch stage stands unfinished settling =>
      obtain ⟨permits, there⟩ := stands
      simp only [isDone, there]
      cases stage <;> first | rfl | exact absurd rfl unfinished

theorem Busy.begin (busy : m.Busy r c) : (m.begin g execution inputs requests).Busy r c := by
  cases busy with
  | settle settles unfinished => exact .settle (tasks_begin_old settles) unfinished
  | launch stands unfinished settling =>
      obtain ⟨permits, there⟩ := stands
      refine .launch ⟨permits, tasks_begin_old there⟩ unfinished fun s waits => ?_
      obtain ⟨at', settles, unfinished⟩ := settling s waits
      exact ⟨at', tasks_begin_old settles, unfinished⟩

theorem Busy.tick (busy : m.Busy r c) (now : Instant) : Busy { m with now := now } r c := by
  cases busy with
  | settle settles unfinished => exact .settle settles unfinished
  | launch stands unfinished settling => exact .launch stands unfinished settling

/-- A task that settles a run goes on unless it finds nothing. -/
theorem settles_step {stage : SettleStage} (settles : m.Settles j s stage)
    (unfinished : stage ≠ .done) (here : m.tasks[t]? = some ⟨r, work⟩)
    (rule : Transition g m t r work work' e) (after : After m t r work' e m') :
    (t = s ∧ m.FindsNothing j s) ∨ ∃ stage', m'.Settles j s stage' ∧ stage' ≠ .done := by
  by_cases mine : s = t
  · subst mine
    cases here.symm.trans settles
    cases rule with
    | settled running empty => exact .inl ⟨rfl, settles, _, running, empty⟩
    | take => exact .inr ⟨_, after.here, nofun⟩
    | batch => exact .inr ⟨_, after.here, nofun⟩
  · exact .inr ⟨stage, after.kept mine rfl settles, unfinished⟩

theorem settles_acts {stage : SettleStage} (settles : m.Settles j s stage) (acts : List Act) :
    ∃ stage', (acts.foldl (act g) m).Settles j s stage' := by
  refine acts_induction (P := fun m => ∃ stage, m.Settles j s stage) ?_ ?_ ?_ ⟨stage, settles⟩ acts
  · rintro m execution inputs requests ⟨stage, settles⟩
    exact ⟨stage, tasks_begin_old settles⟩
  · rintro m t r work work' e m' ⟨stage, settles⟩ here rule after
    by_cases mine : s = t
    · subst mine
      cases here.symm.trans settles
      cases rule <;> exact ⟨_, after.here⟩
    · exact ⟨stage, after.kept mine rfl settles⟩
  · rintro m now ⟨stage, settles⟩
    exact ⟨stage, settles⟩

theorem Busy.step (busy : m.Busy j c) (here : m.tasks[t]? = some ⟨r, work⟩)
    (rule : Transition g m t r work work' e) (after : After m t r work' e m') :
    (m.SettlesFor j c t ∧ m.FindsNothing j t) ∨ m'.Busy j c := by
  cases busy with
  | settle settles unfinished =>
      rcases settles_step settles unfinished here rule after with
        ⟨rfl, none⟩ | ⟨stage', settles', unfinished'⟩
      · exact .inl ⟨.inl rfl, none⟩
      · exact .inr (.settle settles' unfinished')
  | @launch stage stands unfinished settling =>
      by_cases mine : c = t
      · subst mine
        obtain ⟨permits, there⟩ := stands
        cases here.symm.trans there
        cases rule with
        | opened | entries => exact .inr (.launch ⟨_, after.here⟩ nofun nofun)
        | joined all =>
            refine .inr (.launch ⟨_, after.here⟩ nofun ?_)
            rintro s ⟨⟩
            exact ⟨.take, after.started here (i := 0) rfl, nofun⟩
        | @finished permits s done =>
            obtain ⟨at', settles, goesOn⟩ := settling s rfl
            have busy : m.Busy r s := .settle settles goesOn
            cases busy.not_done.symm.trans done
      · have stays : m'.LaunchAt j c stage := stands.kept after mine
        by_cases waits : ∃ s, stage = .settle s
        · obtain ⟨s, rfl⟩ := waits
          obtain ⟨at', settles, goesOn⟩ := settling s rfl
          rcases settles_step settles goesOn here rule after with ⟨rfl, none⟩ | still
          · exact .inl ⟨.inr stands, none⟩
          · refine .inr (.launch stays unfinished ?_)
            rintro s' ⟨⟩
            exact still
        · refine .inr (.launch stays unfinished fun s same => ?_)
          exact absurd ⟨s, same⟩ waits

/-! ## Everything that was triggered -/

/-- The fan-out tasks of the run that are there after the first acts are done after all, and so is
everything that they trigger. -/
def Calm (g : Graph) (now : Instant) (r : RunId) (first acts : List Act) : Prop :=
  ∀ f, (session g now first).FanningOut r f → ∀ k,
    Relation.ReflTransGen (Triggers g now acts) f k → (session g now acts).isDone k = true

/-- When all fan-out of the run is done, so is what it has triggered. -/
theorem calm_of_all_done {more : List Act}
    (done : ∀ k, (session g now (first ++ more)).FanningOut r k →
      (session g now (first ++ more)).isDone k = true) :
    Calm g now r first (first ++ more) := by
  intro f fans k triggered
  have fans' : (session g now (first ++ more)).FanningOut r f := by
    rw [session_append]
    exact fanningOut_acts fans more
  suffices held : (session g now (first ++ more)).isDone k = true ∧
      (session g now (first ++ more)).tasks[k]?.map Task.run = some r from held.1
  induction triggered with
  | refl =>
      obtain ⟨id, rounds, waiting, there⟩ := fans'
      refine ⟨done f ⟨id, rounds, waiting, there⟩, ?_⟩
      rw [there]
      rfl
  | tail _ next ih =>
      obtain ⟨finished, ofRun⟩ := ih
      obtain ⟨j, minds⟩ := next.minds
      obtain rfl : j = r := Option.some.inj (minds.parent.symm.trans ofRun)
      refine ⟨?_, minds.child⟩
      rcases minds.waits with fanOut | isDone | ⟨task, there, expects⟩
      · exact done _ fanOut
      · exact isDone
      · simp only [isDone, there] at finished
        cases expects.not_done.symm.trans finished

/-- What is done triggers nothing more. -/
theorem Triggers.earlier {last : Act} (triggers : Triggers g now (acts ++ [last]) t k)
    (done : (session g now acts).isDone t = true) : Triggers g now acts t k := by
  obtain ⟨first, task, before, new, there, triggered⟩ := triggers
  rcases List.prefix_concat_iff.1 before with same | before
  · obtain ⟨rfl, rfl⟩ := List.append_singleton_inj.1 same
    have stuck : (session g now first).step g t = none := by
      cases stepped : (session g now first).step g t with
      | none => rfl
      | some m' =>
          obtain ⟨r, work, work', e, here, rule, -, -⟩ := step_cases stepped
          simp only [isDone, here] at done
          cases rule.not_done.symm.trans done
    rw [session_step, stuck, Option.getD_none] at there
    exact absurd (lt_size_of_tasks there) (Nat.not_lt_of_le new)
  · exact ⟨first, task, before, new, there, triggered⟩

theorem Calm.next {last : Act} (calm : Calm g now r first acts) :
    Calm g now r first (acts ++ [last]) := by
  intro f fans k triggered
  suffices earlier : Relation.ReflTransGen (Triggers g now acts) f k by
    rw [session_append]
    exact isDone_acts (calm f fans k earlier) [last]
  induction triggered with
  | refl => exact .refl
  | tail _ next ih => exact ih.tail (next.earlier (calm f fans _ ih))

/-- **A call that settles a run waits for everything.**  Whatever the calls are that are at work on
the run: when such a call returns, the fan-out tasks that were there before it began are done and
so is everything that they trigger, provided that no other task holds an unfinished batch of the
run at the moment when the call finds nothing left to take. -/
theorem settling_waits_for_all {acts : List Act} (opens : (session g now first).Opens r c)
    (alone : ∀ more s, more ++ [.move (.step s)] <+: acts →
      (session g now (first ++ more)).SettlesFor r c s →
      (session g now (first ++ more)).FindsNothing r s →
      ∀ k batch, (session g now (first ++ more)).Settles r k (.join batch) →
        (session g now (first ++ more)).allDone batch = true)
    (returned : (session g now (first ++ acts)).isDone c = true) :
    Calm g now r first (first ++ acts) := by
  suffices way : (session g now (first ++ acts)).Busy r c ∨ Calm g now r first (first ++ acts) by
    rcases way with busy | calm
    · cases busy.not_done.symm.trans returned
    · exact calm
  clear returned
  induction acts using List.reverseRecOn with
  | nil =>
      rw [List.append_nil]
      exact .inl opens.busy
  | append_singleton acts last ih =>
      rw [← List.append_assoc]
      have before := ih fun more s early => alone more s (early.trans (List.prefix_append ..))
      rcases before with busy | calm
      · cases last with
        | start execution inputs requests =>
            rw [session_append]
            exact .inl busy.begin
        | move v =>
            cases v with
            | tick now' =>
                rw [session_append]
                exact .inl (busy.tick now')
            | step t =>
                cases stepped : (session g now (first ++ acts)).step g t with
                | none =>
                    rw [session_step, stepped, Option.getD_none]
                    exact .inl busy
                | some m' =>
                    obtain ⟨r', work, work', e, here, rule, after, -⟩ := step_cases stepped
                    rcases busy.step here rule after with ⟨settles, none⟩ | goesOn
                    · have finished := alone acts t (List.prefix_refl _) settles none
                      obtain ⟨-, run, running, empty⟩ := none
                      have calm : Calm g now r first (first ++ acts) :=
                        calm_of_all_done fun k fans =>
                          (kept_session now _).all_done running empty finished fans
                      exact .inr calm.next
                    · rw [session_step, stepped, Option.getD_some]
                      exact .inl goesOn
      · exact .inr calm.next

/-- A call that settles a run is alone if no two tasks ever settle the run. -/
theorem alone_of_sole {acts : List Act}
    (sole : ∀ k k' stage stage', (session g now (first ++ acts)).Settles r k stage →
      (session g now (first ++ acts)).Settles r k' stage' → k = k')
    (more : List Act) (s : TaskId) (early : more ++ [.move (.step s)] <+: acts)
    (none : (session g now (first ++ more)).FindsNothing r s) (k : TaskId) (batch : List TaskId)
    (joins : (session g now (first ++ more)).Settles r k (.join batch)) :
    (session g now (first ++ more)).allDone batch = true := by
  obtain ⟨rest, rfl⟩ := early
  have later : ∀ {k stage}, (session g now (first ++ more)).Settles r k stage →
      ∃ stage', (session g now (first ++ (more ++ [.move (.step s)] ++ rest))).Settles r k stage' := by
    intro k stage settles
    rw [List.append_assoc more, ← List.append_assoc first, session_append (first ++ more)]
    exact settles_acts settles _
  obtain ⟨_, one⟩ := later none.1
  obtain ⟨_, two⟩ := later joins
  cases sole s k _ _ one two
  cases none.1.symm.trans joins

/-! ## Settling the relay -/

instance (m : Machine) (r : RunId) (c : TaskId) : Decidable (m.Opens r c) :=
  decidable_of_iff
    (m.tasks[c]?.any (fun task => task.run == r &&
      match task.work with
      | .settle .take | .launch _ .announce => true
      | _ => false) = true) <| by
    unfold Opens Settles LaunchAt
    cases m.tasks[c]? with
    | none => simp
    | some task =>
        obtain ⟨j, work⟩ := task
        cases work with
        | settle stage => cases stage <;> simp
        | launch permits stage => cases stage <;> simp
        | _ => simp

instance (m : Machine) (r : RunId) (k : TaskId) : Decidable (m.FanningOut r k) :=
  decidable_of_iff (m.tasks[k]?.any (fun task => task.run == r && task.isFanOut) = true) <| by
    unfold FanningOut
    cases m.tasks[k]? with
    | none => simp
    | some task =>
        obtain ⟨j, work⟩ := task
        cases work <;> simp [Task.isFanOut]

open Sample

/-- The first node of the relay is asked for, the run is settled, and settled once more.  The
answer is there, the fan-out of the node is the task `3`, and the first that settles has taken it. -/
def relayTaken : List Act :=
  .start ⟨7⟩ (naming "first") [.result ⟨1⟩, .settle, .settle] ::
    (strides [(17, 0), (1, 1)]).map .move

/-- The second one that settles begins when the fan-out is there, finds nothing, and returns before
the fan-out has run the second node. -/
theorem second_settling_returns_early :
    (session relayGraph epoch relayTaken).Opens 0 2 ∧
    (session relayGraph epoch relayTaken).FanningOut 0 3 ∧
    (session relayGraph epoch (relayTaken ++ [.move (.step 2)])).isDone 2 = true ∧
    ¬ Calm relayGraph epoch 0 relayTaken (relayTaken ++ [.move (.step 2)]) := by
  have fans : (session relayGraph epoch relayTaken).FanningOut 0 3 := by decide +kernel
  refine ⟨by decide +kernel, fans, by decide +kernel, fun calm => ?_⟩
  have done : (session relayGraph epoch (relayTaken ++ [.move (.step 2)])).isDone 3 = true :=
    calm 3 fans 3 .refl
  have undone : (session relayGraph epoch (relayTaken ++ [.move (.step 2)])).isDone 3 = false := by
    decide +kernel
  cases undone.symm.trans done

/-- The same with one settling: the fan-out of the first node is the task `2`. -/
def relayAsked : List Act :=
  .start ⟨7⟩ (naming "first") [.result ⟨1⟩, .settle] :: (strides [(17, 0)]).map .move

/-- The run is settled while the fan-out runs the second node, of which the fan-out is the task
`5`. -/
def relaySettling : List Act :=
  (strides [(1, 1), (1, 2), (7, 3), (1, 4), (11, 3), (1, 2), (2, 1), (1, 5), (2, 1)]).map .move

/-- A single call that settles the run of the relay waits for both fan-out tasks. -/
theorem relay_settles :
    (session relayGraph epoch relayAsked).Opens 0 1 ∧
    (session relayGraph epoch relayAsked).FanningOut 0 2 ∧
    (session relayGraph epoch (relayAsked ++ relaySettling)).FanningOut 0 5 ∧
    Calm relayGraph epoch 0 relayAsked (relayAsked ++ relaySettling) := by
  have opens : (session relayGraph epoch relayAsked).Opens 0 1 := by decide +kernel
  have returned : (session relayGraph epoch (relayAsked ++ relaySettling)).isDone 1 = true := by
    decide +kernel
  have settlings : (List.range 6).all (fun k => k == 1 ||
      !(session relayGraph epoch (relayAsked ++ relaySettling)).tasks[k]?.any (·.work.isSettling)) =
        true := by
    decide +kernel
  have size : (session relayGraph epoch (relayAsked ++ relaySettling)).tasks.size = 6 := by
    decide +kernel
  have only : ∀ k stage, (session relayGraph epoch (relayAsked ++ relaySettling)).Settles 0 k stage →
      k = 1 := by
    intro k stage settles
    have small : k < 6 := size ▸ lt_size_of_tasks settles
    have here := List.all_eq_true.1 settlings k (List.mem_range.2 small)
    unfold Settles at settles
    simpa [settles, Work.isSettling] using here
  have sole := fun k k' stage stage' one two => (only k stage one).trans (only k' stage' two).symm
  refine ⟨opens, by decide +kernel, by decide +kernel, settling_waits_for_all opens ?_ returned⟩
  rintro more s early - none k batch joins
  exact alone_of_sole sole more s early none k batch joins

end Machine
end Flowgraph
