/- # Flowgraph.Proofs.Run.Yields -- what a run of a whole graph comes to

A graph is run as a whole by launching it and reporting when the launch is over, or when nothing
can move any more; the work that functions left behind goes on after that.  What a run can yield
in this way on a graph that was run before is what it can yield on a new one (`Still.yields_iff`):
the outcomes are the same, and the events are those of the new graph after the earlier ones.

The driver takes the same turns on both (`Over.driveFrom`), so that what it does is the same too
(`Still.runAll`).
-/
import Flowgraph.Proofs.Run.Contained
import Flowgraph.Proofs.Run.Rerun

set_option autoImplicit false

namespace Flowgraph

namespace Machine

variable {g : Graph} {p f m : Machine} {execution : ExecutionId} {inputs : RunInputs}
  {outcome : Except FlowError RunOutcome}

/-! ## Whole runs -/

/-- A launch is over, or will never be because nothing can move. -/
def Ended (g : Graph) (m : Machine) (launch : TaskId) : Prop :=
  m.isDone launch = true ∨ ∀ t, m.step g t = none

/-- What a run of the whole graph may come to, and the machine at any time after that. -/
def Yields (g : Graph) (m : Machine) (execution : ExecutionId) (inputs : RunInputs)
    (outcome : Except FlowError RunOutcome) (after : Machine) : Prop :=
  ∃ taken later told,
    Ended g ((m.launched g execution inputs).exec g taken) m.nextTask ∧
    ((m.launched g execution inputs).exec g taken).report g m.nextRun m.nextTask = (outcome, told) ∧
    after = told.exec g later

/-- A whole run that the driver brings to its end is one that may happen. -/
theorem yields_of_runAll {ended : RunOutcome} {after : Machine}
    (ran : m.runAll g execution inputs = (.ok ended, after)) :
    m.Yields g execution inputs (.ok ended) after := by
  obtain ⟨taken, same⟩ := m.runAll_eq_report (g := g) execution inputs
  rw [same] at ran
  refine ⟨taken, [], after, ?_, ran, rfl⟩
  by_contra unfinished
  have waits : ¬ ((m.launched g execution inputs).exec g taken).isDone m.nextTask = true :=
    fun finished => unfinished (.inl finished)
  rw [report] at ran
  split at ran
  · cases ran
  · rw [if_neg waits] at ran
    cases ran

/-- What a graph comes to is never that it is not there. -/
theorem Yields.ne_graph {after : Machine} (yields : m.Yields g execution inputs outcome after)
    (cause : GraphError) : outcome ≠ .error (.graph cause) := by
  obtain ⟨taken, later, told, -, reported, -⟩ := yields
  rintro rfl
  rw [report] at reported
  split at reported
  · cases reported
  · split at reported <;> cases reported

/-! ## Gates -/

theorem Held.exec (held : m.Held) (schedule : List Move) : (m.exec g schedule).Held :=
  run_induction (P := fun _ m => m.Held) schedule
    (fun _ _ _ _ _ _ _ _ held here rule after => held.step here rule after)
    (fun _ _ _ _ held => held) held

theorem Held.emit (held : m.Held) (r : RunId) (fact : Fact) : (m.emit r fact).Held := by
  intro id k holds
  rw [cell_emit] at holds
  obtain ⟨r', stage, ⟨began, here⟩, inside⟩ := held id k holds
  exact ⟨r', stage, ⟨began, by rwa [tasks_emit]⟩, inside⟩

theorem Held.yields {after : Machine} (held : m.Held)
    (yields : m.Yields g execution inputs outcome after) : after.Held := by
  obtain ⟨taken, later, told, -, reported, rfl⟩ := yields
  have before : ((m.launched g execution inputs).exec g taken).Held :=
    (held.begin execution inputs [.launch]).exec taken
  have kept : told.Held := by
    rw [report] at reported
    split at reported
    · cases reported
      exact before
    · split at reported <;> cases reported <;> exact before.emit _ _
  exact kept.exec later

/-! ## A whole run on top of the past -/

namespace Over

variable (above : Over p f m)
include above

theorem stuck_iff (still : p.Still) : (∀ t, m.step g t = none) ↔ ∀ t, f.step g t = none := by
  have alike (t : TaskId) : m.step g (p.nextTask + t) = none ↔ f.step g t = none := by
    have steps := above.step (g := g) t
    generalize f.step g t = one, m.step g (p.nextTask + t) = two at steps ⊢
    cases steps <;> simp
  refine ⟨fun stuck t => (alike t).1 (stuck _), fun stuck t => ?_⟩
  obtain early | late := Nat.lt_or_ge t p.nextTask
  · exact above.past_stuck still early
  · obtain ⟨k, rfl⟩ := Nat.exists_eq_add_of_le late
    exact (alike k).2 (stuck k)

theorem ended_iff (still : p.Still) (launch : TaskId) :
    Ended g m (p.nextTask + launch) ↔ Ended g f launch := by
  rw [Ended, Ended, above.isDone, above.stuck_iff still]

theorem report (r : RunId) (launch : TaskId) :
    (m.report g (p.nextRun + r) (p.nextTask + launch)).1 = (f.report g r launch).1 ∧
      Over p (f.report g r launch).2 (m.report g (p.nextRun + r) (p.nextTask + launch)).2 := by
  simp only [Machine.report, above.outcome?, above.isDone]
  cases f.outcome? g r with
  | none => exact ⟨rfl, above⟩
  | some outcome =>
      dsimp only
      split
      · exact ⟨rfl, above.emit r _⟩
      · exact ⟨rfl, above.emit r _⟩

theorem events : m.events = p.events ++ f.events := by simp [Machine.events, above.log]

end Over

/-- A whole run over the past under a schedule, and the run of a new graph under its own moves. -/
theorem Still.report_over (still : p.Still) (execution : ExecutionId) (inputs : RunInputs)
    (taken : List Move) :
    let rerun := (p.launched g execution inputs).exec g taken
    let fresh := ((new p.now).launched g execution inputs).exec g (p.own taken)
    (Ended g rerun p.nextTask ↔ Ended g fresh 0) ∧
      (rerun.report g p.nextRun p.nextTask).1 = (fresh.report g 0 0).1 ∧
      Over p (fresh.report g 0 0).2 (rerun.report g p.nextRun p.nextTask).2 := by
  have start := still.begin_over (g := g) execution inputs [.launch]
  have above := (start.exec (g := g) still taken).1
  exact ⟨above.ended_iff still 0, above.report 0 0⟩

/-- **Whole runs on a used graph are whole runs on a new one.** -/
theorem Still.yields_iff (still : p.Still) (execution : ExecutionId) (inputs : RunInputs)
    (outcome : Except FlowError RunOutcome) (events : List Event) :
    (∃ after, p.Yields g execution inputs outcome after ∧
      events = after.events.drop p.events.length) ↔
    ∃ after, (new p.now).Yields g execution inputs outcome after ∧ events = after.events := by
  constructor
  · rintro ⟨_, ⟨taken, later, told, ended, reported, rfl⟩, rfl⟩
    obtain ⟨ends, same, above⟩ := still.report_over (g := g) execution inputs taken
    simp only [reported] at same above
    have after := (above.exec (g := g) still later).1
    refine ⟨_, ⟨p.own taken, p.own later, _, ends.1 ended, Prod.ext same.symm rfl, rfl⟩, ?_⟩
    rw [after.events, List.drop_left]
    rfl
  · rintro ⟨_, ⟨taken, later, told, ended, reported, rfl⟩, rfl⟩
    obtain ⟨ends, same, above⟩ :=
      still.report_over (g := g) execution inputs (taken.map (Move.shift p.nextTask))
    rw [own_shift] at ends same above
    have start : (((new p.now).launched g execution inputs).exec g taken).report g 0 0 =
      (outcome, told) := reported
    simp only [start] at same above
    have after := (above.exec (g := g) still (later.map (Move.shift p.nextTask))).1
    rw [own_shift] at after
    refine ⟨_, ⟨_, later.map (Move.shift p.nextTask), _, ends.2 ended, Prod.ext same rfl, rfl⟩, ?_⟩
    rw [after.events, List.drop_left]

/-! ## The driver on top of the past -/

namespace Over

variable (above : Over p f m)
include above

theorem drivable_view (fanOut : Bool) (k : TaskId) :
    (match m.tasks[p.nextTask + k]? with
      | some task => !task.isDone && !task.isAside && task.isFanOut == fanOut
      | none => false) =
    match f.tasks[k]? with
      | some task => !task.isDone && !task.isAside && task.isFanOut == fanOut
      | none => false := by
  rw [above.tasks]
  cases f.tasks[k]? with
  | none => rfl
  | some task =>
      have aside : (task.shift p.nextTask p.nextRun).isAside = task.isAside := by
        obtain ⟨r, work⟩ := task
        cases work <;> rfl
      have fan : (task.shift p.nextTask p.nextRun).isFanOut = task.isFanOut := by
        obtain ⟨r, work⟩ := task
        cases work <;> rfl
      simp only [Option.map_some, Task.isDone_shift, aside, fan]

theorem drivable (fanOut : Bool) (first : TaskId) :
    m.drivable fanOut (p.nextTask + first) =
      (f.drivable fanOut first).map (p.nextTask + ·) := by
  rw [Machine.drivable, Machine.drivable, above.size, Nat.add_sub_add_left, ← List.map_add_range',
    List.filter_map]
  refine congrArg _ (List.filter_congr fun k _ => ?_)
  exact above.drivable_view fanOut k

/-- Nothing of the past can be driven. -/
theorem drivable_all (still : p.Still) (fanOut : Bool) :
    m.drivable fanOut 0 = (f.drivable fanOut 0).map (p.nextTask + ·) := by
  have recent := above.drivable fanOut 0
  rw [Machine.drivable, above.size, Nat.add_zero, Nat.add_sub_cancel_left] at recent
  rw [Machine.drivable, above.size, Nat.sub_zero, ← List.range'_append_1, List.filter_append,
    Nat.zero_add, recent]
  refine (congrArg (· ++ _) (List.filter_eq_nil_iff.2 fun k early => ?_)).trans (List.nil_append _)
  have old : k < p.nextTask := by simpa using early
  rw [above.old k old]
  cases here : p.tasks[k]? with
  | none => simp
  | some task => simp [still.done k task here]

omit above in
/-- The driver takes the turns that it takes on a new graph. -/
theorem driveFrom (goal : List TaskId) (limit : Nat) (ready waiting : List TaskId)
    (moved : Bool) (above : Over p f m) :
    Over p (Machine.driveFrom g goal limit ready waiting moved f)
      (Machine.driveFrom g (goal.map (p.nextTask + ·)) limit (ready.map (p.nextTask + ·))
        (waiting.map (p.nextTask + ·)) moved m) := by
  induction limit generalizing ready waiting moved f m with
  | zero => exact above
  | succ limit ih =>
      cases ready with
      | nil =>
          rw [List.map_nil, Machine.driveFrom, Machine.driveFrom, List.isEmpty_map]
          split
          · rw [← List.map_reverse]
            exact ih _ [] false above
          · exact above
      | cons t ready =>
          rw [List.map_cons, Machine.driveFrom, Machine.driveFrom, above.allDone, above.isDone]
          split
          · exact above
          · split
            · exact ih ready waiting moved above
            · have steps := above.step (g := g) t
              generalize f.step g t = one, m.step g (p.nextTask + t) = two at steps ⊢
              cases steps with
              | stuck => exact ih ready (t :: waiting) moved above
              | @gone f' m' next =>
                  dsimp only
                  have after := ih (f'.drivable false f.tasks.size ++ t :: ready ++
                    f'.drivable true f.tasks.size) waiting true next
                  rw [above.size]
                  rwa [List.map_append, List.map_append, List.map_cons, ← next.drivable,
                    ← next.drivable] at after

theorem drive (still : p.Still) (goal : List TaskId) :
    Over p (f.drive g goal) (m.drive g (goal.map (p.nextTask + ·))) := by
  -- the tasks that the goal does not name
  have others (all : List TaskId) :
      (all.map (p.nextTask + ·)).filter (fun t => t ∉ goal.map (p.nextTask + ·)) =
        (all.filter fun t => t ∉ goal).map (p.nextTask + ·) := by
    rw [List.filter_map]
    refine congrArg _ (List.filter_congr fun t _ => ?_)
    have named : p.nextTask + t ∈ goal.map (p.nextTask + ·) ↔ t ∈ goal := by simp
    simp only [Function.comp_apply, named]
  rw [Machine.drive, Machine.drive, above.drivable_all still, above.drivable_all still,
    ← List.map_append, others, ← List.map_append]
  exact driveFrom goal stepLimit _ [] false above

end Over

theorem runAll_eq_drive (m : Machine) (execution : ExecutionId) (inputs : RunInputs) :
    m.runAll g execution inputs =
      ((m.launched g execution inputs).drive g [m.nextTask]).report g m.nextRun
        m.nextTask := by
  have one : ∀ m' : Machine, m'.allDone [m.nextTask] = m'.isDone m.nextTask := by simp [allDone]
  simp only [report, ← one]
  rfl

/-- **The driver runs a used graph as it runs a new one.** -/
theorem Still.runAll (still : p.Still) (execution : ExecutionId) (inputs : RunInputs) :
    (p.runAll g execution inputs).1 = ((new p.now).runAll g execution inputs).1 ∧
      (p.runAll g execution inputs).2.events =
        p.events ++ ((new p.now).runAll g execution inputs).2.events := by
  rw [runAll_eq_drive, runAll_eq_drive]
  have start := still.begin_over (g := g) execution inputs [.launch]
  obtain ⟨same, above⟩ := (start.drive still [0]).report (g := g) 0 0
  exact ⟨same, above.events⟩

end Machine
end Flowgraph
