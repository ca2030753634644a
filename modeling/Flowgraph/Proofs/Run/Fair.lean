/- # Flowgraph.Proofs.Run.Fair -- schedules without an end

A schedule without an end is fair when every task gets its turn again and again; nothing
is said about the order or about how long a turn takes to come.  Since every step brings
a run nearer to its end, there is a moment after which no task can take a step
(`Fair.stuck`): what is left cannot become less for ever, and a task that could go on
would get its turn.
-/
import Flowgraph.Proofs.Run.Descent

set_option autoImplicit false

namespace Flowgraph

namespace Machine

/-- Every task gets its turn again and again. -/
def Fair (schedule : Nat → Move) : Prop :=
  ∀ (t : TaskId) (i : Nat), ∃ j, i ≤ j ∧ schedule j = .step t

/-- The first moves of a schedule. -/
def moves (schedule : Nat → Move) (i : Nat) : List Move := (List.range i).map schedule

variable {g : Graph} {m : Machine} {t : TaskId} {r : RunId} {n : Node} {schedule : Nat → Move}

theorem exec_moves_succ (i : Nat) :
    m.exec g (moves schedule (i + 1)) = (m.exec g (moves schedule i)).move g (schedule i) := by
  simp [moves, List.range_succ, exec]

theorem history_moves_succ (i : Nat) : m.history g (moves schedule (i + 1)) =
    m.history g (moves schedule i) ++ (m.exec g (moves schedule i)).moveDeeds g (schedule i) := by
  simp [moves, List.range_succ, history_append, history]

/-- A move sets the clock, does nothing, or is a step. -/
theorem move_cases (m : Machine) (v : Move) :
    (∃ now, v = .tick now ∧ m.move g v = { m with now := now } ∧ m.moveDeeds g v = []) ∨
    (∃ t, v = .step t ∧ m.step g t = none ∧ m.move g v = m ∧ m.moveDeeds g v = []) ∨
    ∃ t r work work' e, m.tasks[t]? = some ⟨r, work⟩ ∧ Transition g m t r work work' e ∧
      After m t r work' e (m.move g v) ∧ m.moveDeeds g v = e.deeds := by
  cases v with
  | tick now => exact .inl ⟨now, rfl, rfl, rfl⟩
  | step t =>
      refine .inr ?_
      cases stepped : m.step g t with
      | none => exact .inl ⟨t, rfl, stepped, by simp [move, stepped], deeds_of_stuck stepped⟩
      | some m' =>
          obtain ⟨r, work, work', e, here, rule, after, deeds⟩ := step_cases stepped
          exact .inr ⟨t, r, work, work', e, here, rule, by simpa [move, stepped] using after, deeds⟩

/-- **Runs without an end by their steps.**  What each rule keeps as long as something else
holds, which holds at every moment of a run, is kept at every moment. -/
theorem endless_induction {P Q : List Deed → Machine → Prop} (m : Machine)
    (holds : ∀ i, Q (m.history g (moves schedule i)) (m.exec g (moves schedule i)))
    (steps : ∀ h m t r work work' e m', Q h m → P h m → m.tasks[t]? = some ⟨r, work⟩ →
      Transition g m t r work work' e → After m t r work' e m' → P (h ++ e.deeds) m')
    (ticks : ∀ h m now, P h m → P h { m with now := now }) (start : P [] m) :
    ∀ i, P (m.history g (moves schedule i)) (m.exec g (moves schedule i))
  | 0 => start
  | i + 1 => by
      have before := endless_induction m holds steps ticks start i
      rw [exec_moves_succ, history_moves_succ]
      obtain ⟨now, -, same, none⟩ | ⟨t, -, -, same, none⟩ |
          ⟨t, r, _, _, e, here, rule, after, deeds⟩ :=
        (m.exec g (moves schedule i)).move_cases (g := g) (schedule i)
      · rw [same, none, List.append_nil]
        exact ticks _ _ now before
      · rwa [same, none, List.append_nil]
      · rw [deeds]
        exact steps _ _ _ _ _ _ _ _ (holds i) before here rule after

/-! ## The clock -/

section Clock

variable (clock : Instant)

@[simp] theorem cell_tick (id : NodeId) : cell { m with now := clock } id = m.cell id := rfl

@[simp] theorem isDone_tick (k : TaskId) : isDone { m with now := clock } k = m.isDone k := rfl

@[simp] theorem allDone_tick (ts : List TaskId) :
    allDone { m with now := clock } ts = m.allDone ts := rfl

@[simp] theorem permits_tick (launch : TaskId) :
    permits { m with now := clock } launch = m.permits launch := rfl

@[simp] theorem fetchedAll_tick (fetched : List Fetch) :
    fetchedAll { m with now := clock } fetched = m.fetchedAll fetched := rfl

theorem stepExecution_tick (x : Execution) :
    (stepExecution { m with now := clock } r n x).isNone = (m.stepExecution r n x).isNone := by
  cases x with
  | active p =>
      cases p with
      | fire port next =>
          simp only [stepExecution]
          split
          · rfl
          · split
            · rfl
            · cases closed : (m.cell n.id).queue.closed <;> simp [closed]
      | publish | publishOutput | readShared =>
          simp only [stepExecution, Option.isNone_map]
          rfl
      | _ => rfl
  | fired port queued next =>
      simp only [stepExecution]
      split <;> rfl
  | routed ts next =>
      cases all : m.allDone ts <;> simp [stepExecution, all]

theorem stepCall_tick (began : Instant) (stage : Stage) :
    (stepCall g { m with now := clock } t r n began stage).isNone =
      (m.stepCall g t r n began stage).isNone := by
  cases stage with
  | probe | enter | recheck =>
      simp only [stepCall, cell_tick]
      split <;> rfl
  | gather fetched left => cases left <;> rfl
  | join fetched =>
      cases all : m.fetchedAll fetched <;> simp [stepCall, all]
  | scope | record =>
      simp only [stepCall, Option.isNone_map]
      rfl
  | run received x =>
      obtain ⟨outcome, rfl⟩ | running := x.ended_or_running
      · rfl
      · rw [stepCall_run running, stepCall_run running, Option.isNone_map, Option.isNone_map,
          stepExecution_tick]
  | report outcome => cases outcome <;> rfl
  | _ => rfl

/-- Whether a task can take a step does not depend on the time. -/
theorem step_tick (t : TaskId) :
    (step g { m with now := clock } t).isNone = (m.step g t).isNone := by
  simp only [step]
  cases m.tasks[t]? with
  | none => rfl
  | some task =>
      obtain ⟨r, work⟩ := task
      cases work with
      | call id began stage =>
          cases known : g.node? id with
          | none => simp [known]
          | some n => simp [known, stepCall_tick]
      | aside id x =>
          cases known : g.node? id with
          | none => simp [known]
          | some n => simp [known, stepExecution_tick]
      | fanOut id rounds waiting =>
          simp only [Option.isNone_map]
          cases waiting with
          | nil => cases rounds <;> rfl
          | cons w waiting =>
              cases all : m.allDone (w :: waiting) <;> simp [stepFanOut, all]
      | entry launch id stage =>
          simp only [Option.isNone_map]
          cases stage with
          | waiting =>
              simp only [stepEntry, permits_tick]
              split <;> rfl
          | running k =>
              cases done : m.isDone k <;> simp [stepEntry, done]
          | done => rfl
      | launch permits stage =>
          simp only [Option.isNone_map]
          cases stage with
          | join ts =>
              cases all : m.allDone ts <;> simp [stepLaunch, all]
          | settle s =>
              cases done : m.isDone s <;> simp [stepLaunch, done]
          | _ => rfl
      | settle stage =>
          simp only [Option.isNone_map]
          cases stage with
          | take =>
              simp only [stepSettle, Option.isNone_map]
              rfl
          | join ts =>
              cases all : m.allDone ts <;> simp [stepSettle, all]
          | done => rfl

end Clock

/-! ## Coming to an end -/

/-- **A run without an end comes to a moment after which nothing moves**, whatever the schedule:
only the clock goes on. -/
theorem comes_to_rest (m : Machine) (schedule : Nat → Move)
    (falls : ∀ i, ∀ {t j work work' e m'}, let now := m.exec g (moves schedule i)
      now.tasks[t]? = some ⟨j, work⟩ → Transition g now t j work work' e →
      After now t j work' e m' → Less (m'.left g r) (now.left g r)) :
    ∃ i, ∀ d, (∃ clock, m.exec g (moves schedule (i + d)) =
        { m.exec g (moves schedule i) with now := clock }) ∧
      ∀ t, schedule (i + d) = .step t → (m.exec g (moves schedule (i + d))).step g t = none := by
  obtain ⟨_, ⟨i, rfl⟩, least⟩ := (IsWellFounded.wf : WellFounded Less).has_min
    (Set.range fun i => (m.exec g (moves schedule i)).left g r) (Set.range_nonempty _)
  let now (i : Nat) : Machine := m.exec g (moves schedule i)
  -- a step would leave less than the least
  have idle : ∀ d clock, now (i + d) = { now i with now := clock } →
      (∃ c, now (i + d + 1) = { now i with now := c }) ∧
        ∀ t, schedule (i + d) = .step t → (now (i + d)).step g t = none := by
    intro d clock same
    have next : now (i + d + 1) = (now (i + d)).move g (schedule (i + d)) := exec_moves_succ _
    obtain ⟨c, tick, moved, -⟩ | ⟨t, turn, stuck, moved, -⟩ |
        ⟨t, j, _, _, e, here, rule, after, -⟩ :=
      (now (i + d)).move_cases (g := g) (schedule (i + d))
    · refine ⟨⟨c, by rw [next, moved, same]⟩, fun t turn => ?_⟩
      cases tick.symm.trans turn
    · refine ⟨⟨clock, by rw [next, moved, same]⟩, fun u turn' => ?_⟩
      cases turn.symm.trans turn'
      exact stuck
    · have fewer := falls (i + d) here rule after
      have kept : (now (i + d)).left g r = (now i).left g r := by
        rw [same]
        rfl
      rw [← next, kept] at fewer
      exact absurd fewer (least _ ⟨i + d + 1, rfl⟩)
  have rests : ∀ d, ∃ clock, now (i + d) = { now i with now := clock } := by
    intro d
    induction d with
    | zero => exact ⟨_, rfl⟩
    | succ d ih =>
        obtain ⟨clock, same⟩ := ih
        exact (idle d clock same).1
  refine ⟨i, fun d => ⟨rests d, ?_⟩⟩
  obtain ⟨clock, same⟩ := rests d
  exact (idle d clock same).2

/-- **A fair run comes to a moment from which on no task can take a step.** -/
theorem Fair.stuck_from (fair : Fair schedule)
    (falls : ∀ i, ∀ {t j work work' e m'}, let now := m.exec g (moves schedule i)
      now.tasks[t]? = some ⟨j, work⟩ → Transition g now t j work work' e →
      After now t j work' e m' → Less (m'.left g r) (now.left g r)) :
    ∃ i, ∀ j, i ≤ j → ∀ t, (m.exec g (moves schedule j)).step g t = none := by
  obtain ⟨i, rests⟩ := comes_to_rest m schedule falls
  refine ⟨i, fun j since t => ?_⟩
  obtain ⟨_, later, turn⟩ := fair t i
  obtain ⟨d, rfl⟩ := Nat.exists_eq_add_of_le later
  obtain ⟨⟨clock, same⟩, idle⟩ := rests d
  have stuck := idle t turn
  obtain ⟨c, rfl⟩ := Nat.exists_eq_add_of_le since
  obtain ⟨⟨clock', same'⟩, -⟩ := rests c
  rw [same] at stuck
  rw [same', ← Option.isNone_iff_eq_none, step_tick, ← step_tick clock, stuck]
  rfl

/-- A fair run comes to a moment at which no task can take a step. -/
theorem Fair.stuck (fair : Fair schedule)
    (falls : ∀ i, ∀ {t j work work' e m'}, let now := m.exec g (moves schedule i)
      now.tasks[t]? = some ⟨j, work⟩ → Transition g now t j work work' e →
      After now t j work' e m' → Less (m'.left g r) (now.left g r)) :
    ∃ i, ∀ t, (m.exec g (moves schedule i)).step g t = none := by
  obtain ⟨i, stuck⟩ := fair.stuck_from falls
  exact ⟨i, stuck i (Nat.le_refl i)⟩

end Machine
end Flowgraph
