/- # Flowgraph.Proofs.Run.Rerun -- a run on a used graph is a run on a new one

A graph that has been run keeps the tasks, runs and events of its past.  A run that starts when
nothing is at work any more goes on top of them: its tasks and runs have later numbers, and that
is all the difference to the same run on a new graph.  `Over` says so of two machines, and is kept
by every step of a task (`Over.step`); a task of the past is done and takes none.

So whatever schedule is taken, the run has the results, statuses, inputs, errors, queues, events
and outcome that the same schedule gives on a new graph (`reruns_are_fresh_runs`).
-/
import Flowgraph.Run.Drive
import Flowgraph.Proofs.Run.Fires
import Flowgraph.Proofs.Run.Session

set_option autoImplicit false

namespace Flowgraph

/-! ## Other numbers -/

section Shift

variable (a : TaskId)

def Cell.shift (c : Cell) : Cell := { c with gate := c.gate.map (a + ·) }

def Fetch.shift : Fetch → Fetch
  | .awaited k => .awaited (a + k)
  | f => f

def Execution.shift : Execution → Execution
  | .routed ts next => .routed (ts.map (a + ·)) next
  | x => x

def Stage.shift : Stage → Stage
  | .gather fetched left => .gather (fetched.map (Fetch.shift a)) left
  | .join fetched => .join (fetched.map (Fetch.shift a))
  | .run received x => .run received (x.shift a)
  | stage => stage

def EntryStage.shift : EntryStage → EntryStage
  | .running k => .running (a + k)
  | stage => stage

def LaunchStage.shift : LaunchStage → LaunchStage
  | .join ts => .join (ts.map (a + ·))
  | .settle s => .settle (a + s)
  | stage => stage

def SettleStage.shift : SettleStage → SettleStage
  | .join batch => .join (batch.map (a + ·))
  | stage => stage

def Work.shift : Work → Work
  | .call id began stage => .call id began (stage.shift a)
  | .fanOut id rounds waiting => .fanOut id rounds (waiting.map (a + ·))
  | .aside id x => .aside id (x.shift a)
  | .entry l id stage => .entry (a + l) id (stage.shift a)
  | .launch permits stage => .launch permits (stage.shift a)
  | .settle stage => .settle (stage.shift a)

/-- A task whose number is `a` more, of a run whose number is `b` more. -/
def Task.shift (b : RunId) (t : Task) : Task := ⟨b + t.run, t.work.shift a⟩

def RunRecord.shift (run : RunRecord) : RunRecord := { run with fanOut := run.fanOut.map (a + ·) }

def Deed.shift : Deed → Deed
  | .invoked id t i => .invoked id (a + t) i
  | .ended id t outcome => .ended id (a + t) outcome
  | .stored id t d => .stored id (a + t) d
  | .branched id t f => .branched id (a + t) (a + f)
  | .fired id port queued => .fired id port queued

end Shift

theorem Execution.ended_of_shift {a : TaskId} {x : Execution} {outcome : Except NodeError Returned}
    (same : x.shift a = .active (.finish outcome)) : x = .active (.finish outcome) := by
  cases x with
  | active program => exact same
  | _ => cases same

theorem Task.isDone_shift (a : TaskId) (b : RunId) (t : Task) :
    (t.shift a b).isDone = t.isDone := by
  obtain ⟨r, work⟩ := t
  cases work with
  | call id began stage => cases stage <;> rfl
  | fanOut id rounds waiting => cases rounds <;> cases waiting <;> rfl
  | aside id x => cases x <;> rfl
  | entry launch id stage => cases stage <;> rfl
  | launch permits stage => cases stage <;> rfl
  | settle stage => cases stage <;> rfl

theorem Task.result?_shift (a : TaskId) (b : RunId) (t : Task) :
    (t.shift a b).result? = t.result? := by
  obtain ⟨r, work⟩ := t
  cases work with
  | call id began stage => cases stage <;> rfl
  | _ => rfl

namespace Machine

variable {g : Graph} {p f m : Machine} {t : TaskId} {r : RunId} {n : Node} {id : NodeId}

/-! ## One machine over another -/

/-- The machine `m` is the machine `f` on top of the tasks, runs and events of `p`. -/
structure Over (p f m : Machine) : Prop where
  cell : ∀ id, m.cell id = (f.cell id).shift p.nextTask
  old : ∀ k < p.nextTask, m.tasks[k]? = p.tasks[k]?
  tasks : ∀ k, m.tasks[p.nextTask + k]? = f.tasks[k]?.map (Task.shift p.nextTask p.nextRun)
  size : m.tasks.size = p.nextTask + f.tasks.size
  past : ∀ r < p.nextRun, m.run? r = p.run? r
  run : ∀ r, m.run? (p.nextRun + r) = (f.run? r).map (RunRecord.shift p.nextTask)
  log : m.log = f.log ++ p.log
  now : m.now = f.now

namespace Over

variable (above : Over p f m)
include above

/-! ### What is read -/

theorem result (id : NodeId) : (m.cell id).result = (f.cell id).result := by
  rw [above.cell]
  rfl

theorem queue (id : NodeId) : (m.cell id).queue = (f.cell id).queue := by
  rw [above.cell]
  rfl

theorem isDone (k : TaskId) : m.isDone (p.nextTask + k) = f.isDone k := by
  simp only [Machine.isDone, above.tasks]
  cases f.tasks[k]? with
  | none => rfl
  | some task => exact task.isDone_shift _ _

theorem allDone (ts : List TaskId) :
    m.allDone (ts.map (p.nextTask + ·)) = f.allDone ts := by
  simp [Machine.allDone, List.all_map, Function.comp_def, above.isDone]

theorem resultOf? (k : TaskId) : m.resultOf? (p.nextTask + k) = f.resultOf? k := by
  simp only [Machine.resultOf?, above.tasks]
  cases f.tasks[k]? with
  | none => rfl
  | some task => exact task.result?_shift _ _

theorem fetchedAll (fetched : List Fetch) :
    m.fetchedAll (fetched.map (Fetch.shift p.nextTask)) = f.fetchedAll fetched := by
  simp only [Machine.fetchedAll, List.all_map]
  refine congrArg (List.all fetched) (funext fun one => ?_)
  cases one with
  | awaited k => exact above.isDone k
  | _ => rfl

theorem fetchedResults (fetched : List Fetch) :
    m.fetchedResults (fetched.map (Fetch.shift p.nextTask)) = f.fetchedResults fetched := by
  simp only [Machine.fetchedResults, List.filterMap_map]
  refine congrArg (fun view => List.filterMap view fetched) (funext fun one => ?_)
  cases one with
  | awaited k => exact above.resultOf? k
  | _ => rfl

theorem millisecondsSince (since : Instant) :
    m.millisecondsSince since = f.millisecondsSince since := by
  simp only [Machine.millisecondsSince, above.now]

theorem beganAfter (began : Instant) (stage : Stage) :
    m.beganAfter began (stage.shift p.nextTask) = f.beganAfter began stage := by
  cases stage with
  | announce => exact above.now
  | _ => rfl

theorem permits (launch : TaskId) :
    m.permits (p.nextTask + launch) = f.permits launch := by
  simp only [Machine.permits, above.tasks]
  cases f.tasks[launch]? with
  | none => rfl
  | some task =>
      obtain ⟨r, work⟩ := task
      cases work <;> rfl

theorem freshCall (r : RunId) (id : NodeId) :
    m.freshCall (p.nextRun + r) id = (f.freshCall r id).shift p.nextTask p.nextRun := by
  simp only [Machine.freshCall, above.now]
  rfl

/-! ### What is written -/

theorem updateCell (id : NodeId) (change change' : Cell → Cell)
    (same : ∀ c, change' (c.shift p.nextTask) = (change c).shift p.nextTask) :
    Over p (f.updateCell id change) (m.updateCell id change') :=
  { above with
    cell := by
      intro k
      rw [cell_updateCell, cell_updateCell, above.cell]
      split
      · exact same _
      · rfl }

theorem updateRun (r : RunId) (change change' : RunRecord → RunRecord)
    (same : ∀ run, change' (run.shift p.nextTask) = (change run).shift p.nextTask) :
    Over p (f.updateRun r change) (m.updateRun (p.nextRun + r) change') :=
  { above with
    past := by
      intro k early
      have other : k ≠ p.nextRun + r :=
        Nat.ne_of_lt (Nat.lt_of_lt_of_le early (Nat.le_add_right _ _))
      rw [run?_updateRun, if_neg other, above.past k early]
    run := by
      intro k
      rw [run?_updateRun, run?_updateRun, above.run]
      simp only [Nat.add_left_cancel_iff]
      split
      · cases f.run? k with
        | none => rfl
        | some run => exact congrArg some (same run)
      · rfl }

theorem updateShared (r : RunId) (change : Shared → Shared) :
    Over p (f.updateShared r change) (m.updateShared (p.nextRun + r) change) :=
  above.updateRun r _ _ fun _ => rfl

theorem emit (r : RunId) (fact : Fact) : Over p (f.emit r fact) (m.emit (p.nextRun + r) fact) := by
  unfold Machine.emit
  rw [above.run]
  cases running : f.run? r with
  | none => simpa using above
  | some run =>
      exact { above with
        log := by simp [above.log, above.now, RunRecord.shift] }

theorem append (tasks : List Task) :
    Over p { f with tasks := f.tasks ++ tasks.toArray }
      { m with tasks := m.tasks ++ (tasks.map (Task.shift p.nextTask p.nextRun)).toArray } :=
  { above with
    old := by
      intro k early
      have small : k < m.tasks.size := by
        rw [above.size]
        exact Nat.lt_of_lt_of_le early (Nat.le_add_right _ _)
      rw [Array.getElem?_append_left small, above.old k early]
    tasks := by
      intro k
      by_cases early : k < f.tasks.size
      · have small : p.nextTask + k < m.tasks.size := by
          rw [above.size]
          exact Nat.add_lt_add_left early _
        rw [Array.getElem?_append_left small, Array.getElem?_append_left early, above.tasks]
      · have late : f.tasks.size ≤ k := Nat.le_of_not_lt early
        have late' : m.tasks.size ≤ p.nextTask + k := by
          rw [above.size]
          exact Nat.add_le_add_left late _
        rw [Array.getElem?_append_right late', Array.getElem?_append_right late, above.size,
          Nat.add_sub_add_left]
        simp
    size := by simp [above.size, Nat.add_assoc] }

theorem spawn (task : Task) :
    (m.spawn (task.shift p.nextTask p.nextRun)).1 = p.nextTask + (f.spawn task).1 ∧
      Over p (f.spawn task).2 (m.spawn (task.shift p.nextTask p.nextRun)).2 := by
  refine ⟨above.size, ?_⟩
  have appended := above.append [task]
  simpa [Machine.spawn] using appended

theorem range (length : Nat) : List.range' m.tasks.size length =
    (List.range' f.tasks.size length).map (p.nextTask + ·) := by
  rw [above.size, List.map_add_range']

theorem spawnCalls (r : RunId) (ids : List NodeId) :
    (m.spawnCalls (p.nextRun + r) ids).1 = (f.spawnCalls r ids).1.map (p.nextTask + ·) ∧
      Over p (f.spawnCalls r ids).2 (m.spawnCalls (p.nextRun + r) ids).2 := by
  rw [spawnCalls_eq, spawnCalls_eq]
  refine ⟨above.range _, ?_⟩
  have appended := above.append (ids.map (f.freshCall r))
  rwa [List.map_map, show Task.shift p.nextTask p.nextRun ∘ f.freshCall r =
    m.freshCall (p.nextRun + r) from funext fun id => (above.freshCall r id).symm] at appended

theorem spawnEntries (r : RunId) (launch : TaskId) (ids : List NodeId) :
    (m.spawnEntries (p.nextRun + r) (p.nextTask + launch) ids).1 =
        (f.spawnEntries r launch ids).1.map (p.nextTask + ·) ∧
      Over p (f.spawnEntries r launch ids).2
        (m.spawnEntries (p.nextRun + r) (p.nextTask + launch) ids).2 := by
  rw [spawnEntries_eq, spawnEntries_eq]
  refine ⟨above.range _, ?_⟩
  have appended := above.append (ids.map fun id => ⟨r, .entry launch id .waiting⟩)
  rwa [List.map_map] at appended

theorem setWork (t : TaskId) (work : Work) :
    Over p (f.setWork t work) (m.setWork (p.nextTask + t) (work.shift p.nextTask)) :=
  { above with
    old := by
      intro k early
      have other : k ≠ p.nextTask + t :=
        Nat.ne_of_lt (Nat.lt_of_lt_of_le early (Nat.le_add_right _ _))
      rw [tasks_setWork, if_neg other, above.old k early]
    tasks := by
      intro k
      rw [tasks_setWork, tasks_setWork, above.tasks]
      simp only [Nat.add_left_cancel_iff]
      split
      · cases f.tasks[k]? <;> rfl
      · rfl
    size := by simp [Machine.setWork, above.size] }

theorem setPermits (launch : TaskId) (n : Nat) :
    Over p (f.setPermits launch n) (m.setPermits (p.nextTask + launch) n) := by
  unfold Machine.setPermits
  rw [above.tasks]
  cases f.tasks[launch]? with
  | none => exact above
  | some task =>
      obtain ⟨r, work⟩ := task
      cases work with
      | launch n' stage => exact above.setWork launch (.launch n stage)
      | _ => exact above

end Over

/-! ## One step over another -/

/-- Two outcomes of a step, one over the other: both are stuck, or both go on. -/
inductive Both {α : Type} (p : Machine) (shift : α → α) :
    Option (α × Machine) → Option (α × Machine) → Prop
  | stuck : Both p shift none none
  | gone {x f m} (above : Over p f m) : Both p shift (some (x, f)) (some (shift x, m))

theorem Both.map {α β : Type} {shift : α → α} {shift' : β → β} {one two : Option (α × Machine)}
    (both : Both p shift one two) (place : α → β) (same : ∀ x, place (shift x) = shift' (place x)) :
    Both p shift' (one.map fun next => (place next.1, next.2))
      (two.map fun next => (place next.1, next.2)) := by
  cases both with
  | stuck => exact .stuck
  | @gone x f m above =>
      show Both p shift' (some (place x, f)) (some (place (shift x), m))
      rw [same]
      exact .gone above

namespace Over

variable (above : Over p f m)
include above

theorem stepExecution (r : RunId) (n : Node) (x : Execution) :
    Both p (Execution.shift p.nextTask) (f.stepExecution r n x)
      (m.stepExecution (p.nextRun + r) n (x.shift p.nextTask)) := by
  cases x with
  | active program =>
      cases program with
      | finish outcome => exact .stuck
      | publish key value next =>
          simp only [Machine.stepExecution, Execution.shift, above.run]
          cases f.run? r with
          | none => exact .stuck
          | some run => exact .gone (above.updateShared r _)
      | publishOutput name value next =>
          simp only [Machine.stepExecution, Execution.shift, above.run]
          cases f.run? r with
          | none => exact .stuck
          | some run => exact .gone (above.updateShared r _)
      | readShared next =>
          simp only [Machine.stepExecution, Execution.shift, above.run]
          cases f.run? r with
          | none => exact .stuck
          | some run => exact .gone above
      | notify notice next => exact .gone (above.emit r _)
      | fire port next =>
          simp only [Machine.stepExecution, Execution.shift, above.queue]
          split
          · exact .gone above
          · split
            · exact .gone above
            · split
              · exact .gone above
              · exact .gone (above.updateCell n.id _ _ fun _ => rfl)
      | readClock next =>
          simp only [Machine.stepExecution, Execution.shift, above.now]
          exact .gone above
      | pause milliseconds next => exact .gone above
      | leave work next => exact .gone (above.spawn ⟨r, .aside n.id (.active work)⟩).2
  | fired port queued next =>
      have emitted := above.emit r (.node n.id (.portFired port queued))
      cases queued with
      | true => exact .gone emitted
      | false =>
          obtain ⟨same, spawned⟩ := emitted.spawnCalls r (n.targets port)
          simp only [Machine.stepExecution, Execution.shift, same]
          exact .gone spawned
  | routed ts next =>
      simp only [Machine.stepExecution, Execution.shift, above.allDone]
      split
      · exact .gone above
      · exact .stuck

theorem fetch (r : RunId) (u : Upstream) :
    (m.fetch g (p.nextRun + r) u).1 = (f.fetch g r u).1.shift p.nextTask ∧
      Over p (f.fetch g r u).2 (m.fetch g (p.nextRun + r) u).2 := by
  simp only [Machine.fetch, above.result]
  split
  · exact ⟨rfl, above⟩
  · split
    · split <;> exact ⟨rfl, above⟩
    · obtain ⟨same, spawned⟩ := above.spawn (f.freshCall r u.node)
      rw [← above.freshCall] at same spawned
      exact ⟨congrArg Fetch.awaited same, spawned⟩

theorem stepCall (t : TaskId) (r : RunId) (n : Node) (began : Instant) (stage : Stage) :
    Both p (Stage.shift p.nextTask) (f.stepCall g t r n began stage)
      (m.stepCall g (p.nextTask + t) (p.nextRun + r) n began (stage.shift p.nextTask)) := by
  cases stage with
  | probe | recheck =>
      simp only [Machine.stepCall, Stage.shift, above.result]
      split <;> exact .gone above
  | enter =>
      simp only [Machine.stepCall, Stage.shift, above.cell, Cell.shift]
      cases (f.cell n.id).gate with
      | none => exact .gone (above.updateCell n.id _ _ fun _ => rfl)
      | some k => exact .stuck
  | mark => exact .gone (above.updateCell n.id _ _ fun _ => rfl)
  | announce => exact .gone (above.emit r _)
  | gather fetched left =>
      cases left with
      | nil => exact .gone above
      | cons u left =>
          obtain ⟨same, asked⟩ := above.fetch (g := g) r u
          simp only [Machine.stepCall, Stage.shift, same]
          rw [show fetched.map (Fetch.shift p.nextTask) ++ [(f.fetch g r u).1.shift p.nextTask] =
            (fetched ++ [(f.fetch g r u).1]).map (Fetch.shift p.nextTask) by simp]
          exact .gone asked
  | join fetched =>
      simp only [Machine.stepCall, Stage.shift, above.fetchedAll, above.fetchedResults]
      split
      · exact .gone above
      · exact .stuck
  | scope received =>
      simp only [Machine.stepCall, Stage.shift, above.run]
      cases f.run? r with
      | none => exact .stuck
      | some run =>
          simp only [Option.map_some, RunRecord.shift]
          split <;> exact .gone above
  | record received scope =>
      simp only [Machine.stepCall, Stage.shift, above.run]
      cases f.run? r with
      | none => exact .stuck
      | some run =>
          have recorded := above.updateCell n.id (fun c => { c with input := scope })
            (fun c => { c with input := scope }) fun _ => rfl
          simp only [Option.map_some, invocation, RunRecord.shift]
          split <;> exact .gone recorded
  | run received x =>
      obtain ⟨outcome, rfl⟩ | running := x.ended_or_running
      · exact .gone above
      · have running' : ∀ outcome, x.shift p.nextTask ≠ .active (.finish outcome) :=
          fun outcome same => running outcome (Execution.ended_of_shift same)
        rw [Stage.shift, stepCall_run running, stepCall_run running']
        exact (above.stepExecution r n x).map (Stage.run received) fun _ => rfl
  | report outcome =>
      cases outcome with
      | ok d =>
          simp only [Machine.stepCall, Stage.shift, above.millisecondsSince]
          exact .gone (above.emit r _)
      | error e => exact .gone (above.emit r _)
  | blame e =>
      simp only [Machine.stepCall, Stage.shift, above.now]
      exact .gone (above.updateCell n.id _ _ fun _ => rfl)
  | store d | unmark d | release d => exact .gone (above.updateCell n.id _ _ fun _ => rfl)
  | publish d => exact .gone (above.updateShared r _)
  | close d =>
      simp only [Machine.stepCall, Stage.shift, above.queue]
      exact .gone (above.updateCell n.id _ _ fun _ => rfl)
  | branch d pending =>
      obtain ⟨same, spawned⟩ := above.spawn ⟨r, .fanOut n.id (rounds n pending) []⟩
      refine .gone (spawned.updateRun r _ _ fun run => ?_)
      simp only [RunRecord.shift, List.map_append]
      exact congrArg (fun k => { run with fanOut := run.fanOut.map (p.nextTask + ·) ++ [k] }) same
  | yield d => exact .gone (above.updateCell n.id _ _ fun _ => rfl)
  | done d => exact .stuck

theorem stepFanOut (r : RunId) (rounds : List (List NodeId)) (waiting : List TaskId) :
    Both p (fun next => (next.1, next.2.map (p.nextTask + ·))) (f.stepFanOut r rounds waiting)
      (m.stepFanOut (p.nextRun + r) rounds (waiting.map (p.nextTask + ·))) := by
  cases waiting with
  | nil =>
      cases rounds with
      | nil => exact .stuck
      | cons targets rest =>
          obtain ⟨same, spawned⟩ := above.spawnCalls r targets
          simp only [Machine.stepFanOut, List.map_nil, same]
          exact .gone (x := (rest, _)) spawned
  | cons w waiting =>
      have all := above.allDone (w :: waiting)
      rw [List.map_cons] at all
      simp only [Machine.stepFanOut, List.map_cons, all]
      split
      · exact .gone (x := (rounds, [])) above
      · exact .stuck

theorem stepEntry (r : RunId) (launch : TaskId) (id : NodeId) (stage : EntryStage) :
    Both p (EntryStage.shift p.nextTask) (f.stepEntry r launch id stage)
      (m.stepEntry (p.nextRun + r) (p.nextTask + launch) id (stage.shift p.nextTask)) := by
  cases stage with
  | waiting =>
      simp only [Machine.stepEntry, EntryStage.shift, above.permits]
      split
      · exact .stuck
      · rename_i n permits
        have taken := above.setPermits launch n
        obtain ⟨same, spawned⟩ := taken.spawn (f.freshCall r id)
        rw [← above.freshCall] at same spawned
        rw [show ((m.setPermits (p.nextTask + launch) n).spawn
          ⟨p.nextRun + r, .call id m.now .probe⟩).1 = _ from same]
        exact .gone spawned
  | running k =>
      simp only [Machine.stepEntry, EntryStage.shift, above.isDone, above.permits]
      split
      · exact .gone (above.setPermits launch _)
      · exact .stuck
  | done => exact .stuck

theorem stepLaunch (t : TaskId) (r : RunId) (stage : LaunchStage) :
    Both p (LaunchStage.shift p.nextTask) (f.stepLaunch g t r stage)
      (m.stepLaunch g (p.nextTask + t) (p.nextRun + r) (stage.shift p.nextTask)) := by
  cases stage with
  | announce => exact .gone (above.emit r _)
  | spawn =>
      obtain ⟨same, spawned⟩ := above.spawnEntries r t g.entries
      simp only [Machine.stepLaunch, LaunchStage.shift, same]
      exact .gone spawned
  | join ts =>
      simp only [Machine.stepLaunch, LaunchStage.shift, above.allDone]
      split
      · obtain ⟨same, spawned⟩ := above.spawn ⟨r, .settle .take⟩
        rw [show (m.spawn ⟨p.nextRun + r, .settle .take⟩).1 = _ from same]
        exact .gone spawned
      · exact .stuck
  | settle s =>
      simp only [Machine.stepLaunch, LaunchStage.shift, above.isDone]
      split
      · exact .gone above
      · exact .stuck
  | done => exact .stuck

theorem stepSettle (r : RunId) (stage : SettleStage) :
    Both p (SettleStage.shift p.nextTask) (f.stepSettle r stage)
      (m.stepSettle (p.nextRun + r) (stage.shift p.nextTask)) := by
  cases stage with
  | take =>
      simp only [Machine.stepSettle, SettleStage.shift, above.run]
      cases f.run? r with
      | none => exact .stuck
      | some run =>
          simp only [Option.map_some, RunRecord.shift, List.isEmpty_map]
          split
          · exact .gone above
          · exact .gone (above.updateRun r _ _ fun _ => rfl)
  | join batch =>
      simp only [Machine.stepSettle, SettleStage.shift, above.allDone]
      split
      · exact .gone above
      · exact .stuck
  | done => exact .stuck

end Over

/-- Two steps, one over the other: both are stuck, or both go on. -/
inductive Steps (p : Machine) : Option Machine → Option Machine → Prop
  | stuck : Steps p none none
  | gone {one two} (above : Over p one two) : Steps p (some one) (some two)

/-- The task moves on when its step is through. -/
theorem Both.moveOn {α : Type} {shift : α → α} {one two : Option (α × Machine)}
    (both : Both p shift one two) (t : TaskId) (work work' : α → Work)
    (same : ∀ x, work' (shift x) = (work x).shift p.nextTask) :
    Steps p (one.map fun next => next.2.setWork t (work next.1))
      (two.map fun next => next.2.setWork (p.nextTask + t) (work' next.1)) := by
  cases both with
  | stuck => exact .stuck
  | gone above =>
      simp only [Option.map_some, same]
      exact .gone (above.setWork t _)

/-- **A task of the run takes the step that it takes on a new graph**, if it can take any. -/
theorem Over.step (above : Over p f m) (t : TaskId) :
    Steps p (f.step g t) (m.step g (p.nextTask + t)) := by
  unfold Machine.step
  rw [above.tasks]
  cases f.tasks[t]? with
  | none => exact .stuck
  | some task =>
      obtain ⟨r, work⟩ := task
      cases work with
      | call id began stage =>
          simp only [Option.map_some, Task.shift, Work.shift]
          cases g.node? id with
          | none => exact .stuck
          | some n =>
              exact (above.stepCall t r n began stage).moveOn t
                (.call id (f.beganAfter began stage))
                (.call id (m.beganAfter began (stage.shift p.nextTask))) fun _ => by
                  rw [above.beganAfter]
                  rfl
      | fanOut id rounds waiting =>
          exact (above.stepFanOut r rounds waiting).moveOn t (fun next => .fanOut id next.1 next.2)
            (fun next => .fanOut id next.1 next.2) fun _ => rfl
      | aside id x =>
          simp only [Option.map_some, Task.shift, Work.shift]
          cases g.node? id with
          | none => exact .stuck
          | some n => exact (above.stepExecution r n x).moveOn t (.aside id) _ fun _ => rfl
      | entry launch id stage =>
          exact (above.stepEntry r launch id stage).moveOn t (.entry launch id) _ fun _ => rfl
      | launch permits stage =>
          exact (above.stepLaunch t r stage).moveOn t (.launch permits) _ fun _ => rfl
      | settle stage =>
          exact (above.stepSettle r stage).moveOn t .settle _ fun _ => rfl

/-! ## One history over another -/

namespace Over

variable (above : Over p f m)
include above

theorem executionDeeds (n : Node) (x : Execution) :
    m.executionDeeds n (x.shift p.nextTask) =
      (f.executionDeeds n x).map (Deed.shift p.nextTask) := by
  cases x with
  | active program =>
      cases program with
      | fire port next =>
          simp only [Machine.executionDeeds, Execution.shift, above.queue]
          split <;> rfl
      | _ => rfl
  | _ => rfl

theorem callDeeds (t : TaskId) (r : RunId) (n : Node) (stage : Stage) :
    m.callDeeds g (p.nextTask + t) (p.nextRun + r) n (stage.shift p.nextTask) =
      (f.callDeeds g t r n stage).map (Deed.shift p.nextTask) := by
  cases stage with
  | record received scope =>
      simp only [Machine.callDeeds, Stage.shift, above.run]
      cases f.run? r with
      | none => rfl
      | some run =>
          simp only [Option.map_some]
          rw [show contextOf (run.shift p.nextTask) n = contextOf run n from rfl]
          cases n.bind g.evaluator (contextOf run n) scope <;> rfl
  | run received x =>
      obtain ⟨outcome, rfl⟩ | running := x.ended_or_running
      · rfl
      · have running' : ∀ outcome, x.shift p.nextTask ≠ .active (.finish outcome) :=
          fun outcome same => running outcome (Execution.ended_of_shift same)
        rw [Stage.shift, callDeeds_run running, callDeeds_run running', above.executionDeeds]
  | branch d pending =>
      simp only [Machine.callDeeds, Stage.shift, above.size]
      rfl
  | _ => rfl

theorem deeds (t : TaskId) :
    m.deeds g (p.nextTask + t) = (f.deeds g t).map (Deed.shift p.nextTask) := by
  simp only [Machine.deeds, above.tasks]
  cases f.tasks[t]? with
  | none => rfl
  | some task =>
      obtain ⟨r, work⟩ := task
      cases work with
      | call id began stage =>
          simp only [Option.map_some, Task.shift, Work.shift]
          cases g.node? id with
          | none => rfl
          | some n => exact above.callDeeds t r n stage
      | aside id x =>
          simp only [Option.map_some, Task.shift, Work.shift]
          cases g.node? id with
          | none => rfl
          | some n => exact above.executionDeeds n x
      | _ => rfl

/-- What is past is done and takes no steps. -/
theorem past_stuck (still : p.Still) (early : t < p.nextTask) : m.step g t = none := by
  cases stepped : m.step g t with
  | none => rfl
  | some m' =>
      obtain ⟨r, work, work', e, here, rule, -, -⟩ := step_cases stepped
      rw [above.old t early] at here
      cases rule.not_done.symm.trans (still.done t _ here)

end Over

/-- A move as one of a run whose tasks are numbered from `a` on.  The tasks before that have no
moves. -/
def Move.unshift (a : TaskId) : Move → Option Move
  | .step t => if a ≤ t then some (.step (t - a)) else none
  | .tick now => some (.tick now)

/-- A move of a run whose tasks are numbered from `a` on. -/
def Move.shift (a : TaskId) : Move → Move
  | .step t => .step (a + t)
  | .tick now => .tick now

theorem Move.unshift_shift (a : TaskId) (v : Move) : (v.shift a).unshift a = some v := by
  cases v with
  | step t => simp [Move.shift, Move.unshift]
  | tick now => rfl

/-- The moves of a schedule that are for tasks which the machine does not have yet, by the numbers
that they would have on a new machine. -/
def own (p : Machine) (schedule : List Move) : List Move :=
  schedule.filterMap (Move.unshift p.nextTask)

theorem own_shift (schedule : List Move) :
    p.own (schedule.map (Move.shift p.nextTask)) = schedule := by
  rw [own, List.filterMap_map]
  exact (congrArg (fun view => List.filterMap view schedule)
    (funext fun v => Move.unshift_shift p.nextTask v)).trans List.filterMap_some

theorem Over.move (above : Over p f m) (v : Move) :
    Over p (f.move g v) (m.move g (v.shift p.nextTask)) ∧
      m.moveDeeds g (v.shift p.nextTask) = (f.moveDeeds g v).map (Deed.shift p.nextTask) := by
  cases v with
  | tick now => exact ⟨{ above with now := rfl }, rfl⟩
  | step t =>
      refine ⟨?_, above.deeds t⟩
      have steps := above.step (g := g) t
      simp only [Machine.move, Move.shift]
      generalize f.step g t = one, m.step g (p.nextTask + t) = two at steps ⊢
      cases steps with
      | stuck => exact above
      | gone above => exact above

/-- **The run on top of the past takes the schedule that its own moves make up.** -/
theorem Over.exec (above : Over p f m) (still : p.Still) (schedule : List Move) :
    Over p (f.exec g (p.own schedule)) (m.exec g schedule) ∧
      m.history g schedule = (f.history g (p.own schedule)).map (Deed.shift p.nextTask) := by
  induction schedule generalizing f m with
  | nil => exact ⟨above, rfl⟩
  | cons v rest ih =>
      by_cases past : ∃ t, v = .step t ∧ t < p.nextTask
      · obtain ⟨t, rfl, early⟩ := past
        have stuck : m.step g t = none := above.past_stuck still early
        have own : p.own (.step t :: rest) = p.own rest :=
          List.filterMap_cons_none (by simp [Move.unshift, Nat.not_le_of_lt early])
        rw [own, exec_cons, history]
        simpa [Machine.move, moveDeeds, stuck, deeds_of_stuck stuck] using ih above
      · obtain ⟨v', rfl⟩ : ∃ v' : Move, v = v'.shift p.nextTask := by
          cases v with
          | tick now => exact ⟨.tick now, rfl⟩
          | step t =>
              have late : p.nextTask ≤ t := Nat.le_of_not_lt fun early => past ⟨t, rfl, early⟩
              exact ⟨.step (t - p.nextTask), by simp [Move.shift, Nat.add_sub_cancel' late]⟩
        obtain ⟨next, deeds⟩ := above.move (g := g) v'
        obtain ⟨after, history⟩ := ih next
        have own : p.own (v'.shift p.nextTask :: rest) = v' :: p.own rest :=
          List.filterMap_cons_some (Move.unshift_shift _ v')
        rw [own, exec_cons, exec_cons, Machine.history, Machine.history, deeds, history,
          List.map_append]
        exact ⟨after, rfl⟩

/-! ## One run over another -/

theorem Request.work_shift (q : Request) (now : Instant) (a : TaskId) :
    (q.work g now).shift a = q.work g now := by
  cases q <;> rfl

/-- A run that starts when nothing is at work starts like one on a new graph. -/
theorem Still.begin_over (still : p.Still) (execution : ExecutionId) (inputs : RunInputs)
    (requests : List Request) :
    Over p ((new p.now).begin g execution inputs requests)
      (p.begin g execution inputs requests) where
  cell id := by
    rw [cell_begin, cell_begin, Cell.reset, still.free id]
    rfl
  old k early := by rw [tasks_begin, if_pos early]
  tasks k := by
    have none : (new p.now).nextTask = 0 := rfl
    rw [tasks_begin, tasks_begin, if_neg (Nat.not_lt_of_le (Nat.le_add_right _ _)), none,
      if_neg (Nat.not_lt_zero k), Nat.add_sub_cancel_left, Nat.sub_zero]
    simp only [List.getElem?_map, Option.map_map]
    refine congrArg (fun view => Option.map view requests[k]?) (funext fun q => ?_)
    simp only [Function.comp_apply, Task.shift, Request.work_shift]
    rfl
  size := by
    rw [size_begin, size_begin]
    exact congrArg (p.nextTask + ·) (Nat.zero_add _).symm
  past r early := List.getElem?_append_left early
  run r := by
    have runs : (p.begin g execution inputs requests).runs =
      p.runs ++ [⟨execution, p.now, .start inputs, []⟩] := rfl
    have late : p.runs.length ≤ p.nextRun + r := Nat.le_add_right _ _
    rw [run?, runs, List.getElem?_append_right late, show p.nextRun + r - p.runs.length = r from
      Nat.add_sub_cancel_left ..]
    cases r <;> rfl
  log := rfl
  now := rfl

/-- The run `m` with the history `h'`, on top of the past `p`, repeats the run `f` of a new graph
with the history `h`: all that can be seen of the two is the same. -/
structure Repeats (g : Graph) (p f m : Machine) (h h' : List Deed) : Prop where
  above : Over p f m
  nodes : ∀ id, (m.cell id).result = (f.cell id).result ∧ (m.cell id).status = (f.cell id).status ∧
    (m.cell id).input = (f.cell id).input ∧ (m.cell id).error = (f.cell id).error ∧
    (m.cell id).queue = (f.cell id).queue
  history : h' = h.map (Deed.shift p.nextTask)
  events : m.events = p.events ++ f.events
  outcome : m.outcome? g p.nextRun = f.outcome? g 0
  answers : ∀ k, m.isDone (p.nextTask + k) = f.isDone k ∧
    m.resultOf? (p.nextTask + k) = f.resultOf? k

theorem Over.outcome? (above : Over p f m) (r : RunId) :
    m.outcome? g (p.nextRun + r) = f.outcome? g r := by
  have failure (n : Node) : m.failure? n = f.failure? n := by
    simp only [Machine.failure?, above.cell]
    rfl
  simp only [Machine.outcome?, above.run, Option.map_map]
  cases f.run? r with
  | none => rfl
  | some run =>
      simp only [Option.map_some, Function.comp_apply, RunRecord.shift, above.result,
        above.millisecondsSince, funext failure]

theorem Over.repeats (above : Over p f m) {h h' : List Deed}
    (history : h' = h.map (Deed.shift p.nextTask)) : Repeats g p f m h h' where
  above := above
  nodes id := by
    rw [above.cell]
    exact ⟨rfl, rfl, rfl, rfl, rfl⟩
  history := history
  events := by simp [Machine.events, above.log]
  outcome := above.outcome? 0
  answers k := ⟨above.isDone k, above.resultOf? k⟩

/-- **Reruns are fresh runs.**  Take any session on a graph, with whatever runs, requests and
schedule, after which no task is at work; and start another run.  Under every schedule it repeats
what a run with the same requests, inputs, execution and clock does on a new graph under the
schedule of its own moves; and every schedule of the run on a new graph is repeated in this way.
So a node's possible results, statuses, inputs, errors and queues, the deeds of the run, among them
where its ports lead, its events, its outcome, and the answers to its requests are all the same. -/
theorem reruns_are_fresh_runs {now : Instant} {acts : List Act}
    (finished : ∀ (t : TaskId) (task : Task), (session g now acts).tasks[t]? = some task →
      task.isDone = true) (execution : ExecutionId) (inputs : RunInputs)
    (requests : List Request) :
    let past := session g now acts
    let rerun := past.begin g execution inputs requests
    let fresh := (new past.now).begin g execution inputs requests
    (∀ schedule, Repeats g past (fresh.exec g (past.own schedule)) (rerun.exec g schedule)
      (fresh.history g (past.own schedule)) (rerun.history g schedule)) ∧
    ∀ schedule, ∃ schedule', past.own schedule' = schedule := by
  intro past rerun fresh
  have still : past.Still := still_session finished
  refine ⟨fun schedule => ?_, fun schedule => ⟨_, past.own_shift schedule⟩⟩
  obtain ⟨above, history⟩ :=
    (still.begin_over execution inputs requests).exec (g := g) still schedule
  exact above.repeats history

open Sample

/-- The function of the fork is asked for.  The work that it leaves behind, the task `4`, fires its
port when the answer is there. -/
def forkPast : List Act :=
  .start ⟨7⟩ .empty [.result ⟨2⟩] ::
    ((turns 50 10).filter (· ≠ .step 4) ++ turns 30 11).map .move

set_option maxRecDepth 100000 in
theorem forkPast_done :
    (session forkGraph epoch forkPast).tasks.toList.all Task.isDone = true := by decide +kernel

/-- The fork is run again when nothing of its first run is at work. -/
theorem fork_reruns_afresh :
    let past := session forkGraph epoch forkPast
    let rerun := past.begin forkGraph ⟨8⟩ .empty [.launch, .result ⟨3⟩]
    let fresh := (new past.now).begin forkGraph ⟨8⟩ .empty [.launch, .result ⟨3⟩]
    (∀ (t : TaskId) (task : Task), past.tasks[t]? = some task → task.isDone = true) ∧
    Repeats forkGraph past (fresh.exec forkGraph (past.own (turns 80 30)))
      (rerun.exec forkGraph (turns 80 30)) (fresh.history forkGraph (past.own (turns 80 30)))
      (rerun.history forkGraph (turns 80 30)) := by
  have finished : ∀ (t : TaskId) (task : Task),
      (session forkGraph epoch forkPast).tasks[t]? = some task → task.isDone = true :=
    fun t task there => List.all_eq_true.1 forkPast_done task
      (Array.mem_toList_iff.2 (Array.mem_of_getElem? there))
  exact ⟨finished, (reruns_are_fresh_runs finished ⟨8⟩ .empty [.launch, .result ⟨3⟩]).1 _⟩

end Machine
end Flowgraph
