/- # Flowgraph.Proofs.Run.Contained -- failures stay in their nodes

A node may fail in many ways: its scope cannot be made, a parameter cannot be bound, its
function fails or panics, its output has no place.  The run goes on, comes to its end,
and its books agree about every node (`Books`): what was told of it, its result, its
error, the list of failures and the shared document.

That holds under every schedule that gives all tasks their turns, as long as functions
leave no work behind and the run does not come to a cycle of links that wait.
-/
import Mathlib.Data.Nat.Pairing
import Flowgraph.Proofs.Run.Dataflow
import Flowgraph.Proofs.Run.Fair
import Flowgraph.Proofs.Run.Lifecycle
import Flowgraph.Proofs.Run.Presence

set_option autoImplicit false

namespace Flowgraph

namespace Machine

variable {g : Graph} {m m' : Machine} {t k first : TaskId} {r j : RunId} {n : Node}
  {work work' : Work} {e : Effect} {h : List Deed}

/-! ## The end of a run -/

/-- The driver takes some schedule. -/
theorem driveFrom_exec (goal : List TaskId) (limit : Nat) (ready waiting : List TaskId)
    (moved : Bool) (m : Machine) :
    ∃ schedule, driveFrom g goal limit ready waiting moved m = m.exec g schedule := by
  induction limit generalizing ready waiting moved m with
  | zero => exact ⟨[], rfl⟩
  | succ limit ih =>
      cases ready with
      | nil =>
          rw [driveFrom]
          split
          · exact ih _ _ _ _
          · exact ⟨[], rfl⟩
      | cons t ready =>
          rw [driveFrom]
          split
          · exact ⟨[], rfl⟩
          · split
            · exact ih _ _ _ _
            · dsimp only
              split
              · rename_i m' stepped
                obtain ⟨schedule, same⟩ := ih _ _ true m'
                exact ⟨.step t :: schedule, by rw [same, exec_cons, move, stepped]; rfl⟩
              · exact ih _ _ _ _

/-- Report that a run is over, and whether its launch has come to an end. -/
def report (g : Graph) (m : Machine) (r : RunId) (launch : TaskId) :
    Except FlowError RunOutcome × Machine :=
  match m.outcome? g r with
  | none => (.error (.execution "no run was started"), m)
  | some outcome =>
    let told := m.emit r (.run (.completed (m.isDone launch) outcome.milliseconds))
    if m.isDone launch then (.ok outcome, told)
    else (.error (.execution "the run waits for itself"), told)

/-- A graph is run as a whole by launching it, taking some schedule, and reporting. -/
theorem runAll_eq_report (m : Machine) (execution : ExecutionId) (inputs : RunInputs) :
    ∃ schedule, m.runAll g execution inputs =
      ((m.launched g execution inputs).exec g schedule).report g m.nextRun m.nextTask := by
  obtain ⟨schedule, same⟩ : ∃ schedule, ((m.startRun execution inputs).2.perform g
      [⟨m.nextRun, .launch g.maxEntries .announce⟩]).2 =
        (m.launched g execution inputs).exec g schedule := driveFrom_exec ..
  refine ⟨schedule, ?_⟩
  rw [← same]
  have one : ∀ m' : Machine, m'.allDone [m.nextTask] = m'.isDone m.nextTask := by simp [allDone]
  simp only [report, ← one]
  rfl

/-! ## What is kept -/

/-- All that is kept in a run whose functions leave no work behind. -/
structure Orderly (g : Graph) (execution : ExecutionId) (inputs : RunInputs) (before : List Event)
    (first : TaskId) (r : RunId) (h : List Deed) (m : Machine) : Prop where
  tended : m.Tended g first r h
  engaged : m.Engaged g first r
  traced : m.Traced first r h
  chronicle : m.Chronicle g execution before first r
  presence : ∃ parts, m.Presence inputs r parts
  /-- A launch that is over does not leave the task that waited for all behind. -/
  settled : m.LaunchAt r first .done → ∀ {k j stage}, first ≤ k →
    m.tasks[k]? = some ⟨j, .settle stage⟩ → m.isDone k = true

namespace Orderly

variable {execution : ExecutionId} {inputs : RunInputs} {before : List Event}
  (orderly : m.Orderly g execution inputs before first r h)
include orderly

section Steps

variable (here : m.tasks[t]? = some ⟨j, work⟩) (rule : Transition g m t j work work' e)
  (after : After m t j work' e m')
include here rule after

theorem step_settled (ended : m'.LaunchAt r first .done) {i : RunId} {stage : SettleStage}
    (recent : first ≤ k) (there : m'.tasks[k]? = some ⟨i, .settle stage⟩) : m'.isDone k = true := by
  have underway := orderly.tended.underway
  have earlier : m.LaunchAt r first .done ∨ ∃ s, m.LaunchAt r first (.settle s) ∧
      m.isDone s = true := by
    obtain ⟨-, old⟩ | ⟨rfl, stage, permits, rfl, rfl⟩ := underway.launch_cases here rule after ended
    · exact .inl old
    · obtain ⟨-, rfl⟩ := underway.is_first orderly.tended.confined here rule rfl
      cases rule with
      | finished done => exact .inr ⟨_, ⟨permits, here⟩, done⟩
  have old : ∀ {stage}, m.tasks[k]? = some ⟨i, .settle stage⟩ → m.isDone k = true := by
    intro stage was
    obtain done | ⟨s, waits, done⟩ := earlier
    · exact orderly.settled done recent was
    · obtain mine | done := underway.settles recent was
      · cases waits.unique mine
        exact done
      · cases waits.unique done
  obtain ⟨rfl, same⟩ | ⟨-, was⟩ | ⟨-, new⟩ := after.plain_cases rfl there
  · cases same
    have undone := rule.not_done
    have done : m.isDone k = true := by cases rule <;> exact old here
    simp only [isDone, here, undone] at done
    cases done
  · exact after.isDone here rule (old was)
  · -- a launch that waits for its entries is not over
    obtain ⟨-, permits, ts, rfl, -⟩ := rule.of_settle new
    obtain ⟨rfl, rfl⟩ := underway.is_first orderly.tended.confined here rule rfl
    obtain done | ⟨s, waits, -⟩ := earlier
    · cases done.unique ⟨permits, here⟩
    · cases waits.unique ⟨permits, here⟩

theorem step (tidy : Tidy h m) :
    m'.Orderly g execution inputs before first r (h ++ e.deeds) where
  tended := orderly.tended.step (orderly.traced.onTime orderly.tended.memo here rule tidy) here rule
    after
  engaged := orderly.engaged.step orderly.tended.underway orderly.tended.confined here rule after
  traced := orderly.traced.step orderly.tended.memo here rule after
  chronicle := orderly.chronicle.step orderly.traced orderly.tended.memo orderly.tended.underway
    orderly.tended.confined here rule after
  presence := orderly.presence.elim fun _ presence =>
    presence.step orderly.traced orderly.tended.memo here rule after
  settled ended _ _ _ recent there := orderly.step_settled here rule after ended recent there

end Steps

theorem tick (now : Instant) :
    Orderly g execution inputs before first r h { m with now := now } where
  tended := orderly.tended.tick now
  engaged := { orderly.engaged with }
  traced := { orderly.traced with }
  chronicle := orderly.chronicle.tick now
  presence := orderly.presence.elim fun parts presence => ⟨parts, { presence with }⟩
  settled := orderly.settled

end Orderly

/-- A run that is launched on a graph on which nothing is at work keeps all this, at every moment
of a schedule without an end. -/
theorem Still.orderly {schedule : Nat → Move} (still : m.Still) (execution : ExecutionId)
    (inputs : RunInputs) (tidy : ∀ i, Tidy
      ((m.launched g execution inputs).history g (moves schedule i))
      ((m.launched g execution inputs).exec g (moves schedule i))) (i : Nat) :
    ((m.launched g execution inputs).exec g (moves schedule i)).Orderly g execution inputs m.events
      m.nextTask m.nextRun ((m.launched g execution inputs).history g (moves schedule i)) := by
  have rest : m.AtRest g := still.atRest
  refine endless_induction (P := fun h m' => m'.Orderly g execution inputs m.events m.nextTask
    m.nextRun h) _ tidy ?_ ?_ ?_ i
  · intro h m' t j work work' e m'' tidy orderly here rule after
    exact orderly.step here rule after tidy
  · intro h m' now orderly
    exact orderly.tick now
  · exact
      { tended := rest.tended_launched
        engaged := rest.engaged
        traced := still.traced execution inputs [.launch]
        chronicle := rest.unoccupied.chronicle execution inputs
        presence := ⟨_, presence_launched m execution inputs⟩
        settled := fun ended => by cases ended.unique launched_launchAt }

/-! ## When the launch is over -/

section Over

variable {execution : ExecutionId} {inputs : RunInputs} {before : List Event} {id : NodeId}
  (orderly : m.Orderly g execution inputs before first r h)
  (finished : m.LaunchAt r first .done)
include orderly finished

theorem Orderly.calls_done {stage : Stage} (calling : m.Calling j k id stage) :
    ∃ d, stage = .done d := by
  by_cases past : k < first
  · exact orderly.tended.memo.past past calling
  · obtain ⟨began, here⟩ := calling
    exact Task.answered
      (orderly.tended.underway.calm (.inl finished) (Nat.le_of_not_lt past) here rfl)

theorem Orderly.idle {stage : Stage} (calling : m.Calling j k id stage) :
    stage.phase ≠ .computing := by
  obtain ⟨d, rfl⟩ := orderly.calls_done finished calling
  nofun

/-- A run that is over leaves a graph behind on which nothing is at work. -/
theorem Orderly.still (tidy : Tidy h m) : m.Still where
  done := by
    intro k task here
    by_cases past : k < first
    · exact orderly.traced.past past here
    have recent := Nat.le_of_not_lt past
    have quiet : m.Quiet first := orderly.tended.underway.calm (.inl finished)
    obtain ⟨i, work⟩ := task
    cases work with
    | call | fanOut | entry => exact quiet recent here rfl
    | launch permits stage =>
        obtain rfl := orderly.tended.underway.sole recent ⟨_, here⟩
        cases finished.unique ⟨permits, here⟩
        rfl
    | settle stage => simpa [isDone, here] using orderly.settled finished recent here
    | aside node x =>
        obtain ⟨-, c, call, invoked⟩ := orderly.traced.program recent here rfl
        obtain ⟨_, _, _, calling⟩ | ⟨outcome, ended⟩ := orderly.traced.called invoked
        · exact absurd rfl (orderly.idle finished calling)
        · simpa [isDone, here] using tidy ended here
  free := by
    intro id
    cases gate : (m.cell id).gate with
    | none => rfl
    | some k =>
        obtain ⟨i, stage, calling, inside⟩ := orderly.tended.memo.holder gate
        obtain ⟨d, rfl⟩ := orderly.calls_done finished calling
        cases inside

/-- The nodes that are present in the shared document are those with a result. -/
theorem Orderly.present {run : RunRecord} (running : m.run? r = some run) :
    (run.shared.document.get? (Shared.nodePath id)).isSome = (m.cell id).result.isSome := by
  obtain ⟨parts, ⟨run', running', composed⟩, begun, published⟩ := orderly.presence
  cases running.symm.trans running'
  have read : run.shared.document.get? (Shared.nodePath id) = parts.of (.node id) := by
    rw [composed]
    exact Shared.get?_compose (.node id)
  rw [read, Bool.eq_iff_iff]
  constructor
  · intro there
    obtain ⟨d, has⟩ | ⟨_, _, _, calling, computing⟩ := begun there
    · rw [has]
      rfl
    · exact absurd computing (orderly.idle finished calling)
  · intro has
    obtain ⟨d, has⟩ := Option.isSome_iff_exists.1 has
    obtain there | ⟨_, _, calling⟩ := published has
    · exact there
    · obtain ⟨_, wrong⟩ := orderly.calls_done finished calling
      cases wrong

end Over

/-- Nothing more is told of a graph on which nothing is at work. -/
theorem Still.events_exec (still : m.Still) (schedule : List Move) :
    (m.exec g schedule).events = m.events := by
  have stuck : ∀ clock t, step g { m with now := clock } t = none := by
    intro clock t
    cases stepped : step g { m with now := clock } t with
    | none => rfl
    | some m' =>
        obtain ⟨r, work, work', e, here, rule, -, -⟩ := step_cases stepped
        cases rule.not_done.symm.trans (still.done t _ here)
  have kept : ∃ clock, m.exec g schedule = { m with now := clock } := by
    induction schedule using List.reverseRecOn with
    | nil => exact ⟨m.now, rfl⟩
    | append_singleton schedule v ih =>
        obtain ⟨clock, same⟩ := ih
        rw [exec_append, same]
        cases v with
        | tick now => exact ⟨now, rfl⟩
        | step t => exact ⟨clock, by simp [exec, move, stuck]⟩
  obtain ⟨clock, same⟩ := kept
  rw [same]
  rfl

end Machine

/-! ## The books -/

/-- What is recorded of a node at the end of a run, given its cell, what was told of its life and
the outcome of the run. -/
structure Node.Accounted (n : Node) (c : Cell) (life : List NodeFact) (outcome : RunOutcome) :
    Prop where
  /-- Nothing was told of a node without a result. -/
  unreached : c.result = none → life = []
  /-- A node with a result started once, and then, once, completed or failed. -/
  reached : c.result.isSome = true → ∃ ending, life = [.started n.function.signature.key, ending] ∧
    ((∃ milliseconds, ending = .completed milliseconds) ∨ ∃ text, ending = .failed n.name text)
  failed : c.status = .failed ↔ ∃ name text, .failed name text ∈ life
  error : c.status = .failed ↔ c.error.isSome = true
  told : ∀ e, c.error = some e → .failed n.name e.message ∈ life
  /-- A node that failed is listed once, with the text of its error, and no other node is. -/
  listed : outcome.failures.filter (fun f => f.node = n.id) =
    (c.error.map fun e => ⟨n.id, n.name, e.message⟩).toList
  result : ∀ e, c.error = some e → ∃ time : Instant, c.result = some
    ⟨.obj [("error", .obj [("message", .str e.message), ("nodeId", .str n.id.toText),
      ("nodeName", (n.name.map Value.str).getD .null), ("timestamp", .str time.toOffset)])]⟩
  present : (outcome.nodeResult? n.id).isSome = c.result.isSome

/-- The books of a run that is over, after the events `before`, agree about every node. -/
structure Books (g : Graph) (execution : ExecutionId) (before : List Event) (outcome : RunOutcome)
    (m : Machine) : Prop where
  /-- All events of nodes lie between the start of the run and its end. -/
  events : ∃ start stop during,
    m.events = before ++ ⟨execution, start, .run (.started g.id g.entries)⟩ :: (during ++
      [⟨execution, stop, .run (.completed true outcome.milliseconds)⟩]) ∧
    (∀ event ∈ during, event.execution = execution ∧ ∃ id fact, event.fact = .node id fact) ∧
    ∀ n ∈ g.nodes, n.Accounted (m.cell n.id) (lifeOf n.id (during.map Event.fact)) outcome
  /-- Nothing is told when the run is over, whoever gets a turn. -/
  last : ∀ schedule, (m.exec g schedule).events = m.events
  sorted : outcome.failures.Pairwise fun a b => a.node.le b.node = true
  known : ∀ f ∈ outcome.failures, ∃ n ∈ g.nodes, n.id = f.node

theorem Node.Told.accounted {n : Node} {c : Cell} {life : List NodeFact} {outcome : RunOutcome}
    (told : n.Told c.result c.error life)
    (listed : outcome.failures.filter (fun f => f.node = n.id) =
      (c.error.map fun e => ⟨n.id, n.name, e.message⟩).toList)
    (present : (outcome.nodeResult? n.id).isSome = c.result.isSome) :
    n.Accounted c life outcome := by
  obtain ⟨result, input, error, running, gate, queue⟩ := c
  dsimp only at told listed present
  cases told with
  | nothing =>
      refine ⟨fun _ => rfl, nofun, ?_, ?_, nofun, listed, nofun, present⟩
      · cases running <;> simp [Cell.status]
      · cases running <;> simp [Cell.status]
  | completed =>
      exact ⟨nofun, fun _ => ⟨_, rfl, .inl ⟨_, rfl⟩⟩, by simp [Cell.status], by simp [Cell.status],
        nofun, listed, nofun, present⟩
  | failed =>
      refine ⟨nofun, fun _ => ⟨_, rfl, .inr ⟨_, rfl⟩⟩, by simp [Cell.status], by simp [Cell.status],
        ?_, listed, ?_, present⟩
      · rintro e ⟨⟩
        simp
      · rintro e ⟨⟩
        exact ⟨_, rfl⟩

namespace Machine

variable {g : Graph} {m : Machine} {first : TaskId} {r : RunId} {n : Node} {h : List Deed}

theorem node_of_failure? {f : NodeFailure} (failed : m.failure? n = some f) : f.node = n.id := by
  unfold failure? at failed
  split at failed
  · obtain ⟨e, -, rfl⟩ := Option.map_eq_some_iff.1 failed
    rfl
  · cases failed

/-- Each node is listed for its own failure only. -/
theorem filter_failures {nodes : List Node} (distinct : (nodes.map Node.id).Nodup)
    (member : n ∈ nodes) :
    (nodes.filterMap m.failure?).filter (fun f => f.node = n.id) = (m.failure? n).toList := by
  have others : ∀ ks : List Node, n.id ∉ ks.map Node.id →
      (ks.filterMap m.failure?).filter (fun f => f.node = n.id) = [] := by
    intro ks apart
    rw [List.filter_eq_nil_iff]
    intro f listed
    obtain ⟨k, there, failed⟩ := List.mem_filterMap.1 listed
    have other : k.id ≠ n.id := fun same => apart (same ▸ List.mem_map_of_mem there)
    simpa [node_of_failure? failed] using other
  obtain ⟨earlier, later, rfl⟩ := List.append_of_mem member
  rw [List.map_append, List.map_cons, List.nodup_append, List.nodup_cons] at distinct
  obtain ⟨-, ⟨after, -⟩, apart⟩ := distinct
  have before : n.id ∉ earlier.map Node.id := fun there =>
    apart _ there _ List.mem_cons_self rfl
  rw [List.filterMap_append, List.filter_append, others earlier before, List.nil_append,
    List.filterMap_cons]
  cases failed : m.failure? n with
  | none => exact others later after
  | some f => simp [node_of_failure? failed, others later after]

/-- What the outcome lists, in the order of the nodes' identifiers. -/
theorem outcome?_failures {run : RunRecord} (running : m.run? r = some run) :
    ∃ outcome, m.outcome? g r = some outcome ∧ outcome.document = run.shared.document ∧
      outcome.failures.Perm (g.nodes.filterMap m.failure?) ∧
      outcome.failures.Pairwise fun a b => a.node.le b.node = true := by
  refine ⟨_, by rw [outcome?, running]; rfl, rfl, List.mergeSort_perm _ _, ?_⟩
  refine List.pairwise_mergeSort (fun a b c => ?_) (fun a b => ?_) _
  · simp only [Uuid.le, decide_eq_true_eq]
    exact Nat.le_trans
  · simp only [Uuid.le, Bool.or_eq_true, decide_eq_true_eq]
    exact Nat.le_total _ _

/-- What is listed of a node is its error, when its records agree. -/
theorem listed_of_told {failures : List NodeFailure} {life : List NodeFact}
    (perm : failures.Perm (g.nodes.filterMap m.failure?)) (distinct : (g.nodes.map Node.id).Nodup)
    (member : n ∈ g.nodes) (told : n.Told (m.cell n.id).result (m.cell n.id).error life) :
    failures.filter (fun f => f.node = n.id) =
      ((m.cell n.id).error.map fun e => ⟨n.id, n.name, e.message⟩).toList := by
  have own : m.failure? n = (m.cell n.id).error.map fun e => ⟨n.id, n.name, e.message⟩ := by
    rw [failure?]
    generalize (m.cell n.id).result = result, (m.cell n.id).error = error at told ⊢
    cases told <;> rfl
  have same := perm.filter fun f => f.node = n.id
  rw [filter_failures distinct member, own] at same
  generalize ((m.cell n.id).error.map fun e => (⟨n.id, n.name, e.message⟩ : NodeFailure)) = failure
    at same ⊢
  cases failure with
  | none => exact same.eq_nil
  | some f => exact List.perm_singleton.1 same

theorem cell_emit (fact : Fact) (id : NodeId) : (m.emit r fact).cell id = m.cell id :=
  (changed_emit fact).cell id

/-- When a launch is over, reporting it closes the books. -/
theorem Orderly.books {cs : List Connection} {execution : ExecutionId} {inputs : RunInputs}
    {before : List Event} (orderly : m.Orderly g execution inputs before first r h)
    (wired : Wired cs g.nodes) (tidy : Tidy h m) (returned : m.isDone first = true) :
    ∃ outcome final, m.report g r first = (.ok outcome, final) ∧
      Books g execution before outcome final := by
  have finished := orderly.tended.finished returned
  obtain ⟨⟨run, running, named⟩, since, events, opened, telling⟩ := orderly.chronicle
  obtain ⟨outcome, reported, document, failures, sorted⟩ := outcome?_failures (g := g) running
  let final := m.emit r (.run (.completed true outcome.milliseconds))
  have still : final.Still := by
    have quiet := orderly.still finished tidy
    refine ⟨fun t task here => quiet.done t task ?_, fun id => ?_⟩
    · rwa [tasks_emit] at here
    · rw [cell_emit]
      exact quiet.free id
  have last : final.events = m.events ++
      [⟨execution, m.now, .run (.completed true outcome.milliseconds)⟩] := by
    simp [final, Machine.events, emit, running, named]
  have closed : m.report g r first = (.ok outcome, final) := by
    simp [report, reported, returned, final]
  refine ⟨outcome, final, closed, ?_, still.events_exec, sorted, fun f listed => ?_⟩
  · cases opened with
    | closed launch => cases finished.unique launch
    | @opened start during launch nodes =>
        refine ⟨start, m.now, during, by rw [last, events, List.append_assoc]; rfl, nodes,
          fun n member => ?_⟩
        have known := wired.node? member
        have told : n.Told (m.cell n.id).result (m.cell n.id).error
            (lifeOf n.id (during.map Event.fact)) :=
          (telling n known).resting fun calling => orderly.idle finished calling
        rw [cell_emit]
        refine told.accounted (listed_of_told failures wired.ids member told) ?_
        rw [RunOutcome.nodeResult?, document]
        exact orderly.present finished running
  · obtain ⟨n, member, failed⟩ := List.mem_filterMap.1 (failures.mem_iff.1 listed)
    exact ⟨n, member, (node_of_failure? failed).symm⟩

/-- **Failures are contained.**  To run a graph as a whole is to launch it, to take some schedule,
and to report.  Whatever its functions give back or fail with, the launch comes to its end under
every schedule in which all tasks get their turns; and whenever it has, the run is reported as over
and its books agree about every node.  For that, functions leave no work behind that outlives them,
and no node is called that waits for itself. -/
theorem failures_are_contained {w : Workflow} {registry : Registry} {settings : Settings}
    (built : Graph.build w registry settings = .ok g) (still : m.Still) (execution : ExecutionId)
    (inputs : RunInputs) {schedule : Nat → Move} (fair : Fair schedule)
    (tidy : ∀ i, Tidy ((m.launched g execution inputs).history g (moves schedule i))
      ((m.launched g execution inputs).exec g (moves schedule i)))
    (clear : ∀ i {k j id stage}, m.nextTask ≤ k →
      ((m.launched g execution inputs).exec g (moves schedule i)).Calling j k id stage →
      ¬ g.OnCycle id) :
    let start := m.launched g execution inputs
    let now i := start.exec g (moves schedule i)
    (∃ taken, m.runAll g execution inputs = (start.exec g taken).report g m.nextRun m.nextTask) ∧
    (∃ i, (now i).isDone m.nextTask = true) ∧
    ∀ i, (now i).isDone m.nextTask = true →
      ∃ outcome final, (now i).report g m.nextRun m.nextTask = (.ok outcome, final) ∧
        Books g execution m.events outcome final := by
  intro start now
  have wired := build_wired built
  have orderly := still.orderly execution inputs tidy
  refine ⟨m.runAll_eq_report execution inputs, ?_,
    fun i returned => (orderly i).books wired (tidy i) returned⟩
  have descends : ∀ i, ∀ {t j work work' e m'}, (now i).tasks[t]? = some ⟨j, work⟩ →
      Transition g (now i) t j work work' e → After (now i) t j work' e m' →
      Less (m'.left g m.nextRun) ((now i).left g m.nextRun) :=
    fun i _ _ _ _ _ _ here rule after =>
      (orderly i).traced.descends (orderly i).tended.memo here rule after
  obtain ⟨i, stuck⟩ := fair.stuck descends
  obtain ⟨permits, here⟩ := stuck_launch (orderly i).tended stuck (orderly i).engaged
    (stuck_calls wired (orderly i).tended stuck (clear i)) (build_maxEntries built)
  exact ⟨i, by simp [now, start, isDone, here, Task.isDone]⟩

end Machine

namespace Sample

/-- Sixteen tasks take turns for a while, and then every task gets its turn again and again. -/
def everyTurn (i : Nat) : Machine.Move :=
  .step (if i < 960 then i % 16 else i.unpair.1)

theorem everyTurn_fair : Machine.Fair everyTurn := by
  intro t i
  have later : max i 960 ≤ Nat.pair t (max i 960) := Nat.right_le_pair ..
  have late : ¬ Nat.pair t (max i 960) < 960 :=
    Nat.not_lt_of_le (Nat.le_trans (Nat.le_max_right ..) later)
  refine ⟨Nat.pair t (max i 960), Nat.le_trans (Nat.le_max_left ..) later, ?_⟩
  rw [everyTurn, if_neg late, Nat.unpair_pair]

theorem meeting_leaveless : ∀ n ∈ meetingGraph.nodes, ∀ i, (n.function.body i).Leaveless := by
  have functions : meetingGraph.nodes.map Node.function = [.start, broken, note, note] := rfl
  intro n member i
  have place : n.function ∈ meetingGraph.nodes.map Node.function := List.mem_map_of_mem member
  simp only [functions, List.mem_cons, List.not_mem_nil, or_false, or_self] at place
  obtain function | function | function := place <;> rw [function]
  · refine Program.Leaveless.require (fun c => ?_) i.needContext
    trivial
  · exact Function.script_leaveless (by simp) i
  · exact Function.script_leaveless (by simp) i

end Sample

namespace Machine

open Sample

/-- The meeting in the course of time. -/
def meetingAt (i : Nat) : Machine :=
  ((new epoch).launched meetingGraph ⟨7⟩ .empty).exec meetingGraph (moves everyTurn i)

set_option maxRecDepth 100000 in
/-- The meeting, in which one node fails, is run to its end. -/
theorem broken_is_contained :
    Graph.build meeting notes .standard = .ok meetingGraph ∧ (new epoch).Still ∧ Fair everyTurn ∧
    (meetingAt 960).isDone 0 = true ∧
    ∃ outcome final, (meetingAt 960).report meetingGraph 0 0 = (.ok outcome, final) ∧
      Books meetingGraph ⟨7⟩ [] outcome final ∧
      outcome.failures = [⟨⟨2⟩, none, "Execution failed: no"⟩] := by
  have built : Graph.build meeting notes .standard = .ok meetingGraph := eq_ok_get _
  have still := still_new epoch
  have computed : (meetingAt 960).isDone 0 = true ∧
      ((meetingAt 960).report meetingGraph 0 0).1.toOption.map RunOutcome.failures =
        some [⟨⟨2⟩, none, "Execution failed: no"⟩] := by decide +kernel
  obtain ⟨returned, failed⟩ := computed
  obtain ⟨-, -, books⟩ := failures_are_contained built still ⟨7⟩ .empty everyTurn_fair
    (fun i => still.tidy_of_leaveless meeting_leaveless ⟨7⟩ .empty (moves everyTurn i))
    (fun i j k id stage _ _ => meeting_acyclic id)
  obtain ⟨outcome, final, ended, balanced⟩ := books 960 returned
  have reported : (meetingAt 960).report meetingGraph 0 0 = (.ok outcome, final) := ended
  rw [reported] at failed
  exact ⟨built, still, everyTurn_fair, returned, outcome, final, reported, balanced,
    Option.some.inj failed⟩

end Machine
end Flowgraph
