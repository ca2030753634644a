/- # Flowgraph.Proofs.Run.Executed -- exactly what a run executes

When a run of a whole graph comes to its end, the nodes that have a result are the
least set that contains the entries and is closed under the three ways in which a
run spreads: what a node waits for, what is downstream of a node without ports,
and the targets of the ports that were fired.  Nothing else runs, and when the run
no longer waits for anything, nothing was forgotten.
-/
import Mathlib.Data.Set.Card
import Flowgraph.Proofs.Graph.Wiring
import Flowgraph.Proofs.Run.Coverage
import Flowgraph.Run.Drive

set_option autoImplicit false

namespace Flowgraph

/-- A set of nodes from which a run that fires the ports in `fired` does not lead out. -/
structure ClosedUnder (g : Graph) (fired : NodeId → String → Prop) (S : Set NodeId) : Prop where
  entries : ∀ id ∈ g.entries, id ∈ S
  /-- What a node waits for. -/
  waits : ∀ id ∈ S, ∀ n, g.node? id = some n → ∀ u ∈ n.upstream, u.viaPort = false → u.node ∈ S
  /-- Everything downstream of a node without ports. -/
  pushes : ∀ id ∈ S, ∀ n, g.node? id = some n → n.isPortDriven = false →
    ∀ x ∈ n.downstream, x ∈ S
  /-- The targets of every port that was fired. -/
  routes : ∀ id ∈ S, ∀ n, g.node? id = some n → n.isPortDriven = true →
    ∀ port, fired id port → ∀ x ∈ n.targets port, x ∈ S

/-- What is executed lies in every closed set. -/
theorem Executed.mem {g : Graph} {fired : NodeId → String → Prop} {S : Set NodeId} {id : NodeId}
    (executed : Executed g fired id) (closed : ClosedUnder g fired S) : id ∈ S := by
  induction executed with
  | entry start => exact closed.entries _ start
  | next _ step ih =>
      cases step with
      | pull known linked waits => exact closed.waits _ ih _ known _ linked waits
      | push known plain behind => exact closed.pushes _ ih _ known plain _ behind
      | route known driven fires behind => exact closed.routes _ ih _ known driven _ fires _ behind

/-- Whatever is executed is a node of the graph. -/
theorem Executed.known {g : Graph} {cs : List Connection} {fired : NodeId → String → Prop}
    {id : NodeId} (executed : Executed g fired id) (wired : Wired cs g.nodes) :
    ∃ n, g.node? id = some n := by
  cases executed with
  | entry start => exact wired.entry_known start
  | next _ step =>
      cases step with
      | pull known linked waits =>
          obtain ⟨s, found, -⟩ := wired.upstream_known (Graph.mem_of_node? known) linked
          exact ⟨s, found⟩
      | push known plain behind => exact wired.downstream_known (Graph.mem_of_node? known) behind
      | route known driven fires behind =>
          exact wired.targets_known (Graph.mem_of_node? known) behind

namespace Machine

variable {g : Graph} {m m' : Machine} {first : TaskId} {r : RunId} {h : List Deed}
  {execution : ExecutionId} {inputs : RunInputs} {schedule : List Move}

/-- The nodes that have a result. -/
def executedNodes (m : Machine) : Set NodeId := {id | ∃ d, (m.cell id).result = some d}

/-- All that is kept in a run whose fires are on time. -/
structure Tended (g : Graph) (first : TaskId) (r : RunId) (h : List Deed) (m : Machine) :
    Prop where
  memo : m.Memo first
  feeding : m.Feeding g first
  confined : m.Confined g first r h
  attended : m.Attended first
  underway : m.Underway first r
  covered : m.Covered g first r
  account : ∀ id, m.Account first id h
  onward : ∀ id, m.Onward g first id h

theorem covered_launched :
    (m.launched g execution inputs).Covered g m.nextTask m.nextRun where
  entryCall recent here := by cases (launched_only recent here).2
  entryDone recent here := by cases (launched_only recent here).2
  entered stands past := by
    cases stands.unique launched_launchAt
    cases past

theorem Tended.step {t : TaskId} {j : RunId} {work work' : Work} {e : Effect}
    (tended : m.Tended g first r h) (onTime : OnTime e.deeds)
    (here : m.tasks[t]? = some ⟨j, work⟩) (rule : Transition g m t j work work' e)
    (after : After m t j work' e m') : m'.Tended g first r (h ++ e.deeds) := by
  obtain ⟨memo, feeding, confined, attended, underway, covered, account, onward⟩ := tended
  exact
    { memo := memo.step here rule after
      feeding := feeding.step memo here rule after
      confined := confined.step here rule after
      attended := attended.step here rule after confined onTime
      underway := underway.step attended confined onTime here rule after
      covered := covered.step memo here rule after underway
      account := fun id => (account id).step memo here rule after
      onward := fun id => (onward id).step (account id) memo here rule after }

theorem Tended.tick (tended : m.Tended g first r h) (now : Instant) :
    Tended g first r h { m with now := now } := by
  obtain ⟨memo, feeding, confined, attended, underway, covered, account, onward⟩ := tended
  exact ⟨{ memo with }, feeding.tick now, { confined with }, { attended with },
    { underway with }, { covered with }, fun id => { account id with },
    fun id => { onward id with }⟩

theorem AtRest.tended_launched (rest : m.AtRest g) :
    (m.launched g execution inputs).Tended g m.nextTask m.nextRun [] :=
  ⟨rest.unoccupied.memo execution inputs [.launch],
    rest.unoccupied.feeding execution inputs [.launch], rest.confined, rest.attended,
    underway_launched, covered_launched,
    fun _ => rest.unoccupied.account execution inputs [.launch],
    fun _ => rest.unoccupied.onward execution inputs [.launch]⟩

/-- A run that is launched is tended as long as all fires are on time. -/
theorem AtRest.tended (rest : m.AtRest g)
    (onTime : OnTime ((m.launched g execution inputs).history g schedule)) :
    ((m.launched g execution inputs).exec g schedule).Tended g m.nextTask m.nextRun
      ((m.launched g execution inputs).history g schedule) := by
  refine run_induction (P := fun h m' => OnTime h → m'.Tended g m.nextTask m.nextRun h)
    schedule ?_ ?_ (fun _ => rest.tended_launched) onTime
  · intro h m' t j work work' e m'' before here rule after onTime
    exact (before onTime.of_append.1).step onTime.of_append.2 here rule after
  · intro h m' now _ before onTime
    exact (before onTime).tick now

/-- When the launch is done, the nodes with a result are closed under the spread. -/
theorem Tended.closedUnder {cs : List Connection} (tended : m.Tended g first r h)
    (wired : Wired cs g.nodes) (onTime : OnTime h) (finished : m.LaunchAt r first .done) :
    ClosedUnder g (firedIn h) m.executedNodes := by
  have quiet : m.Quiet first := tended.underway.calm (.inl finished)
  have reached : ∀ {id n targets x}, id ∈ m.executedNodes → g.node? id = some n →
      targets ∈ rounds n (queuedFires id h) → x ∈ targets → x ∈ m.executedNodes :=
    fun ⟨_, has⟩ known =>
      (tended.onward _).reached (tended.account _) tended.memo quiet has known
  refine ⟨?_, ?_, ?_, ?_⟩
  · intro id start
    obtain ⟨k, j, launch, stage, recent, here⟩ := tended.covered.entered finished rfl id start
    have done := quiet recent here rfl
    cases stage with
    | done => exact tended.covered.entryDone recent here
    | _ => cases done
  · rintro id ⟨d, has⟩ n known u linked waits
    obtain ⟨s, found, -⟩ := wired.upstream_known (Graph.mem_of_node? known) linked
    exact tended.feeding.results has known u linked waits (by rw [found]; rfl)
  · intro id executed n known plain x behind
    exact reached executed known (mem_rounds_of_plain plain) behind
  · intro id executed n known driven port fires x behind
    obtain ⟨queued, deed⟩ := fires
    cases queued with
    | false => exact absurd deed (onTime id port)
    | true =>
        have round := mem_rounds_of_driven driven (mem_queuedFires.2 deed)
        exact reached executed known round behind

/-- A run that has returned is over. -/
theorem Tended.finished (tended : m.Tended g first r h) (returned : m.isDone first = true) :
    m.LaunchAt r first .done := by
  obtain ⟨stage, permits, here⟩ := tended.underway.launch
  simp only [isDone, here] at returned
  cases stage with
  | done => exact ⟨permits, here⟩
  | _ => cases returned

/-- The nodes that a run counts are the ones with a result. -/
theorem Confined.count {cs : List Connection} (confined : m.Confined g first r h)
    (wired : Wired cs g.nodes) :
    (g.nodes.filter fun n => (m.cell n.id).result.isSome).length = m.executedNodes.ncard := by
  have same : m.executedNodes =
      ((g.nodes.filter fun n => (m.cell n.id).result.isSome).map Node.id).toFinset := by
    ext id
    simp only [executedNodes, Set.mem_ofPred_eq, List.coe_toFinset, List.mem_map, List.mem_filter,
      Option.isSome_iff_exists]
    constructor
    · rintro ⟨d, has⟩
      obtain ⟨n, known⟩ := Option.isSome_iff_exists.1 (confined.results has).2
      have named := Graph.id_of_node? known
      exact ⟨n, ⟨Graph.mem_of_node? known, d, named ▸ has⟩, named⟩
    · rintro ⟨n, ⟨-, d, has⟩, rfl⟩
      exact ⟨d, has⟩
  have distinct : ((g.nodes.filter fun n => (m.cell n.id).result.isSome).map Node.id).Nodup :=
    wired.ids.sublist (List.filter_sublist.map Node.id)
  rw [same, Set.ncard_coe_finset, List.toFinset_card_of_nodup distinct, List.length_map]

/-- **The executed set.**  In every run of a graph that was built, for any inputs,
any functions that fire their ports on time, and any order of steps: when the run
comes to its end, the nodes that have a result are the least set that is closed
under the spread of the run, and the outcome counts them. -/
theorem executed_isLeast {w : Workflow} {registry : Registry} {settings : Settings}
    (built : Graph.build w registry settings = .ok g) (rest : m.AtRest g)
    (execution : ExecutionId) (inputs : RunInputs) (schedule : List Move)
    (onTime : OnTime ((m.launched g execution inputs).history g schedule))
    (returned : ((m.launched g execution inputs).exec g schedule).isDone m.nextTask = true) :
    let h := (m.launched g execution inputs).history g schedule
    let after := (m.launched g execution inputs).exec g schedule
    IsLeast {S | ClosedUnder g (firedIn h) S} after.executedNodes ∧
      ∃ outcome, after.outcome? g m.nextRun = some outcome ∧
        outcome.executed = after.executedNodes.ncard := by
  intro h after
  have wired := build_wired built
  have tended : after.Tended g m.nextTask m.nextRun h := rest.tended onTime
  have finished : after.LaunchAt m.nextRun m.nextTask .done := tended.finished returned
  refine ⟨⟨tended.closedUnder wired onTime finished, ?_⟩, ?_⟩
  · rintro S closed id ⟨d, has⟩
    exact (tended.confined.results has).1.mem closed
  · obtain ⟨run, running⟩ := tended.underway.running
    refine ⟨_, by rw [outcome?, running]; rfl, ?_⟩
    exact tended.confined.count wired

open Sample

set_option maxRecDepth 100000 in
/-- The choice is run to its end; the branch that was not chosen is left out. -/
theorem choice_executed :
    Graph.build choice registry .standard = .ok choiceGraph ∧ (new epoch).AtRest choiceGraph ∧
    OnTime (choiceRun.history choiceGraph (turns 100 16)) ∧
    (choiceRun.exec choiceGraph (turns 100 16)).isDone 0 = true ∧
    IsLeast {S | ClosedUnder choiceGraph (firedIn (choiceRun.history choiceGraph (turns 100 16))) S}
      (choiceRun.exec choiceGraph (turns 100 16)).executedNodes ∧
    ((choiceRun.exec choiceGraph (turns 100 16)).outcome? choiceGraph 0).map RunOutcome.executed =
      some 5 := by
  have built : Graph.build choice registry .standard = .ok choiceGraph := build_built _
  have rest := atRest_new choiceGraph epoch
  have onTime : OnTime (choiceRun.history choiceGraph (turns 100 16)) := by
    intro id port deed
    have all : (choiceRun.history choiceGraph (turns 100 16)).all (!Deed.late ·) = true := by
      decide +kernel
    cases List.all_eq_true.1 all _ deed
  have returned : (choiceRun.exec choiceGraph (turns 100 16)).isDone 0 = true := by decide +kernel
  refine ⟨built, rest, onTime, returned, ?_, by decide +kernel⟩
  exact (executed_isLeast built rest ⟨7⟩ .empty (turns 100 16) onTime returned).1

end Machine
end Flowgraph
