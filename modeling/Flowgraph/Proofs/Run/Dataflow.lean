/- # Flowgraph.Proofs.Run.Dataflow -- data-flow runs do not depend on the schedule

In a graph without ports, with expressions that do not read what is published and
functions that answer their arguments, the order of steps and the number of
permits make no difference to what a run comes to: the results, the number of
executed nodes and the failures are those of evaluating the nodes one after the
other, in any order in which sources come first.  The order in which a run stores
its results is one of these.
-/
import Flowgraph.Proofs.Run.Faithful
import Flowgraph.Proofs.Run.Once
import Flowgraph.Proofs.Run.Progress

set_option autoImplicit false

namespace Flowgraph

/-- What is executed where no port is fired. -/
def Graph.Executes (g : Graph) : NodeId → Prop := Executed g fun _ _ => False

/-! ## The order of results -/

/-- The nodes whose results were written, in order. -/
def storedIn (h : List Deed) : List NodeId :=
  h.filterMap fun
    | .stored id _ _ => some id
    | _ => none

theorem storedIn_append (h more : List Deed) : storedIn (h ++ more) = storedIn h ++ storedIn more :=
  List.filterMap_append

theorem mem_storedIn {h : List Deed} {id : NodeId} :
    id ∈ storedIn h ↔ ∃ t d, .stored id t d ∈ h := by
  simp only [storedIn, List.mem_filterMap]
  constructor
  · rintro ⟨deed, member, named⟩
    cases deed with
    | stored k t d =>
        cases named
        exact ⟨t, d, member⟩
    | _ => cases named
  · rintro ⟨t, d, member⟩
    exact ⟨_, member, rfl⟩

theorem count_storedIn (h : List Deed) (id : NodeId) :
    (storedIn h).count id = h.countP (Deed.stores id) := by
  induction h with
  | nil => rfl
  | cons deed rest ih =>
      simp only [storedIn] at ih
      cases deed with
      | stored k t d => simp [storedIn, List.count_cons, List.countP_cons, Deed.stores, ih]
      | _ => simp [storedIn, Deed.stores, ih]

theorem SourcesFirst.concat {cs : List Connection} {order : List NodeId} {last : NodeId}
    (first : SourcesFirst cs order) (there : ∀ c ∈ cs, c.target = last → c.source ∈ order) :
    SourcesFirst cs (order ++ [last]) := by
  intro earlier id later split c member target
  induction later using List.reverseRecOn with
  | nil =>
      obtain ⟨rfl, same⟩ := List.append_inj' split rfl
      cases same
      exact there c member target
  | append_singleton later final =>
      rw [← List.cons_append, ← List.append_assoc] at split
      exact first earlier id later (List.append_inj' split rfl).1 c member target

namespace Machine

variable {g : Graph} {m m' : Machine} {first : TaskId} {r : RunId} {h : List Deed}
  {on : Conditions} {cs : List Connection} {schedule : List Move}

/-! ## Data-flow runs -/

/-- All that is kept in a data-flow run. -/
structure Flowing (on : Conditions) (g : Graph) (cs : List Connection) (first : TaskId) (r : RunId)
    (h : List Deed) (m : Machine) : Prop where
  memo : m.Memo first
  account : ∀ id, m.Account first id h
  feeding : m.Feeding g first
  confined : m.Confined g first r h
  noFires : ∀ id port queued, .fired id port queued ∉ h
  order : SourcesFirst cs (storedIn h)
  faithful : m.Faithful on g cs first r

/-- A result is written only when those of all sources are. -/
theorem Flowing.step_order {t : TaskId} {j : RunId} {work work' : Work} {e : Effect}
    (flowing : m.Flowing on g cs first r h) (wired : Wired cs g.nodes) (dataFlow : g.DataFlow)
    (here : m.tasks[t]? = some ⟨j, work⟩) (rule : Transition g m t j work work' e) :
    SourcesFirst cs (storedIn (h ++ e.deeds)) := by
  rw [storedIn_append]
  by_cases none : storedIn e.deeds = []
  · rw [none, List.append_nil]
    exact flowing.order
  · obtain ⟨id, new⟩ := List.exists_mem_of_ne_nil _ none
    obtain ⟨k, d, stored⟩ := mem_storedIn.1 new
    have only : e.deeds = [.stored id k d] := by
      have short := rule.deeds_length
      match deeds : e.deeds with
      | [] => simp [deeds] at stored
      | [deed] =>
          rw [deeds, List.mem_singleton] at stored
          rw [stored]
      | _ :: _ :: _ => simp [deeds] at short
    obtain ⟨-, began, began', rfl, rfl⟩ := rule.of_stored stored
    have single : storedIn e.deeds = [id] := by rw [only]; rfl
    rw [single]
    refine flowing.order.concat fun c member target => ?_
    cases rule with
    | @call _ n _ _ _ _ known step =>
        have fed : Fed g m n := flowing.feeding.calls ⟨began, here⟩ known
        obtain ⟨d', has⟩ := fed.source wired dataFlow (Graph.mem_of_node? known) member
          (target.trans (Graph.id_of_node? known).symm)
        obtain ⟨k', earlier⟩ := (flowing.account c.source).result has
        exact mem_storedIn.2 ⟨k', d', earlier⟩

theorem Flowing.step {t : TaskId} {j : RunId} {work work' : Work} {e : Effect}
    (flowing : m.Flowing on g cs first r h) (wired : Wired cs g.nodes) (dataFlow : g.DataFlow)
    (answers : on.Answers g) (here : m.tasks[t]? = some ⟨j, work⟩)
    (rule : Transition g m t j work work' e) (after : After m t j work' e m') :
    m'.Flowing on g cs first r (h ++ e.deeds) where
  memo := flowing.memo.step here rule after
  account id := (flowing.account id).step flowing.memo here rule after
  feeding := flowing.feeding.step flowing.memo here rule after
  confined := flowing.confined.step here rule after
  noFires := by
    intro id port queued deed
    obtain old | new := List.mem_append.1 deed
    · exact flowing.noFires id port queued old
    · obtain ⟨n, known, driven⟩ := rule.of_fired new
      cases (dataFlow.plain n (Graph.mem_of_node? known)).symm.trans driven
  order := flowing.step_order wired dataFlow here rule
  faithful :=
    Faithful.step wired dataFlow flowing.memo flowing.feeding here rule after flowing.faithful
      flowing.confined answers

/-- A data-flow run keeps all this under every schedule, as long as the clock stands still. -/
theorem AtRest.flowing (rest : m.AtRest g) (wired : Wired cs g.nodes) (dataFlow : g.DataFlow)
    (answers : on.Answers g) (clock : m.now = on.now) (execution : ExecutionId)
    (still : ∀ t, .tick t ∈ schedule → t = on.now) :
    ((m.launched g execution on.inputs).exec g schedule).Flowing on g cs m.nextTask m.nextRun
      ((m.launched g execution on.inputs).history g schedule) := by
  refine run_induction (P := fun h m' => m'.Flowing on g cs m.nextTask m.nextRun h) schedule ?_ ?_ ?_
  · intro h m' t j work work' e m'' flowing here rule after
    exact flowing.step wired dataFlow answers here rule after
  · intro h m' now member flowing
    obtain ⟨memo, account, feeding, confined, noFires, order, faithful⟩ := flowing
    exact ⟨{ memo with }, fun id => { account id with }, feeding.tick now, { confined with },
      noFires, order, { faithful with clock := still now member }⟩
  · refine
      { memo := rest.unoccupied.memo execution on.inputs [.launch]
        account := fun id => rest.unoccupied.account execution on.inputs [.launch]
        feeding := rest.unoccupied.feeding execution on.inputs [.launch]
        confined := rest.confined
        noFires := by simp
        order := by
          intro earlier id later split
          simp [storedIn] at split
        faithful := ⟨clock, ?_, ?_, ?_, ?_⟩ }
    · exact ⟨_, run?_begin g m execution on.inputs [.launch], Shared.seeded_start on.inputs⟩
    · intro j k id n stage recent calling known
      obtain ⟨old, -⟩ | ⟨-, rfl⟩ := rest.unoccupied.calling_begin calling
      · exact absurd old (Nat.not_lt_of_le recent)
      · trivial
    · intro id cause error
      rw [launched, cell_begin] at error
      cases error
    · intro id n d has
      rw [launched, cell_begin] at has
      cases has

/-! ## What a run comes to -/

section Over

variable (wired : Wired cs g.nodes) (flowing : m.Flowing on g cs first r h)
  (tended : m.Tended g first r h) (finished : m.LaunchAt r first .done)
include wired flowing tended finished

/-- When the run is over, the nodes with a result are those that a run executes. -/
theorem Flowing.executed (id : NodeId) : (∃ d, (m.cell id).result = some d) ↔ g.Executes id := by
  have onTime : OnTime h := fun id port => flowing.noFires id port false
  constructor
  · rintro ⟨d, has⟩
    refine (flowing.confined.results has).1.mono fun a b => Leads.mono fun k port fires => ?_
    obtain ⟨queued, deed⟩ := fires
    exact flowing.noFires k port queued deed
  · intro executes
    have spread : Executed g (firedIn h) id :=
      executes.mono fun a b => Leads.mono fun _ _ => False.elim
    exact spread.mem (tended.closedUnder wired onTime finished)

/-- The order in which results were written is one in which sources come first. -/
theorem Flowing.topological : TopologicalOrder cs g.Executes (storedIn h) where
  nodup := by
    rw [List.nodup_iff_count_le_one]
    intro id
    rw [count_storedIn]
    exact (flowing.account id).stored
  members id := by
    rw [mem_storedIn, ← flowing.executed wired tended finished id]
    constructor
    · rintro ⟨t, d, stored⟩
      obtain ⟨recent, j, stage, there, -, has⟩ := (flowing.account id).storer stored
      exact ⟨d, flowing.memo.known recent there has⟩
    · rintro ⟨d, has⟩
      obtain ⟨t, stored⟩ := (flowing.account id).result has
      exact ⟨t, d, stored⟩
  sources := flowing.order

variable {order : List NodeId} (topological : TopologicalOrder cs g.Executes order)
include topological

/-- What was given in the run is what the evaluation gives. -/
theorem Flowing.evaluates (id : NodeId) : (on.evaluate g cs order).lookup id = m.given? id := by
  by_cases executes : g.Executes id
  · refine Conditions.evaluate_unique topological.sources ?_ id ((topological.members id).2 executes)
    intro k member
    obtain ⟨d, has⟩ :=
      (flowing.executed wired tended finished k).2 ((topological.members k).1 member)
    obtain ⟨n, known⟩ := Option.isSome_iff_exists.1 (flowing.confined.results has).2
    exact ⟨n, known, flowing.faithful.results has known⟩
  · rw [Conditions.evaluate_lookup_none fun member => executes ((topological.members id).1 member)]
    cases has : (m.cell id).result with
    | none => rw [given?, has]; rfl
    | some d => exact absurd ((flowing.executed wired tended finished id).1 ⟨d, has⟩) executes

/-- As many nodes are counted as are evaluated. -/
theorem Flowing.count :
    (g.nodes.filter fun n => (m.cell n.id).result.isSome).length = order.length := by
  have same : m.executedNodes = order.toFinset := by
    ext id
    rw [List.coe_toFinset]
    exact (flowing.executed wired tended finished id).trans (topological.members id).symm
  rw [flowing.confined.count wired, same, Set.ncard_coe_finset,
    List.toFinset_card_of_nodup topological.nodup]

/-- The failures are those of the evaluation. -/
theorem Flowing.failures : (g.nodes.filterMap m.failure?).mergeSort (fun a b => a.node.le b.node) =
    g.failuresIn (on.evaluate g cs order) := by
  have each : ∀ n, m.failure? n = ((on.evaluate g cs order).lookup n.id).bind fun given =>
      given.error.map fun e => ⟨n.id, n.name, e.message⟩ := by
    intro n
    rw [flowing.evaluates wired tended finished topological, given?, failure?]
    cases (m.cell n.id).result <;> rfl
  rw [Graph.failuresIn]
  congr 1
  exact List.filterMap_congr fun n _ => each n

end Over

/-- A graph that is built lets at least one entry run. -/
theorem build_maxEntries {w : Workflow} {registry : Registry} {settings : Settings}
    (built : Graph.build w registry settings = .ok g) : 0 < g.maxEntries := by
  obtain ⟨_, _, -, -, rfl⟩ := Graph.build_ok built
  exact Nat.lt_of_lt_of_le Nat.zero_lt_one (Nat.le_max_right _ _)

end Machine

/-! ## Results that meet -/

namespace Sample

/-- A function that gives back its argument `x`. -/
def note : Function :=
  .scripted ⟨"note", "", Signature.generalCategory, [⟨"x", .any⟩], []⟩ [.answer .arguments]

def broken : Function :=
  .scripted ⟨"broken", "", Signature.generalCategory, [], []⟩ [.fail (.executionFailed "no")]

/-- The entry `1`, the broken `2` behind it, and `4`, which nothing leads to, meet in `3`. -/
def meeting : Workflow where
  id := ⟨102⟩
  name := "meeting"
  description := none
  nodes := [.new ⟨1⟩ startKey, .new ⟨2⟩ "broken",
    ((NodeSpec.new ⟨3⟩ "note").withInput "x" "input.error.message").merging,
    (NodeSpec.new ⟨4⟩ "note").withInput "x" "workflow.parameters.p"]
  connections := [⟨⟨1⟩, none, ⟨2⟩⟩, ⟨⟨1⟩, none, ⟨3⟩⟩, ⟨⟨2⟩, none, ⟨3⟩⟩, ⟨⟨4⟩, none, ⟨3⟩⟩]

def notes : Registry := .ofList [.start, note, broken]

def meetingGraph : Graph := (Graph.build meeting notes .standard).toOption.get (by decide +kernel)

/-- The run has one parameter, and functions give back that, fail, or give back their arguments. -/
def meetingConditions : Conditions where
  inputs := ⟨[("p", .bool true)], [], .empty⟩
  now := epoch
  answer id arguments :=
    if id = ⟨1⟩ then .ok (.record [("p", .bool true)])
    else if id = ⟨2⟩ then .error (.executionFailed "no")
    else .ok (.record arguments)

theorem meeting_acyclic : meetingGraph.Acyclic :=
  Graph.acyclic_of_rank (fun id => if id = ⟨3⟩ then 2 else if id = ⟨2⟩ then 1 else 0)
    (by decide +kernel)

end Sample

namespace Machine

open Sample

end Machine
end Flowgraph
