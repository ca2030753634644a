/- # Flowgraph.Proofs.Run.Evaluation -- a graph evaluated one node after the other

A data-flow graph can be evaluated without tasks, gates or a shared document that
changes: node after node in an order in which sources come first, each on the
merge of what its sources gave.  `evaluate` does that, for functions whose
outcomes are known from their arguments (`Answers`).

What the evaluation gives does not depend on the order: results that fit together
everywhere, each being what its node gives on the results of its sources, are those
of any such order (`evaluate_unique`).
-/
import Mathlib.Data.List.Induction
import Flowgraph.Proofs.Graph.Wiring
import Flowgraph.Proofs.Run.Unpublished
import Flowgraph.Run.Drive

set_option autoImplicit false

namespace Flowgraph

/-! ## Arguments -/

namespace Node

variable (n : Node) (evaluator : Evaluator)

/-- The expressions that are mapped to the node's parameters. -/
def expressions : List String :=
  n.inputs.map Mapping.source ++ n.dictionary.map DictionaryEntry.source

/-- Bind parameters in order, but for those that the engine fills itself. -/
def bindArguments (scope : Document) : Members → List Parameter → Except BindingError Members
  | arguments, [] => .ok arguments
  | arguments, p :: rest =>
    if p.kind.isInjected then bindArguments scope arguments rest
    else
      match n.bindParameter evaluator scope p with
      | .error e => .error e
      | .ok v => bindArguments scope (Members.put p.name v arguments) rest

/-- The arguments of the node's function. -/
def arguments (scope : Document) : Except BindingError Members :=
  n.bindArguments evaluator scope [] n.function.signature.parameters

variable {n} {evaluator}

theorem bindFrom_arguments (context : Context) (scope : Document) (ps : List Parameter)
    (i : Invocation) : (n.bindFrom evaluator context scope i ps).map Invocation.arguments =
      n.bindArguments evaluator scope i.arguments ps := by
  induction ps generalizing i with
  | nil => rfl
  | cons p rest ih =>
      cases kind : p.kind with
      | context | flow => simp [bindFrom, bindArguments, kind, ParamKind.isInjected, ih]
      | _ =>
          simp only [bindFrom, bindArguments, kind, ParamKind.isInjected, Bool.false_eq_true,
            if_false]
          cases n.bindParameter evaluator scope p with
          | error e => rfl
          | ok v => exact ih _

/-- The arguments depend neither on the run nor on the node's ports. -/
theorem bind_arguments (context : Context) (scope : Document) :
    (n.bind evaluator context scope).map Invocation.arguments = n.arguments evaluator scope :=
  bindFrom_arguments context scope _ _

end Node

namespace Binding

/-- An expression that reads nothing of what is published. -/
def Blind (evaluator : Evaluator) (expression : String) : Prop :=
  ∀ parameter scope, resolve evaluator parameter expression scope =
    resolve evaluator parameter expression scope.unpublished

variable {evaluator : Evaluator}

theorem bindEntries_unpublished {entries : List DictionaryEntry}
    (blind : ∀ e ∈ entries, Blind evaluator e.source) (parameter : String) (scope : Document)
    (members : Members) : bindEntries evaluator parameter scope members entries =
      bindEntries evaluator parameter scope.unpublished members entries := by
  induction entries generalizing members with
  | nil => rfl
  | cons e rest ih =>
      have later := ih fun e' member => blind e' (List.mem_cons_of_mem _ member)
      rw [bindEntries, bindEntries, ← blind e List.mem_cons_self]
      split
      · cases resolve evaluator parameter e.source scope with
        | error cause => rfl
        | ok v => exact later _
      · exact later _

theorem bind_unpublished {expression : Option String}
    (blind : ∀ e, expression = some e → Blind evaluator e) (p : Parameter) (scope : Document) :
    bind evaluator p expression scope = bind evaluator p expression scope.unpublished := by
  unfold Binding.bind
  cases kept : expression.filter fun e => !Text.isBlankText e with
  | none => rfl
  | some e =>
      have mapped : expression = some e := (Option.filter_eq_some_iff.1 kept).1
      simp only
      rw [← blind e mapped]

end Binding

namespace Node

variable {n : Node} {evaluator : Evaluator}

/-- Blind expressions give a node the same arguments whatever has been published. -/
theorem arguments_unpublished (blind : ∀ e ∈ n.expressions, Binding.Blind evaluator e)
    (scope : Document) :
    n.arguments evaluator scope = n.arguments evaluator scope.unpublished := by
  have entries : ∀ e ∈ n.dictionary, Binding.Blind evaluator e.source :=
    fun e member => blind e.source (List.mem_append_right _ (List.mem_map_of_mem member))
  have mapped : ∀ parameter e, n.inputFor parameter = some e → Binding.Blind evaluator e := by
    intro parameter e found
    obtain ⟨m, there, rfl⟩ := Option.map_eq_some_iff.1 found
    exact blind _ (List.mem_append_left _ (List.mem_map_of_mem (List.mem_of_find?_eq_some there)))
  have parameter : ∀ p, n.bindParameter evaluator scope p =
      n.bindParameter evaluator scope.unpublished p := by
    intro p
    unfold bindParameter
    rw [Binding.bindDictionary, Binding.bindEntries_unpublished entries, ← Binding.bindDictionary,
      Binding.bind_unpublished (mapped p.name)]
  have all : ∀ ps arguments, n.bindArguments evaluator scope arguments ps =
      n.bindArguments evaluator scope.unpublished arguments ps := by
    intro ps
    induction ps with
    | nil => exact fun _ => rfl
    | cons p rest ih =>
        intro arguments
        rw [bindArguments, bindArguments, ← parameter]
        split
        · exact ih arguments
        · cases n.bindParameter evaluator scope p with
          | error e => rfl
          | ok v => exact ih _
  exact all _ []

end Node

/-! ## What a node gives -/

/-- What is the same in all runs that are compared. -/
structure Conditions where
  inputs : RunInputs
  /-- The reading of the clock. -/
  now : Instant
  /-- The outcomes of the nodes' functions, by their arguments. -/
  answer : NodeId → Members → Except NodeError Returned

/-- The program of a node without ports ends with the outcome under a clock that stands
still, whatever has been published in its run. -/
inductive Program.Ends (on : Conditions) (id : NodeId) (outcome : Except NodeError Returned) :
    Program → Prop
  | finish : Ends on id outcome (.finish outcome)
  | publish {key value next}
      (goes : ∀ s : Shared, s.Seeded on.inputs →
        Ends on id outcome (next (s.publishNode id key value).1)) :
      Ends on id outcome (.publish key value next)
  | publishOutput {name value next}
      (goes : ∀ s : Shared, s.Seeded on.inputs →
        Ends on id outcome (next (s.publishOutput name value).1)) :
      Ends on id outcome (.publishOutput name value next)
  | readShared {next}
      (goes : ∀ s : Shared, s.Seeded on.inputs → Ends on id outcome (next s.document)) :
      Ends on id outcome (.readShared next)
  | notify {notice next} (goes : Ends on id outcome next) : Ends on id outcome (.notify notice next)
  | fire {port next} (goes : Ends on id outcome (next (.error (.portless id)))) :
      Ends on id outcome (.fire port next)
  | readClock {next} (goes : Ends on id outcome (next on.now)) :
      Ends on id outcome (.readClock next)
  | pause {milliseconds next} (goes : Ends on id outcome next) :
      Ends on id outcome (.pause milliseconds next)
  | leave {work next} (goes : Ends on id outcome next) : Ends on id outcome (.leave work next)

/-- The nodes' functions answer their arguments: with the same arguments they end in the
same way, wherever and whenever they are called. -/
def Conditions.Answers (on : Conditions) (g : Graph) : Prop :=
  ∀ n ∈ g.nodes, ∀ context : Context, context.node = n.id → context.name = n.name →
    context.inputs = on.inputs → ∀ scope i, n.bind g.evaluator context scope = .ok i →
      (n.function.body i).Ends on n.id (on.answer n.id i.arguments)

/-- What a node gives to those that take results from it, and to the run. -/
structure Given where
  result : Document
  error : Option NodeError
  deriving DecidableEq

namespace Conditions

variable (on : Conditions) (g : Graph) (cs : List Connection)

/-- The outcome of a node that has received a document. -/
def outcome (n : Node) (received : Document) : Except NodeError Document :=
  match inputScope (Shared.seed on.inputs) received with
  | .error e => .error (.path e)
  | .ok scope =>
    match n.arguments g.evaluator scope with
    | .error e => .error (.binding e)
    | .ok arguments => Machine.conclude n received (on.answer n.id arguments)

/-- What a node gives with an outcome. -/
def given (n : Node) : Except NodeError Document → Given
  | .ok d => ⟨d, none⟩
  | .error e => ⟨n.failure e on.now, some e⟩

/-- What a node receives when the results of its sources are known: starting from nothing, each
is merged deeply into the ones before it, in the order of the connections. -/
def received (known : NodeId → Option Given) (n : Node) : Document :=
  ((sourcesOf cs n.id).filterMap fun s => (known s).map Given.result).foldl
    (fun before d => before.merge d) .empty

/-- What a node gives when the results of its sources are known. -/
def give (known : NodeId → Option Given) (n : Node) : Given :=
  on.given n (on.outcome g n (received cs known n))

/-- Evaluate one node after the others; the latest comes first. -/
def evaluateNext (done : List (NodeId × Given)) (id : NodeId) : List (NodeId × Given) :=
  match g.node? id with
  | none => done
  | some n => (id, on.give g cs (fun s => done.lookup s) n) :: done

/-- Evaluate nodes one after the other. -/
def evaluate (order : List NodeId) : List (NodeId × Given) :=
  order.foldl (on.evaluateNext g cs) []

end Conditions

/-- The failures among what nodes have given, ordered by node. -/
def Graph.failuresIn (g : Graph) (done : List (NodeId × Given)) : List NodeFailure :=
  (g.nodes.filterMap fun n => (done.lookup n.id).bind fun given =>
    given.error.map fun e => ⟨n.id, n.name, e.message⟩).mergeSort fun a b => a.node.le b.node

/-! ## Orders -/

/-- Whatever has a connection to a node stands before it. -/
def SourcesFirst (cs : List Connection) (order : List NodeId) : Prop :=
  ∀ earlier id later, order = earlier ++ id :: later →
    ∀ c ∈ cs, c.target = id → c.source ∈ earlier

/-- All nodes of a set, each once, in an order in which sources come first. -/
structure TopologicalOrder (cs : List Connection) (S : NodeId → Prop) (order : List NodeId) :
    Prop where
  nodup : order.Nodup
  members : ∀ id, id ∈ order ↔ S id
  sources : SourcesFirst cs order

theorem SourcesFirst.init {cs : List Connection} {order : List NodeId} {last : NodeId}
    (first : SourcesFirst cs (order ++ [last])) : SourcesFirst cs order := by
  rintro earlier id later rfl c member target
  exact first earlier id (later ++ [last]) (by simp) c member target

namespace Conditions

variable {on : Conditions} {g : Graph} {cs : List Connection}

theorem received_congr {known known' : NodeId → Option Given} {n : Node}
    (same : ∀ c ∈ cs, c.target = n.id → known c.source = known' c.source) :
    received cs known n = received cs known' n := by
  unfold received
  congr 1
  refine List.filterMap_congr fun s member => ?_
  obtain ⟨c, there, rfl, target⟩ := mem_sourcesOf.1 member
  rw [same c there target]

/-- **Evaluation is the only way for results to fit.**  Results of which each is what
its node gives on the results of its sources are those of the evaluation, in whichever
order it goes. -/
theorem evaluate_unique {order : List NodeId} {known : NodeId → Option Given}
    (first : SourcesFirst cs order)
    (fits : ∀ id ∈ order, ∃ n, g.node? id = some n ∧ known id = some (on.give g cs known n)) :
    ∀ id ∈ order, (on.evaluate g cs order).lookup id = known id := by
  induction order using List.reverseRecOn with
  | nil => simp
  | append_singleton order last ih =>
      have before := ih first.init fun id member => fits id (List.mem_append_left _ member)
      obtain ⟨n, found, gives⟩ := fits last (by simp)
      have same : on.give g cs (fun s => (on.evaluate g cs order).lookup s) n =
          on.give g cs known n := by
        unfold give
        rw [received_congr fun c member target => before c.source
          (first order last [] rfl c member (target.trans (Graph.id_of_node? found)))]
      intro id member
      have next : on.evaluate g cs (order ++ [last]) =
          (last, on.give g cs known n) :: on.evaluate g cs order := by
        rw [evaluate, List.foldl_append, List.foldl_cons, List.foldl_nil, ← evaluate,
          evaluateNext, found]
        simp only [same]
      rw [next]
      by_cases here : id = last
      · subst here
        rw [List.lookup_cons_self, gives]
      · have other : (id == last) = false := by simpa using here
        rw [List.lookup_cons, other]
        obtain old | new := List.mem_append.1 member
        · exact before id old
        · exact absurd (List.mem_singleton.1 new) here

/-- Nothing is evaluated but the nodes of the order. -/
theorem evaluate_lookup_none {order : List NodeId} {id : NodeId} (absent : id ∉ order) :
    (on.evaluate g cs order).lookup id = none := by
  induction order using List.reverseRecOn with
  | nil => rfl
  | append_singleton order last ih =>
      rw [List.mem_append, not_or] at absent
      have other : (id == last) = false := by simpa using absent.2
      rw [evaluate, List.foldl_append, List.foldl_cons, List.foldl_nil, ← evaluate, evaluateNext]
      split
      · exact ih absent.1
      · rw [List.lookup_cons, other]
        exact ih absent.1

end Conditions
end Flowgraph
