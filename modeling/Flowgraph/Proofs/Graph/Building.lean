/- # Flowgraph.Proofs.Graph.Building -- which workflows build, and how they are laid out

A workflow is well formed when its nodes have different identifiers and known
functions, and each connection joins two of its nodes by a port that its source
has (`Workflow.WellFormed`).  `Workflow.faults` lists what is wrong with a
workflow otherwise: node by node, then connection by connection.  A workflow is
well formed exactly when the list is empty (`Workflow.faults_eq_nil`).

Building wires one connection after the other.  `Laid` says what the nodes look
like after the first few: whom each leads to, through which port, and whom it
takes results from, as lists in the order of first appearance.  One connection
either keeps it (`Laid.wire`) or is at fault (`Graph.wire_error_iff`), so a
workflow builds exactly when it is well formed, the first fault is the error,
and what is built follows the connections (`build_accepts_exactly`).
-/
import Mathlib.Data.List.Induction
import Flowgraph.Proofs.Graph.Wiring

set_option autoImplicit false

namespace Flowgraph

/-! ## Well-formed workflows -/

/-- The ports of a node of a workflow: its own, or those of its function when it has none. -/
def NodeSpec.portsIn (registry : Registry) (n : NodeSpec) : List String :=
  if n.ports ≠ [] then n.ports
  else ((registry.find? n.function).map fun f => f.signature.ports).getD []

structure Workflow.WellFormed (registry : Registry) (w : Workflow) : Prop where
  ids : (w.nodes.map NodeSpec.id).Nodup
  functions : ∀ n ∈ w.nodes, (registry.find? n.function).isSome = true
  ends : ∀ c ∈ w.connections, (∃ t ∈ w.nodes, t.id = c.target) ∧ ∃ s ∈ w.nodes, s.id = c.source
  ports : ∀ c ∈ w.connections, ∀ s ∈ w.nodes, s.id = c.source →
    if s.portsIn registry ≠ [] then ∃ p ∈ s.portsIn registry, c.port = some p
    else c.port = none ∨ c.port = some defaultPort

/-- What is wrong with a node that comes after nodes of the given identifiers. -/
def NodeSpec.fault? (registry : Registry) (before : List NodeId) (n : NodeSpec) :
    Option GraphError :=
  if n.id ∈ before then some (.duplicateNode n.id)
  else if (registry.find? n.function).isSome then none
  else some (.unknownFunction n.function)

/-- What is wrong with a connection among nodes of which the ports are known: with its target,
with its source, or with the port that it names. -/
def Connection.fault? (ports? : NodeId → Option (List String)) (c : Connection) :
    Option GraphError :=
  match ports? c.target, ports? c.source, c.port with
  | none, _, _ => some (.nodeNotFound c.target)
  | some _, none, _ => some (.nodeNotFound c.source)
  | some _, some [], none => none
  | some _, some [], some p => if p = defaultPort then none else some (.unknownPort c.source p)
  | some _, some (q :: ports), none => some (.unnamedPort c.source (q :: ports))
  | some _, some (q :: ports), some p =>
    if p ∈ q :: ports then none else some (.unknownPort c.source p)

namespace Workflow

/-- The ports of the node of an identifier. -/
def ports? (registry : Registry) (w : Workflow) (id : NodeId) : Option (List String) :=
  (w.findNode? id).map (NodeSpec.portsIn registry)

/-- What is wrong with nodes that come after nodes of the given identifiers. -/
def nodeFaults (registry : Registry) : List NodeId → List NodeSpec → List GraphError
  | _, [] => []
  | before, n :: rest => (n.fault? registry before).toList ++ nodeFaults registry (before ++ [n.id]) rest

/-- All that is wrong with a workflow: node by node, then connection by connection. -/
def faults (registry : Registry) (w : Workflow) : List GraphError :=
  nodeFaults registry [] w.nodes ++ w.connections.filterMap (Connection.fault? (w.ports? registry))

theorem nodeFaults_eq_nil {registry : Registry} {before : List NodeId} {specs : List NodeSpec} :
    nodeFaults registry before specs = [] ↔
      (specs.map NodeSpec.id).Nodup ∧ (∀ n ∈ specs, n.id ∉ before) ∧
        ∀ n ∈ specs, (registry.find? n.function).isSome = true := by
  induction specs generalizing before with
  | nil => simp [nodeFaults]
  | cons n rest ih =>
      have first : n.fault? registry before = none ↔
          n.id ∉ before ∧ (registry.find? n.function).isSome = true := by
        unfold NodeSpec.fault?
        by_cases old : n.id ∈ before
        · simp [old]
        · cases (registry.find? n.function).isSome <;> simp [old]
      rw [nodeFaults, List.append_eq_nil_iff, Option.toList_eq_nil_iff, first, ih]
      constructor
      · rintro ⟨⟨new, known⟩, distinct, apart, functions⟩
        refine ⟨?_, ?_, List.forall_mem_cons.2 ⟨known, functions⟩⟩
        · rw [List.map_cons, List.nodup_cons]
          refine ⟨fun again => ?_, distinct⟩
          obtain ⟨m, member, same⟩ := List.mem_map.1 again
          apply apart m member
          simp [same]
        · intro m member
          rcases List.mem_cons.1 member with rfl | later
          · exact new
          · intro old
            apply apart m later
            simp [old]
      · rintro ⟨distinct, apart, functions⟩
        rw [List.map_cons, List.nodup_cons] at distinct
        obtain ⟨known, functions⟩ := List.forall_mem_cons.1 functions
        refine ⟨⟨apart n List.mem_cons_self, known⟩, distinct.2, ?_, functions⟩
        intro m member old
        rcases List.mem_append.1 old with old | same
        · exact apart m (List.mem_cons_of_mem _ member) old
        · apply distinct.1
          rw [← List.mem_singleton.1 same]
          exact List.mem_map_of_mem member

theorem findNode?_eq_some {w : Workflow} (distinct : (w.nodes.map NodeSpec.id).Nodup)
    {n : NodeSpec} {id : NodeId} : w.findNode? id = some n ↔ n ∈ w.nodes ∧ n.id = id := by
  constructor
  · intro found
    have named := List.find?_some found
    exact ⟨List.mem_of_find?_eq_some found, by simpa using named⟩
  · rintro ⟨member, rfl⟩
    have there : (w.findNode? n.id).isSome = true := by
      rw [findNode?, List.find?_isSome]
      exact ⟨n, member, by simp⟩
    obtain ⟨m, found⟩ := Option.isSome_iff_exists.1 there
    have same : m.id = n.id := by simpa using List.find?_some found
    rw [found, List.inj_on_of_nodup_map distinct (List.mem_of_find?_eq_some found) member same]

theorem findNode?_eq_none {w : Workflow} {id : NodeId} :
    w.findNode? id = none ↔ ¬ ∃ n ∈ w.nodes, n.id = id := by
  simp [findNode?, List.find?_eq_none]

/-- A connection is not at fault when its ends are there and its port fits its source. -/
theorem fault?_eq_none {registry : Registry} {w : Workflow}
    (distinct : (w.nodes.map NodeSpec.id).Nodup) {c : Connection} :
    c.fault? (w.ports? registry) = none ↔
      ((∃ t ∈ w.nodes, t.id = c.target) ∧ ∃ s ∈ w.nodes, s.id = c.source) ∧
      ∀ s ∈ w.nodes, s.id = c.source →
        if s.portsIn registry ≠ [] then ∃ p ∈ s.portsIn registry, c.port = some p
        else c.port = none ∨ c.port = some defaultPort := by
  unfold Connection.fault? ports?
  cases target : w.findNode? c.target with
  | none =>
      have missing := findNode?_eq_none.1 target
      simp [missing]
  | some t =>
      obtain ⟨there, named⟩ := (findNode?_eq_some distinct).1 target
      have hasTarget : ∃ t ∈ w.nodes, t.id = c.target := ⟨t, there, named⟩
      cases source : w.findNode? c.source with
      | none =>
          have missing := findNode?_eq_none.1 source
          simp [missing]
      | some s =>
          obtain ⟨here, from'⟩ := (findNode?_eq_some distinct).1 source
          have hasSource : ∃ s ∈ w.nodes, s.id = c.source := ⟨s, here, from'⟩
          have sole : ∀ u ∈ w.nodes, u.id = c.source → u = s := fun u member same =>
            List.inj_on_of_nodup_map distinct member here (same.trans from'.symm)
          have only : ∀ {P : NodeSpec → Prop}, (∀ u ∈ w.nodes, u.id = c.source → P u) ↔ P s := by
            intro P
            constructor
            · intro all
              exact all s here from'
            · intro holds u member same
              rw [sole u member same]
              exact holds
          rw [only]
          simp only [hasTarget, hasSource, and_self, true_and, Option.map_some]
          cases ports : s.portsIn registry with
          | nil => cases c.port <;> simp
          | cons q rest =>
              cases c.port with
              | none => simp
              | some p => by_cases declared : p ∈ q :: rest <;> simp_all

/-- **A workflow is well formed exactly when nothing is wrong with it.** -/
theorem faults_eq_nil {registry : Registry} {w : Workflow} :
    w.faults registry = [] ↔ w.WellFormed registry := by
  rw [faults, List.append_eq_nil_iff, nodeFaults_eq_nil, List.filterMap_eq_nil_iff]
  constructor
  · rintro ⟨⟨distinct, -, functions⟩, sound⟩
    have each := fun c member => (fault?_eq_none distinct).1 (sound c member)
    exact ⟨distinct, functions, fun c member => (each c member).1, fun c member => (each c member).2⟩
  · intro formed
    refine ⟨⟨formed.ids, by simp, formed.functions⟩, fun c member => ?_⟩
    exact (fault?_eq_none formed.ids).2 ⟨formed.ends c member, formed.ports c member⟩

/-! ## Links in the order of first appearance -/

/-- The targets of the connections out of a node, each once. -/
def targets (cs : List Connection) (id : NodeId) : List NodeId :=
  ((cs.filter fun c => c.source == id).map Connection.target).eraseDups

/-- The sources of the connections into a node, each once. -/
def sources (cs : List Connection) (id : NodeId) : List NodeId :=
  ((cs.filter fun c => c.target == id).map Connection.source).eraseDups

/-- The targets of the connections out of a node that name a port, each once. -/
def portTargets (cs : List Connection) (id : NodeId) (port : String) : List NodeId :=
  ((cs.filter fun c => c.source == id && c.port == some port).map Connection.target).eraseDups

end Workflow

namespace Node

theorem eraseDups_concat (xs : List NodeId) (x : NodeId) :
    (xs ++ [x]).eraseDups = appendNew xs.eraseDups x := by
  rw [List.eraseDups_append, appendNew]
  by_cases old : x ∈ xs <;> simp [old, List.removeAll, List.eraseDups_cons]

theorem foldl_appendNew (xs : List NodeId) : xs.foldl appendNew [] = xs.eraseDups := by
  induction xs using List.reverseRecOn with
  | nil => rfl
  | append_singleton xs x ih => rw [List.foldl_append, ih, eraseDups_concat]; rfl

/-- The two nodes differ in their links at most. -/
def SameButLinks (n m : Node) : Prop :=
  m = { n with upstream := m.upstream, downstream := m.downstream, routes := m.routes }

/-- The node is that of a specification, with some links. -/
def Resolves (registry : Registry) (spec : NodeSpec) (n : Node) : Prop :=
  ∃ f, registry.find? spec.function = some f ∧ SameButLinks (.ofSpec spec f) n

theorem SameButLinks.trans {n m k : Node} (one : n.SameButLinks m) (two : m.SameButLinks k) :
    n.SameButLinks k := by
  unfold SameButLinks at *
  rw [two, one]

theorem linkTo_sameButLinks {n linked : Node} {port : Option String} {target : NodeId}
    (ok : n.linkTo port target = .ok linked) : n.SameButLinks linked := by
  unfold linkTo at ok
  cases driven : n.isPortDriven with
  | true =>
      simp only [driven, if_true] at ok
      cases port with
      | none => cases ok
      | some p =>
          simp only at ok
          split at ok <;> cases ok
          rfl
  | false =>
      simp only [driven, Bool.false_eq_true, if_false] at ok
      cases port with
      | none => cases ok; rfl
      | some p =>
          simp only at ok
          split at ok <;> cases ok
          rfl

/-- A node refuses a link to a downstream exactly when the port does not fit. -/
theorem linkTo_error_iff {n : Node} {c : Connection} {e : GraphError} {ports? : NodeId → Option (List String)}
    (target : (ports? c.target).isSome = true) (source : ports? c.source = some n.ports)
    (named : n.id = c.source) : n.linkTo c.port c.target = .error e ↔ c.fault? ports? = some e := by
  obtain ⟨there, known⟩ := Option.isSome_iff_exists.1 target
  unfold linkTo Connection.fault? isPortDriven
  rw [known, source]
  cases ports : n.ports with
  | nil =>
      cases c.port with
      | none => simp
      | some p => by_cases plain : p = defaultPort <;> simp [plain, named]
  | cons q rest =>
      cases c.port with
      | none => simp [named]
      | some p =>
          by_cases declared : p ∈ q :: rest
          · simp [declared]
          · simp only [declared, if_false]
            simp [named]

theorem Resolves.id {registry : Registry} {spec : NodeSpec} {n : Node}
    (resolves : Resolves registry spec n) : n.id = spec.id := by
  obtain ⟨f, -, same⟩ := resolves
  rw [same]
  rfl

theorem Resolves.ports {registry : Registry} {spec : NodeSpec} {n : Node}
    (resolves : Resolves registry spec n) : n.ports = spec.portsIn registry := by
  obtain ⟨f, known, same⟩ := resolves
  rw [same, NodeSpec.portsIn, known]
  show (if spec.ports.isEmpty then f.signature.ports else spec.ports) = _
  cases spec.ports <;> simp

theorem forall₂_resolves_map {registry : Registry} {specs : List NodeSpec} {nodes : List Node}
    {change : Node → Node} (resolves : List.Forall₂ (Resolves registry) specs nodes)
    (same : ∀ n ∈ nodes, n.SameButLinks (change n)) :
    List.Forall₂ (Resolves registry) specs (nodes.map change) := by
  induction resolves with
  | nil => exact .nil
  | cons one rest ih =>
      obtain ⟨f, known, first⟩ := one
      have ⟨here, later⟩ := List.forall_mem_cons.1 same
      exact .cons ⟨f, known, first.trans here⟩ (ih later)

theorem map_ports_of_resolves {registry : Registry} {specs : List NodeSpec} {nodes : List Node}
    (resolves : List.Forall₂ (Resolves registry) specs nodes) :
    nodes.map ports = specs.map (NodeSpec.portsIn registry) := by
  induction resolves with
  | nil => rfl
  | cons one _ ih => rw [List.map_cons, List.map_cons, ih, one.ports]

end Node

namespace Workflow

theorem targets_append (cs : List Connection) (c : Connection) (id : NodeId) :
    targets (cs ++ [c]) id =
      if id = c.source then Node.appendNew (targets cs id) c.target else targets cs id := by
  by_cases mine : id = c.source
  · simp [targets, List.filter_append, mine, Node.eraseDups_concat]
  · have other : (c.source == id) = false := by simpa using Ne.symm mine
    simp [targets, List.filter_append, mine, other]

theorem portTargets_append (cs : List Connection) (c : Connection) (id : NodeId) (port : String) :
    portTargets (cs ++ [c]) id port =
      if id = c.source ∧ c.port = some port then Node.appendNew (portTargets cs id port) c.target
      else portTargets cs id port := by
  by_cases mine : id = c.source ∧ c.port = some port
  · simp [portTargets, List.filter_append, mine, Node.eraseDups_concat]
  · have other : (c.source == id && c.port == some port) = false := by
      rw [Bool.and_eq_false_iff, beq_eq_false_iff_ne, beq_eq_false_iff_ne]
      by_contra both
      push Not at both
      exact mine ⟨both.1.symm, both.2⟩
    simp only [portTargets, List.filter_append, List.filter_cons, other]
    simp [mine]

theorem sources_eq (cs : List Connection) (id : NodeId) : sources cs id = sourcesOf cs id :=
  (Node.foldl_appendNew _).symm

end Workflow

namespace Graph

/-! ## Resolving the nodes -/

/-- Resolving fails with the first fault of a node. -/
theorem resolveNodes_error_iff {registry : Registry} {nodes : List Node} {specs : List NodeSpec}
    {e : GraphError} : resolveNodes registry nodes specs = .error e ↔
      (Workflow.nodeFaults registry (nodes.map Node.id) specs).head? = some e := by
  induction specs generalizing nodes with
  | nil => simp [resolveNodes, Workflow.nodeFaults]
  | cons spec rest ih =>
      have old : (findNode? nodes spec.id).isSome = true ↔ spec.id ∈ nodes.map Node.id := by
        rw [isSome_findNode?, List.mem_map]
      unfold resolveNodes Workflow.nodeFaults NodeSpec.fault?
      by_cases again : spec.id ∈ nodes.map Node.id
      · rw [if_pos (old.2 again), if_pos again]
        simp
      · rw [if_neg (mt old.1 again), if_neg again, Registry.get]
        cases registry.find? spec.function with
        | none => simp
        | some f =>
            show resolveNodes registry (nodes ++ [.ofSpec spec f]) rest = .error e ↔ _
            rw [ih]
            simp [Node.ofSpec]

/-- Resolved nodes stand for their specifications, in the same order. -/
theorem resolveNodes_ok {registry : Registry} {nodes nodes' : List Node} {specs : List NodeSpec}
    (ok : resolveNodes registry nodes specs = .ok nodes') :
    ∃ new, nodes' = nodes ++ new ∧ List.Forall₂ (Node.Resolves registry) specs new := by
  induction specs generalizing nodes with
  | nil =>
      cases ok
      exact ⟨[], by simp, .nil⟩
  | cons spec rest ih =>
      unfold resolveNodes at ok
      split at ok
      · cases ok
      · split at ok
        · cases ok
        · rename_i f known
          obtain ⟨new, rfl, resolves⟩ := ih ok
          refine ⟨.ofSpec spec f :: new, by simp, .cons ⟨f, ?_, rfl⟩ resolves⟩
          unfold Registry.get at known
          split at known
          · rename_i found
            cases known
            exact found
          · cases known

/-! ## Wiring the connections -/

/-- The ports of the node of an identifier. -/
def portsOf (nodes : List Node) (id : NodeId) : Option (List String) :=
  (findNode? nodes id).map Node.ports

/-- Wiring a connection fails when there is something wrong with it. -/
theorem wire_error_iff {nodes : List Node} {c : Connection} {e : GraphError} :
    wire nodes c = .error e ↔ c.fault? (portsOf nodes) = some e := by
  unfold wire
  cases target : findNode? nodes c.target with
  | none => simp [Connection.fault?, portsOf, target]
  | some t =>
      cases source : findNode? nodes c.source with
      | none => simp [Connection.fault?, portsOf, target, source]
      | some s =>
          have named : s.id = c.source := by simpa using List.find?_some source
          have refused : s.linkTo c.port c.target = .error e ↔
              c.fault? (portsOf nodes) = some e := by
            apply Node.linkTo_error_iff _ _ named
            · simp [portsOf, target]
            · simp [portsOf, source]
          rw [← refused]
          cases link : s.linkTo c.port c.target <;> simp [link]

theorem rewired_sameButLinks {c : Connection} {source linked n : Node}
    (link : source.SameButLinks linked) (sole : n.id = c.source → n = source) :
    n.SameButLinks (rewired c source linked n) := by
  have first : n.SameButLinks (if n.id = c.source then linked else n) := by
    by_cases mine : n.id = c.source
    · rw [if_pos mine, sole mine]
      exact link
    · rw [if_neg mine]
      rfl
  unfold rewired
  generalize (if n.id = c.source then linked else n) = m at first
  show n.SameButLinks (if m.id = c.target then m.linkFrom c.source source.isPortDriven else m)
  split
  · apply first.trans
    rfl
  · exact first

end Graph

/-- What nodes look like when some connections have been wired: they stand for their
specifications, and lead where the connections lead, in the order of these. -/
structure Laid (registry : Registry) (specs : List NodeSpec) (cs : List Connection)
    (nodes : List Node) : Prop where
  wired : Wired cs nodes
  resolves : List.Forall₂ (Node.Resolves registry) specs nodes
  downstream : ∀ n ∈ nodes, n.downstream = Workflow.targets cs n.id
  targets : ∀ n ∈ nodes, ∀ port,
    n.targets port = if n.isPortDriven = true then Workflow.portTargets cs n.id port else []

namespace Laid

variable {registry : Registry} {specs : List NodeSpec} {cs : List Connection}
  {nodes nodes' : List Node}

theorem start (ok : Graph.resolveNodes registry [] specs = .ok nodes) :
    Laid registry specs [] nodes := by
  have none : Unwired [] := ⟨by simp, by simp⟩
  have unwired := none.resolveNodes ok
  obtain ⟨new, rfl, resolves⟩ := Graph.resolveNodes_ok ok
  refine ⟨unwired.wired, resolves, ?_, ?_⟩
  · intro n there
    rw [(unwired.alone n there).2.1]
    rfl
  · intro n there port
    rw [Node.targets, (unwired.alone n there).2.2]
    split <;> rfl

/-- Wiring one more connection. -/
theorem wire {c : Connection} (laid : Laid registry specs cs nodes)
    (ok : Graph.wire nodes c = .ok nodes') : Laid registry specs (cs ++ [c]) nodes' := by
  have wired := laid.wired.wire ok
  obtain ⟨source, linked, member, named, -, link, rfl⟩ := Graph.wire_ok ok
  have sole : ∀ n ∈ nodes, n.id = c.source → n = source := fun n there same =>
    Graph.eq_of_id laid.wired there member (same.trans named.symm)
  have grown := Node.linkTo_ok link
  refine ⟨wired, ?_, ?_, ?_⟩
  · apply Node.forall₂_resolves_map laid.resolves
    intro n there
    exact Graph.rewired_sameButLinks (Node.linkTo_sameButLinks link) (sole n there)
  · intro _ there
    obtain ⟨n, old, rfl⟩ := List.mem_map.1 there
    rw [Graph.rewired_downstream grown (sole n old), Graph.rewired_id grown (sole n old),
      Workflow.targets_append, ← laid.downstream n old]
  · intro _ there port
    obtain ⟨n, old, rfl⟩ := List.mem_map.1 there
    rw [Graph.rewired_targets grown (sole n old), Graph.rewired_isPortDriven grown (sole n old),
      Graph.rewired_id grown (sole n old), Workflow.portTargets_append, laid.targets n old port]
    by_cases driven : n.isPortDriven = true <;> simp [driven]

theorem portsOf (laid : Laid registry specs cs nodes) (id : NodeId) :
    Graph.portsOf nodes id = ((specs.find? fun n => n.id == id).map (NodeSpec.portsIn registry)) := by
  have resolves := laid.resolves
  unfold Graph.portsOf Graph.findNode?
  clear laid
  induction resolves with
  | nil => rfl
  | cons one rest ih =>
      rw [List.find?_cons, List.find?_cons, one.id]
      split
      · rw [Option.map_some, Option.map_some, one.ports]
      · exact ih

/-- Wiring all connections fails with the first fault, or wires them all. -/
theorem wireAll {rest : List Connection} (laid : Laid registry specs cs nodes) :
    (∀ e, Graph.wireAll nodes rest = .error e ↔
      (rest.filterMap (Connection.fault? (Graph.portsOf nodes))).head? = some e) ∧
    ∀ nodes', Graph.wireAll nodes rest = .ok nodes' → Laid registry specs (cs ++ rest) nodes' := by
  induction rest generalizing cs nodes with
  | nil =>
      constructor
      · simp [Graph.wireAll]
      · intro nodes' ok
        cases ok
        rw [List.append_nil]
        exact laid
  | cons c rest ih =>
      rw [Graph.wireAll]
      cases first : Graph.wire nodes c with
      | error e' =>
          have fault := Graph.wire_error_iff.1 first
          simp [fault]
      | ok nodes₁ =>
          have sound : c.fault? (Graph.portsOf nodes) = none := by
            rw [Option.eq_none_iff_forall_not_mem]
            intro e fault
            rw [Graph.wire_error_iff.2 fault] at first
            cases first
          have laid₁ := laid.wire first
          have same : Graph.portsOf nodes = Graph.portsOf nodes₁ := by
            funext id
            rw [laid.portsOf, laid₁.portsOf]
          obtain ⟨fails, wires⟩ := ih laid₁
          rw [List.append_assoc] at wires
          refine ⟨fun e => ?_, wires⟩
          rw [List.filterMap_cons_none sound, same]
          exact fails e

end Laid

/-! ## Building -/

/-- Whether a node of the graph passes its result on through ports. -/
def Graph.drives (g : Graph) (id : NodeId) : Bool := (g.node? id).any Node.isPortDriven

/-- The graph stands for the workflow: node for node, and its links are the connections. -/
structure Graph.Follows (registry : Registry) (w : Workflow) (g : Graph) : Prop where
  nodes : List.Forall₂ (Node.Resolves registry) w.nodes g.nodes
  ports : g.nodes.map Node.ports = w.nodes.map (NodeSpec.portsIn registry)
  outputs : ∀ n ∈ g.nodes, n.downstream = Workflow.targets w.connections n.id
  inputs : ∀ n ∈ g.nodes, n.inputNodes = Workflow.sources w.connections n.id
  mirrored : ∀ s ∈ g.nodes, ∀ t ∈ g.nodes, t.id ∈ s.downstream ↔ s.id ∈ t.inputNodes
  targets : ∀ n ∈ g.nodes, ∀ port,
    n.targets port = if n.isPortDriven = true then Workflow.portTargets w.connections n.id port else []
  dataInputs : ∀ n ∈ g.nodes, n.dataInputs = n.inputNodes.filter fun id => !g.drives id

theorem Laid.follows {registry : Registry} {w : Workflow} {g : Graph}
    (laid : Laid registry w.nodes w.connections g.nodes) : g.Follows registry w where
  nodes := laid.resolves
  ports := Node.map_ports_of_resolves laid.resolves
  outputs := laid.downstream
  inputs n there := by rw [Workflow.sources_eq, ← laid.wired.upstream n there, Node.inputNodes]
  mirrored s hs t ht := by
    rw [laid.wired.downstream s hs, Node.inputNodes, laid.wired.upstream t ht, mem_sourcesOf]
  targets := laid.targets
  dataInputs n there := by
    rw [Node.dataInputs, Node.inputNodes, List.filter_map]
    congr 1
    apply List.filter_congr
    intro u linked
    obtain ⟨s, known, port⟩ := laid.wired.upstream_known there linked
    simp [Graph.drives, known, port]

/-- **Exactly the well-formed workflows build; any other fails with the first of its faults, and
what is built follows the workflow.** -/
theorem build_accepts_exactly (w : Workflow) (registry : Registry) (settings : Settings) :
    ((∃ g, Graph.build w registry settings = .ok g) ↔ w.WellFormed registry) ∧
    (∀ e, Graph.build w registry settings = .error e ↔ (w.faults registry).head? = some e) ∧
    ∀ g, Graph.build w registry settings = .ok g → g.Follows registry w := by
  have fails : ∀ e, Graph.build w registry settings = .error e ↔
      (w.faults registry).head? = some e := by
    intro e
    have first : ∀ e, Graph.resolveNodes registry [] w.nodes = .error e ↔
        (Workflow.nodeFaults registry [] w.nodes).head? = some e := fun e =>
      Graph.resolveNodes_error_iff
    unfold Graph.build Workflow.faults
    rw [List.head?_append]
    cases resolved : Graph.resolveNodes registry [] w.nodes with
    | error e' =>
        have fault : (Workflow.nodeFaults registry [] w.nodes).head? = some e' := (first e').1 resolved
        simp [fault]
    | ok nodes =>
        have none : (Workflow.nodeFaults registry [] w.nodes).head? = none := by
          rw [Option.eq_none_iff_forall_not_mem]
          intro e' fault
          rw [(first e').2 fault] at resolved
          cases resolved
        have laid := Laid.start resolved
        have ports : Graph.portsOf nodes = w.ports? registry := funext laid.portsOf
        have refused : Graph.wireAll nodes w.connections = .error e ↔
            (w.connections.filterMap (Connection.fault? (Graph.portsOf nodes))).head? = some e :=
          laid.wireAll.1 e
        rw [none, Option.none_or, ← ports, ← refused]
        cases wired : Graph.wireAll nodes w.connections <;> simp [wired]
  refine ⟨?_, fails, ?_⟩
  · rw [← Workflow.faults_eq_nil, ← List.head?_eq_none_iff, Option.eq_none_iff_forall_not_mem]
    constructor
    · rintro ⟨g, built⟩ e fault
      rw [(fails e).2 fault] at built
      cases built
    · intro sound
      cases built : Graph.build w registry settings with
      | error e => exact absurd ((fails e).1 built) (sound e)
      | ok g => exact ⟨g, rfl⟩
  · intro g built
    unfold Graph.build at built
    split at built
    · cases built
    · rename_i nodes resolved
      split at built
      · cases built
      · rename_i nodes' wired
        cases built
        have laid := (Laid.start resolved).wireAll.2 nodes' wired
        rw [List.nil_append] at laid
        exact laid.follows

namespace Sample

/-- A function with two ports. -/
def switch : Function where
  signature := ⟨"switch", "", Signature.generalCategory, [], ["left", "right"]⟩
  body _ := .return_ .unit

def switches : Registry := .ofList [.start, switch]

/-- The switch `1` leads to `2` by both ports, one of them twice, and `2` to itself. -/
def tangle : Workflow where
  id := ⟨100⟩
  name := "tangle"
  description := none
  nodes := [.new ⟨1⟩ "switch", .new ⟨2⟩ startKey]
  connections := [⟨⟨1⟩, some "right", ⟨2⟩⟩, ⟨⟨2⟩, none, ⟨2⟩⟩, ⟨⟨1⟩, some "left", ⟨2⟩⟩,
    ⟨⟨1⟩, some "right", ⟨2⟩⟩, ⟨⟨2⟩, some "default", ⟨1⟩⟩]

/-- The tangle builds; with a node of no known function and a connection to nowhere besides, the
node is the error. -/
theorem tangle_builds :
    (∃ g, Graph.build tangle switches .standard = .ok g ∧ g.Follows switches tangle ∧
      g.nodes.map Node.downstream = [[⟨2⟩], [⟨2⟩, ⟨1⟩]] ∧
      g.nodes.map Node.inputNodes = [[⟨2⟩], [⟨1⟩, ⟨2⟩]] ∧
      g.nodes.map Node.dataInputs = [[⟨2⟩], [⟨2⟩]]) ∧
    Graph.build ((tangle.connect ⟨3⟩ none ⟨4⟩).addNode (.new ⟨5⟩ "nothing")) switches .standard =
      .error (.unknownFunction "nothing") := by
  constructor
  · have formed : tangle.WellFormed switches := Workflow.faults_eq_nil.1 (by decide +kernel)
    have ⟨accepts, _, follows⟩ := build_accepts_exactly tangle switches .standard
    obtain ⟨g, built⟩ := accepts.2 formed
    have links : ∀ g', Graph.build tangle switches .standard = .ok g' →
        g'.nodes.map Node.downstream = [[⟨2⟩], [⟨2⟩, ⟨1⟩]] ∧
        g'.nodes.map Node.inputNodes = [[⟨2⟩], [⟨1⟩, ⟨2⟩]] ∧
        g'.nodes.map Node.dataInputs = [[⟨2⟩], [⟨2⟩]] := by
      intro g' built'
      cases built'
      decide +kernel
    exact ⟨g, built, follows g built, links g built⟩
  · rw [(build_accepts_exactly _ switches .standard).2.1]
    decide +kernel

end Sample
end Flowgraph
