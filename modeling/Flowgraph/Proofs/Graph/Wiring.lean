/- # Flowgraph.Proofs.Graph.Wiring -- the links of a built graph are its connections

Building goes through the connections one after the other.  `Wired` says what the
nodes know after the first few of them: whom each leads to, through which port,
and whom it takes results from, in the order of the connections.  One connection
keeps it (`Wired.wire`), and so every graph that is built is wired by the
connections of its workflow (`build_wired`).
-/
import Mathlib.Data.List.Nodup
import Flowgraph.Proofs.Run.Frame

set_option autoImplicit false

namespace Flowgraph

namespace Node

/-! ## Links of one node -/

theorem mem_appendNew {α : Type} [DecidableEq α] (xs : List α) (x y : α) :
    y ∈ appendNew xs x ↔ y ∈ xs ∨ y = x := by
  unfold appendNew
  by_cases there : x ∈ xs
  · rw [if_pos there]
    constructor
    · exact .inl
    · rintro (old | rfl)
      · exact old
      · exact there
  · rw [if_neg there, List.mem_append, List.mem_singleton]

theorem lookup_addRoute (port q : String) (target : NodeId)
    (routes : List (String × List NodeId)) :
    ((addRoute port target routes).lookup q).getD [] =
      if q = port then appendNew ((routes.lookup q).getD []) target
      else (routes.lookup q).getD [] := by
  induction routes with
  | nil =>
      by_cases same : q = port
      · simp [addRoute, same, appendNew]
      · have other : (q == port) = false := by simpa using same
        simp [addRoute, List.lookup_cons, same, other]
  | cons route rest ih =>
      obtain ⟨p, ts⟩ := route
      by_cases here : p = port
      · subst here
        by_cases same : q = p
        · simp [addRoute, same]
        · have other : (q == p) = false := by simpa using same
          simp [addRoute, List.lookup_cons, same, other]
      · by_cases same : q = p
        · subst same
          simp [addRoute, here]
        · have other : (q == p) = false := by simpa using same
          simp [addRoute, List.lookup_cons, here, other, ih]

theorem map_addUpstream (source : NodeId) (viaPort : Bool) (upstream : List Upstream) :
    (addUpstream source viaPort upstream).map Upstream.node =
      appendNew (upstream.map Upstream.node) source := by
  induction upstream with
  | nil => simp [addUpstream, appendNew]
  | cons u rest ih =>
      by_cases here : u.node = source
      · simp [addUpstream, appendNew, here]
      · have other : source ≠ u.node := Ne.symm here
        by_cases there : ∃ v ∈ rest, v.node = source <;>
          simp_all [addUpstream, appendNew]

/-- A link is an old one, or the one from the source with the port taken into account. -/
theorem mem_addUpstream {source : NodeId} {viaPort : Bool} {upstream : List Upstream}
    {u : Upstream} (linked : u ∈ addUpstream source viaPort upstream) :
    u ∈ upstream ∨ (u.node = source ∧
      (u.viaPort = viaPort ∨
        ∃ v ∈ upstream, v.node = source ∧ u.viaPort = (v.viaPort && viaPort))) := by
  induction upstream with
  | nil =>
      cases List.mem_singleton.1 linked
      exact .inr ⟨rfl, .inl rfl⟩
  | cons v rest ih =>
      by_cases here : v.node = source
      · rw [addUpstream, if_pos here] at linked
        obtain rfl | old := List.mem_cons.1 linked
        · exact .inr ⟨here, .inr ⟨v, List.mem_cons_self, here, rfl⟩⟩
        · exact .inl (List.mem_cons_of_mem _ old)
      · rw [addUpstream, if_neg here] at linked
        obtain rfl | later := List.mem_cons.1 linked
        · exact .inl List.mem_cons_self
        · obtain old | ⟨same, port | ⟨w, member, named, port⟩⟩ := ih later
          · exact .inl (List.mem_cons_of_mem _ old)
          · exact .inr ⟨same, .inl port⟩
          · exact .inr ⟨same, .inr ⟨w, List.mem_cons_of_mem _ member, named, port⟩⟩

/-- What linking a node to a downstream leaves. -/
structure Linked (n : Node) (port : Option String) (target : NodeId) (linked : Node) : Prop where
  id : linked.id = n.id
  ports : linked.ports = n.ports
  function : linked.function = n.function
  upstream : linked.upstream = n.upstream
  downstream : linked.downstream = appendNew n.downstream target
  routes : (n.isPortDriven = true ∧ ∃ p, port = some p ∧ linked.routes = addRoute p target n.routes) ∨
    (n.isPortDriven = false ∧ linked.routes = n.routes)

theorem linkTo_ok {n linked : Node} {port : Option String} {target : NodeId}
    (ok : n.linkTo port target = .ok linked) : n.Linked port target linked := by
  unfold linkTo at ok
  cases driven : n.isPortDriven with
  | true =>
      simp only [driven, if_true] at ok
      split at ok
      · cases ok
      · rename_i p
        split at ok
        · cases ok
          exact ⟨rfl, rfl, rfl, rfl, rfl, .inl ⟨driven, p, rfl, rfl⟩⟩
        · cases ok
  | false =>
      simp only [driven, Bool.false_eq_true, if_false] at ok
      split at ok
      · cases ok
        exact ⟨rfl, rfl, rfl, rfl, rfl, .inr ⟨driven, rfl⟩⟩
      · split at ok
        · cases ok
          exact ⟨rfl, rfl, rfl, rfl, rfl, .inr ⟨driven, rfl⟩⟩
        · cases ok

end Node
/-! ## All nodes -/

/-- The nodes that a node takes results from, in the order of their first connection to it. -/
def sourcesOf (cs : List Connection) (id : NodeId) : List NodeId :=
  ((cs.filter fun c => c.target == id).map Connection.source).foldl Node.appendNew []

theorem mem_foldl_appendNew {ids start : List NodeId} {k : NodeId} :
    k ∈ ids.foldl Node.appendNew start ↔ k ∈ start ∨ k ∈ ids := by
  induction ids generalizing start with
  | nil => simp
  | cons id rest ih => rw [List.foldl_cons, ih, Node.mem_appendNew, List.mem_cons, or_assoc]

theorem mem_sourcesOf {cs : List Connection} {id k : NodeId} :
    k ∈ sourcesOf cs id ↔ ∃ c ∈ cs, c.source = k ∧ c.target = id := by
  simp [sourcesOf, mem_foldl_appendNew, and_assoc, and_comm]

theorem sourcesOf_append (cs : List Connection) (c : Connection) (id : NodeId) :
    sourcesOf (cs ++ [c]) id =
      if c.target = id then Node.appendNew (sourcesOf cs id) c.source else sourcesOf cs id := by
  by_cases here : c.target = id <;> simp [sourcesOf, List.filter_append, here]

/-- What nodes know when they have been wired by some connections. -/
structure Wired (cs : List Connection) (nodes : List Node) : Prop where
  ids : (nodes.map Node.id).Nodup
  known : ∀ c ∈ cs, (∃ n ∈ nodes, n.id = c.source) ∧ ∃ n ∈ nodes, n.id = c.target
  downstream : ∀ n ∈ nodes, ∀ k, k ∈ n.downstream ↔ ∃ c ∈ cs, c.source = n.id ∧ c.target = k
  targets : ∀ n ∈ nodes, ∀ port k, k ∈ n.targets port ↔ n.isPortDriven = true ∧
    ∃ c ∈ cs, c.source = n.id ∧ c.port = some port ∧ c.target = k
  upstream : ∀ n ∈ nodes, n.upstream.map Upstream.node = sourcesOf cs n.id
  viaPort : ∀ n ∈ nodes, ∀ u ∈ n.upstream, ∀ s ∈ nodes, s.id = u.node →
    u.viaPort = s.isPortDriven

namespace Graph

theorem isSome_findNode? {nodes : List Node} {id : NodeId} :
    (findNode? nodes id).isSome = true ↔ ∃ n ∈ nodes, n.id = id := by
  simp [findNode?, List.find?_isSome]

theorem eq_of_id {cs : List Connection} {nodes : List Node} (wired : Wired cs nodes) {n m : Node}
    (one : n ∈ nodes) (two : m ∈ nodes) (same : n.id = m.id) : n = m :=
  List.inj_on_of_nodup_map wired.ids one two same

/-- A node after a connection from a source that has been linked. -/
def rewired (c : Connection) (source linked : Node) (n : Node) : Node :=
  let m := if n.id = c.source then linked else n
  if m.id = c.target then m.linkFrom c.source source.isPortDriven else m

theorem wire_ok {nodes nodes' : List Node} {c : Connection} (ok : wire nodes c = .ok nodes') :
    ∃ source linked, source ∈ nodes ∧ source.id = c.source ∧ (∃ n ∈ nodes, n.id = c.target) ∧
      source.linkTo c.port c.target = .ok linked ∧ nodes' = nodes.map (rewired c source linked) := by
  unfold wire at ok
  split at ok
  · cases ok
  · rename_i target
    split at ok
    · cases ok
    · rename_i source found
      split at ok
      · cases ok
      · rename_i linked link
        cases ok
        refine ⟨source, linked, List.mem_of_find?_eq_some found, ?_, ?_, link, ?_⟩
        · simpa using List.find?_some found
        · exact isSome_findNode?.1 (by simpa [Option.isSome_iff_ne_none] using target)
        · simp only [updateNode, List.map_map]
          rfl

section Rewired

variable {cs : List Connection} {nodes : List Node} {c : Connection} {source linked n : Node}
  (link : source.Linked c.port c.target linked) (sole : n.id = c.source → n = source)
include link sole

theorem rewired_id : (rewired c source linked n).id = n.id := by
  unfold rewired
  by_cases mine : n.id = c.source
  · cases sole mine
    simp only [mine, if_true]
    split <;> simp [Node.linkFrom, link.id, mine]
  · simp only [mine, if_false]
    split <;> rfl

theorem rewired_ports : (rewired c source linked n).ports = n.ports := by
  unfold rewired
  by_cases mine : n.id = c.source
  · cases sole mine
    simp only [mine, if_true]
    split <;> simp [Node.linkFrom, link.ports]
  · simp only [mine, if_false]
    split <;> rfl

theorem rewired_isPortDriven : (rewired c source linked n).isPortDriven = n.isPortDriven := by
  simp only [Node.isPortDriven, rewired_ports link sole]

theorem rewired_downstream : (rewired c source linked n).downstream =
    if n.id = c.source then Node.appendNew n.downstream c.target else n.downstream := by
  unfold rewired
  by_cases mine : n.id = c.source
  · cases sole mine
    simp only [mine, if_true]
    split <;> simp [Node.linkFrom, link.downstream]
  · simp only [mine, if_false]
    split <;> rfl

theorem rewired_upstream : (rewired c source linked n).upstream =
    if n.id = c.target then Node.addUpstream c.source source.isPortDriven n.upstream
    else n.upstream := by
  unfold rewired
  by_cases mine : n.id = c.source
  · cases sole mine
    simp only [mine, if_true, link.id]
    split <;> simp [Node.linkFrom, link.upstream]
  · simp only [mine, if_false]
    split <;> rfl

theorem rewired_targets (port : String) : (rewired c source linked n).targets port =
    if n.isPortDriven = true ∧ n.id = c.source ∧ c.port = some port then
      Node.appendNew (n.targets port) c.target
    else n.targets port := by
  have routes : (rewired c source linked n).routes =
      if n.id = c.source then linked.routes else n.routes := by
    unfold rewired
    by_cases mine : n.id = c.source
    · simp only [mine, if_true]
      split <;> rfl
    · simp only [mine, if_false]
      split <;> rfl
  unfold Node.targets
  rw [routes]
  by_cases mine : n.id = c.source
  · cases sole mine
    rw [if_pos mine]
    obtain ⟨driven, p, named, grown⟩ | ⟨plain, same⟩ := link.routes
    · rw [grown, Node.lookup_addRoute]
      simp only [driven, mine, named, Option.some.injEq, true_and]
      by_cases here : p = port
      · rw [if_pos here, if_pos here.symm]
      · rw [if_neg here, if_neg (Ne.symm here)]
    · simp [same, plain]
  · simp [mine]

theorem mem_rewired_targets (port : String) (k : NodeId) :
    k ∈ (rewired c source linked n).targets port ↔ k ∈ n.targets port ∨
      (n.isPortDriven = true ∧ n.id = c.source ∧ c.port = some port ∧ k = c.target) := by
  rw [rewired_targets link sole]
  split
  · rename_i fits
    simp [Node.mem_appendNew, fits]
  · rename_i unfit
    exact (or_iff_left fun ⟨driven, mine, named, _⟩ => unfit ⟨driven, mine, named⟩).symm

end Rewired

end Graph

/-- Wiring one more connection. -/
theorem Wired.wire {cs : List Connection} {nodes nodes' : List Node} {c : Connection}
    (wired : Wired cs nodes) (ok : Graph.wire nodes c = .ok nodes') : Wired (cs ++ [c]) nodes' := by
  obtain ⟨source, linked, member, named, target, linkTo, rfl⟩ := Graph.wire_ok ok
  have link := Node.linkTo_ok linkTo
  have sole : ∀ n ∈ nodes, n.id = c.source → n = source := fun n there same =>
    Graph.eq_of_id wired there member (same.trans named.symm)
  have ids : (nodes.map (Graph.rewired c source linked)).map Node.id = nodes.map Node.id := by
    rw [List.map_map]
    exact List.map_congr_left fun n there => Graph.rewired_id link (sole n there)
  have still : ∀ id, (∃ n ∈ nodes, n.id = id) →
      ∃ n ∈ nodes.map (Graph.rewired c source linked), n.id = id := by
    rintro _ ⟨n, there, rfl⟩
    exact ⟨_, List.mem_map_of_mem there, Graph.rewired_id link (sole n there)⟩
  have both : ∀ {P : Connection → Prop}, (∃ d ∈ cs ++ [c], P d) ↔ (∃ d ∈ cs, P d) ∨ P c := by
    intro P
    simp only [List.mem_append, List.mem_singleton, or_and_right, exists_or, exists_eq_left]
  exact
    { ids := by
        rw [ids]
        exact wired.ids
      known := by
        intro d there
        obtain old | new := List.mem_append.1 there
        · exact ⟨still _ (wired.known d old).1, still _ (wired.known d old).2⟩
        · cases List.mem_singleton.1 new
          exact ⟨still _ ⟨source, member, named⟩, still _ target⟩
      downstream := by
        intro _ there k
        obtain ⟨n, old, rfl⟩ := List.mem_map.1 there
        rw [Graph.rewired_downstream link (sole n old), Graph.rewired_id link (sole n old), both,
          ← wired.downstream n old k]
        by_cases mine : n.id = c.source
        · rw [if_pos mine, Node.mem_appendNew]
          exact or_congr_right ⟨fun same => ⟨mine.symm, same.symm⟩, fun same => same.2.symm⟩
        · rw [if_neg mine]
          exact (or_iff_left fun same => mine same.1.symm).symm
      targets := by
        intro _ there port k
        obtain ⟨n, old, rfl⟩ := List.mem_map.1 there
        rw [Graph.mem_rewired_targets link (sole n old), Graph.rewired_isPortDriven link (sole n old),
          Graph.rewired_id link (sole n old), both, wired.targets n old port k, and_or_left]
        refine or_congr_right (and_congr_right fun _ => ?_)
        exact ⟨fun same => ⟨same.1.symm, same.2.1, same.2.2.symm⟩,
          fun same => ⟨same.1.symm, same.2.1, same.2.2.symm⟩⟩
      upstream := by
        intro _ there
        obtain ⟨n, old, rfl⟩ := List.mem_map.1 there
        rw [Graph.rewired_upstream link (sole n old), Graph.rewired_id link (sole n old),
          sourcesOf_append, ← wired.upstream n old]
        by_cases mine : n.id = c.target
        · rw [if_pos mine, if_pos mine.symm, Node.map_addUpstream]
        · rw [if_neg mine, if_neg (Ne.symm mine)]
      viaPort := by
        intro _ there u linkedTo _ there' same
        obtain ⟨n, old, rfl⟩ := List.mem_map.1 there
        obtain ⟨s, old', rfl⟩ := List.mem_map.1 there'
        rw [Graph.rewired_id link (sole s old')] at same
        rw [Graph.rewired_isPortDriven link (sole s old')]
        rw [Graph.rewired_upstream link (sole n old)] at linkedTo
        by_cases mine : n.id = c.target
        · rw [if_pos mine] at linkedTo
          obtain before | ⟨from', port⟩ := Node.mem_addUpstream linkedTo
          · exact wired.viaPort n old u before s old' same
          · have isSource : s = source := sole s old' (same.trans from')
            obtain port | ⟨v, before, from', port⟩ := port
            · rw [port, isSource]
            · have first := wired.viaPort n old v before source member (named.trans from'.symm)
              rw [port, first, Bool.and_self, isSource]
        · rw [if_neg mine] at linkedTo
          exact wired.viaPort n old u linkedTo s old' same }

theorem Wired.wireAll {nodes nodes' : List Node} {cs rest : List Connection}
    (wired : Wired cs nodes) (ok : Graph.wireAll nodes rest = .ok nodes') :
    Wired (cs ++ rest) nodes' := by
  induction rest generalizing cs nodes with
  | nil =>
      cases ok
      rw [List.append_nil]
      exact wired
  | cons c rest ih =>
      rw [Graph.wireAll] at ok
      split at ok
      · cases ok
      · rename_i first
        have := ih (wired.wire first) ok
        rwa [List.append_assoc] at this

/-- Nodes that were resolved have no links yet, and different identifiers. -/
structure Unwired (nodes : List Node) : Prop where
  ids : (nodes.map Node.id).Nodup
  alone : ∀ n ∈ nodes, n.upstream = [] ∧ n.downstream = [] ∧ n.routes = []

theorem Unwired.resolveNodes {registry : Registry} {nodes nodes' : List Node}
    {specs : List NodeSpec} (unwired : Unwired nodes)
    (ok : Graph.resolveNodes registry nodes specs = .ok nodes') : Unwired nodes' := by
  induction specs generalizing nodes with
  | nil =>
      cases ok
      exact unwired
  | cons spec rest ih =>
      rw [Graph.resolveNodes] at ok
      split at ok
      · cases ok
      · rename_i new
        split at ok
        · cases ok
        · rename_i f _
          refine ih ⟨?_, ?_⟩ ok
          · rw [List.map_append, List.nodup_append]
            refine ⟨unwired.ids, List.nodup_singleton _, ?_⟩
            intro id old id' single same
            obtain ⟨n, there, rfl⟩ := List.mem_map.1 old
            cases List.mem_singleton.1 single
            exact new (Graph.isSome_findNode?.2 ⟨n, there, same⟩)
          · intro n there
            obtain old | single := List.mem_append.1 there
            · exact unwired.alone n old
            · cases List.mem_singleton.1 single
              exact ⟨rfl, rfl, rfl⟩

theorem Unwired.wired {nodes : List Node} (unwired : Unwired nodes) : Wired [] nodes where
  ids := unwired.ids
  known := nofun
  downstream n there k := by simp [(unwired.alone n there).2.1]
  targets n there port k := by simp [Node.targets, (unwired.alone n there).2.2]
  upstream n there := by simp [(unwired.alone n there).1, sourcesOf]
  viaPort n there u linked := by
    rw [(unwired.alone n there).1] at linked
    cases linked

/-- Building resolves the nodes and wires the connections; the settings say no more than how
many entries may run at a time. -/
theorem Graph.build_ok {w : Workflow} {registry : Registry} {settings : Settings} {g : Graph}
    (built : Graph.build w registry settings = .ok g) :
    ∃ nodes nodes', Graph.resolveNodes registry [] w.nodes = .ok nodes ∧
      Graph.wireAll nodes w.connections = .ok nodes' ∧
      g = ⟨w.id, w.name, nodes', Template.render, max settings.maxConcurrentEntries 1⟩ := by
  unfold Graph.build at built
  split at built
  · cases built
  · rename_i nodes resolved
    split at built
    · cases built
    · rename_i nodes' wired
      cases built
      exact ⟨nodes, nodes', resolved, wired, rfl⟩

/-- **A built graph is wired by the connections of its workflow.** -/
theorem build_wired {w : Workflow} {registry : Registry} {settings : Settings} {g : Graph}
    (built : Graph.build w registry settings = .ok g) : Wired w.connections g.nodes := by
  obtain ⟨nodes, nodes', resolved, wired, rfl⟩ := Graph.build_ok built
  have none : Unwired [] := ⟨by simp, by simp⟩
  exact (none.resolveNodes resolved).wired.wireAll wired

section Known

variable {g : Graph} {cs : List Connection} (wired : Wired cs g.nodes) {n : Node}
include wired

theorem Wired.node? (there : n ∈ g.nodes) : g.node? n.id = some n := by
  cases found : g.node? n.id with
  | none =>
      have missing := List.find?_eq_none.1 found n there
      simp at missing
  | some m =>
      rw [Graph.eq_of_id wired (Graph.mem_of_node? found) there (Graph.id_of_node? found)]

/-- A link comes from a connection. -/
theorem Wired.connection (there : n ∈ g.nodes) {u : Upstream} (linked : u ∈ n.upstream) :
    ∃ c ∈ cs, c.source = u.node ∧ c.target = n.id := by
  rw [← mem_sourcesOf, ← wired.upstream n there]
  exact List.mem_map_of_mem linked

/-- No link comes from nowhere. -/
theorem Wired.upstream_known (there : n ∈ g.nodes) {u : Upstream} (linked : u ∈ n.upstream) :
    ∃ s, g.node? u.node = some s ∧ u.viaPort = s.isPortDriven := by
  obtain ⟨c, member, source, -⟩ := wired.connection there linked
  obtain ⟨s, there', named⟩ := (wired.known c member).1
  have same : s.id = u.node := named.trans source
  exact ⟨s, same ▸ wired.node? there', wired.viaPort n there u linked s there' same⟩

theorem Wired.entry_known {id : NodeId} (entry : id ∈ g.entries) : ∃ n, g.node? id = some n := by
  obtain ⟨n, there, rfl⟩ := List.mem_map.1 entry
  exact ⟨n, wired.node? (List.mem_of_mem_filter there)⟩

/-- No connection leads nowhere. -/
theorem Wired.target_known {c : Connection} (member : c ∈ cs) :
    ∃ n, g.node? c.target = some n := by
  obtain ⟨n, there, named⟩ := (wired.known c member).2
  exact ⟨n, named ▸ wired.node? there⟩

theorem Wired.downstream_known (there : n ∈ g.nodes) {id : NodeId} (behind : id ∈ n.downstream) :
    ∃ n, g.node? id = some n := by
  obtain ⟨c, member, -, rfl⟩ := (wired.downstream n there id).1 behind
  exact wired.target_known member

theorem Wired.targets_known (there : n ∈ g.nodes) {port : String} {id : NodeId}
    (behind : id ∈ n.targets port) : ∃ n, g.node? id = some n := by
  obtain ⟨-, c, member, -, -, rfl⟩ := (wired.targets n there port id).1 behind
  exact wired.target_known member

end Known

end Flowgraph
