/- # Flowgraph.Proofs.Graph.DataCycles -- which data cycles are reported

Nodes that can be reached from each other, along links of any kind, are together
(`Graph.Together`).  The groups of a graph are exactly the classes of nodes that are
together (`Graph.mem_groups`), each reported once (`Graph.groups_disjoint`).  A link lies on
a cycle when its ends are together; so the groups with a link inside that waits are the
places where a run can wait for itself, and no such link is missed
(`data_cycles_are_exact`).
-/
import Flowgraph.Proofs.Graph.Building
import Flowgraph.Proofs.Graph.Search
import Flowgraph.Proofs.Run.Progress

set_option autoImplicit false

namespace Flowgraph

namespace Graph

variable {g : Graph} {a b c k : NodeId} {cs : List Connection}

/-! ## Links -/

/-- A node leads to another, through a port or not. -/
def Links (g : Graph) (a b : NodeId) : Prop := ∃ n, g.node? b = some n ∧ a ∈ n.inputNodes

/-- A node can be reached from another along links of any kind. -/
def Reaches (g : Graph) : NodeId → NodeId → Prop := Relation.ReflTransGen g.Links

/-- Each of two nodes can be reached from the other. -/
def Together (g : Graph) (a b : NodeId) : Prop := g.Reaches a b ∧ g.Reaches b a

theorem Together.symm (both : g.Together a b) : g.Together b a := ⟨both.2, both.1⟩

theorem Together.trans (one : g.Together a b) (two : g.Together b c) : g.Together a c :=
  ⟨Relation.ReflTransGen.trans one.1 two.1, Relation.ReflTransGen.trans two.2 one.2⟩

theorem mem_ids : a ∈ g.ids ↔ ∃ n ∈ g.nodes, n.id = a := List.mem_map

theorem mem_ids_of_links (links : g.Links a b) : b ∈ g.ids := by
  obtain ⟨n, known, -⟩ := links
  exact mem_ids.2 ⟨n, mem_of_node? known, id_of_node? known⟩

theorem mem_ids_of_reaches (known : a ∈ g.ids) (reaches : g.Reaches a b) : b ∈ g.ids := by
  cases reaches with
  | refl => exact known
  | tail _ links => exact mem_ids_of_links links

section Wired

variable (wired : Wired cs g.nodes)
include wired

/-- The links are the connections. -/
theorem links_iff : g.Links a b ↔ ∃ c ∈ cs, c.source = a ∧ c.target = b := by
  have linked : ∀ n ∈ g.nodes, a ∈ n.inputNodes ↔ ∃ c ∈ cs, c.source = a ∧ c.target = n.id := by
    intro n there
    rw [Node.inputNodes, wired.upstream n there, mem_sourcesOf]
  constructor
  · rintro ⟨n, known, inside⟩
    rw [← id_of_node? known]
    exact (linked n (mem_of_node? known)).1 inside
  · rintro ⟨c, member, source, rfl⟩
    obtain ⟨n, known⟩ := wired.target_known member
    refine ⟨n, known, (linked n (mem_of_node? known)).2 ⟨c, member, source, ?_⟩⟩
    exact (id_of_node? known).symm

/-- A node waits for those that lead to it and have no ports. -/
theorem waits_iff : g.waits b a = true ↔ g.Links a b ∧ g.drives a = false := by
  have driven : ∀ n ∈ g.nodes, ∀ u ∈ n.upstream, u.viaPort = g.drives u.node := by
    intro n there u linked
    obtain ⟨s, known, port⟩ := wired.upstream_known there linked
    rw [port, drives, known, Option.any_some]
  constructor
  · intro waits
    rw [Graph.waits] at waits
    split at waits
    · rename_i n known
      obtain ⟨u, data, rfl⟩ := List.mem_map.1 (of_decide_eq_true waits)
      obtain ⟨linked, plain⟩ := List.mem_filter.1 data
      refine ⟨⟨n, known, List.mem_map_of_mem linked⟩, ?_⟩
      rw [← driven n (mem_of_node? known) u linked]
      simpa using plain
    · cases waits
  · rintro ⟨⟨n, known, inside⟩, plain⟩
    obtain ⟨u, linked, rfl⟩ := List.mem_map.1 inside
    exact waits_of_linked known linked
      ((driven n (mem_of_node? known) u linked).trans plain)

/-! ## Reachability as it is searched -/

theorem mem_successors : b ∈ g.successors a ↔ g.Links a b := by
  simp only [successors, List.mem_reverse, List.mem_map, List.mem_filter, decide_eq_true_eq]
  constructor
  · rintro ⟨n, ⟨there, linked⟩, rfl⟩
    exact ⟨n, wired.node? there, linked⟩
  · rintro ⟨n, known, linked⟩
    exact ⟨n, ⟨mem_of_node? known, linked⟩, id_of_node? known⟩

theorem reaches_eq : Search.Reaches g.successors = g.Reaches :=
  congrArg Relation.ReflTransGen (funext₂ fun _ _ => propext (mem_successors wired))

theorem successors_known : ∀ x ∈ g.ids, ∀ y ∈ g.successors x, y ∈ g.ids :=
  fun _ _ _ after => mem_ids_of_links ((mem_successors wired).1 after)

theorem mem_reachable (known : a ∈ g.ids) : b ∈ g.reachable a ↔ g.Reaches a b := by
  have within : ∀ r ∈ [a], r ∈ g.ids := fun r member => List.mem_singleton.1 member ▸ known
  rw [reachable, Search.mem_postOrder (successors_known wired) within, reaches_eq wired]
  simp

end Wired

/-! ## Groups -/

/-- All nodes, in the order in which a search leaves them. -/
def order (g : Graph) : List NodeId := Search.postOrder g.successors g.ids g.ids

/-- The nodes that are found to be together with a node. -/
def component (g : Graph) (a : NodeId) : List NodeId :=
  g.order.filter fun k => decide (k ∈ g.reachable a) && decide (a ∈ g.reachable k)

theorem groups_eq (g : Graph) : g.groups = g.order.filterMap fun a =>
    if (g.component a).getLast? = some a then some (g.component a) else none := by
  simp only [groups, reachTable, group, List.filterMap_map, List.filter_map, List.map_map,
    Function.comp_def, List.map_id', component, order]
  rfl

section Wired

variable (wired : Wired cs g.nodes)
include wired

theorem mem_order : a ∈ g.order ↔ a ∈ g.ids := by
  rw [order, Search.mem_postOrder (successors_known wired) fun _ member => member, reaches_eq wired]
  constructor
  · rintro ⟨r, root, reaches⟩
    exact mem_ids_of_reaches root reaches
  · exact fun known => ⟨a, known, .refl⟩

theorem nodup_order : g.order.Nodup :=
  Search.nodup_postOrder (successors_known wired) fun _ member => member

theorem mem_component (known : a ∈ g.ids) : k ∈ g.component a ↔ g.Together a k := by
  rw [component, List.mem_filter, mem_order wired, Bool.and_eq_true, decide_eq_true_eq,
    decide_eq_true_eq, mem_reachable wired known]
  constructor
  · rintro ⟨there, forth, back⟩
    exact ⟨forth, (mem_reachable wired there).1 back⟩
  · rintro ⟨forth, back⟩
    have there := mem_ids_of_reaches known forth
    exact ⟨there, forth, (mem_reachable wired there).2 back⟩

/-- Nodes that are together have one component. -/
theorem component_congr (known : a ∈ g.ids) (both : g.Together a b) :
    g.component a = g.component b := by
  have known' : b ∈ g.ids := mem_ids_of_reaches known both.1
  have alike : ∀ k, k ∈ g.component a ↔ k ∈ g.component b := by
    intro k
    rw [mem_component wired known, mem_component wired known']
    exact ⟨both.symm.trans, both.trans⟩
  refine List.filter_congr fun k there => Bool.eq_iff_iff.2 ?_
  simpa only [component, List.mem_filter, there, true_and] using alike k

/-- The groups are the components. -/
theorem mem_groups {s : List NodeId} : s ∈ g.groups ↔ ∃ a ∈ g.ids, s = g.component a := by
  rw [groups_eq, List.mem_filterMap]
  constructor
  · rintro ⟨a, there, kept⟩
    split at kept
    · exact ⟨a, (mem_order wired).1 there, (Option.some.inj kept).symm⟩
    · cases kept
  · rintro ⟨a, known, rfl⟩
    have inside : a ∈ g.component a := (mem_component wired known).2 ⟨.refl, .refl⟩
    -- the last member is the one that stands for all
    have last := List.getLast?_eq_some_getLast (List.ne_nil_of_mem inside)
    have member := List.getLast_mem (List.ne_nil_of_mem inside)
    generalize (g.component a).getLast _ = b at last member
    have both := (mem_component wired known).1 member
    have same := component_congr wired known both
    refine ⟨b, (mem_order wired).2 (mem_ids_of_reaches known both.1), ?_⟩
    rw [← same, if_pos last]

theorem groups_disjoint : g.groups.Pairwise List.Disjoint := by
  rw [groups_eq, List.pairwise_filterMap]
  refine (nodup_order wired).imp_of_mem fun {a b} first second other s kept t kept' k one two => ?_
  rw [mem_order wired] at first second
  split at kept <;> [rename_i last; cases kept]
  split at kept' <;> [rename_i last'; cases kept']
  cases kept
  cases kept'
  have both := ((mem_component wired first).1 one).trans ((mem_component wired second).1 two).symm
  rw [component_congr wired first both, last'] at last
  exact other (Option.some.inj last).symm

end Wired

theorem mem_dataCycles {s : List NodeId} : s ∈ g.dataCycles ↔
    s ∈ g.groups ∧ ∃ a ∈ s, ∃ b ∈ s, g.waits b a = true := by
  simp [dataCycles, List.mem_filter, List.any_eq_true]

end Graph

open Flowgraph.Graph in
/-- **The data cycles are exactly what can wait for itself.**  The links of a graph are the
connections of its workflow, and those wait that come out of nodes without ports.  What is
reported are disjoint sets without repetitions; each is all that can be reached, and reached
back, from any of its members, and has a link inside that waits.  A link that waits and lies on a
cycle, of links of any kind, has both its ends in just one of the sets.  So when nothing is
reported, the links that wait make no cycle. -/
theorem data_cycles_are_exact {w : Workflow} {registry : Registry} {settings : Settings} {g : Graph}
    (built : Graph.build w registry settings = .ok g) :
    (∀ a b, g.Links a b ↔ ∃ c ∈ w.connections, c.source = a ∧ c.target = b) ∧
    (∀ a b, g.waits b a = true ↔ g.Links a b ∧ g.drives a = false) ∧
    g.dataCycles.Pairwise List.Disjoint ∧
    (∀ s ∈ g.dataCycles, s.Nodup ∧ (∀ a ∈ s, ∀ b, b ∈ s ↔ g.Together a b) ∧
      ∃ a ∈ s, ∃ b ∈ s, g.waits b a = true) ∧
    (∀ a b, g.waits b a = true → g.Reaches b a → ∃! s, s ∈ g.dataCycles ∧ a ∈ s ∧ b ∈ s) ∧
    (g.dataCycles = [] → g.Acyclic) := by
  have wired := build_wired built
  have disjoint : g.dataCycles.Pairwise List.Disjoint := (groups_disjoint wired).filter _
  have found : ∀ a b, g.waits b a = true → g.Reaches b a →
      ∃! s, s ∈ g.dataCycles ∧ a ∈ s ∧ b ∈ s := by
    intro a b waits back
    have links := ((waits_iff wired).1 waits).1
    have known : b ∈ g.ids := mem_ids_of_links links
    have both : g.Together b a := ⟨back, .single links⟩
    have inside : a ∈ g.component b ∧ b ∈ g.component b :=
      ⟨(mem_component wired known).2 both, (mem_component wired known).2 ⟨.refl, .refl⟩⟩
    have listed : g.component b ∈ g.dataCycles :=
      mem_dataCycles.2 ⟨(mem_groups wired).2 ⟨b, known, rfl⟩, a, inside.1, b, inside.2, waits⟩
    refine ⟨g.component b, ⟨listed, inside⟩, ?_⟩
    rintro t ⟨listed', inside'⟩
    by_contra other
    have symmetric : Std.Symm (@List.Disjoint NodeId) := ⟨fun _ _ apart => apart.symm⟩
    exact disjoint.forall listed' listed other inside'.1 inside.1
  refine ⟨fun a b => links_iff wired, fun a b => waits_iff wired, disjoint, ?_, found, ?_⟩
  · intro s listed
    obtain ⟨group, waiting⟩ := mem_dataCycles.1 listed
    obtain ⟨r, known, rfl⟩ := (mem_groups wired).1 group
    refine ⟨(nodup_order wired).filter _, fun a member b => ?_, waiting⟩
    have both := (mem_component wired known).1 member
    rw [component_congr wired known both, mem_component wired (mem_ids_of_reaches known both.1)]
  · intro none id cycle
    -- the first link of the cycle and the way on from it
    obtain ⟨a, waits, way⟩ := Relation.TransGen.head'_iff.1 cycle
    have reaches : g.Reaches id a := by
      have along : ∀ {x y}, Relation.ReflTransGen (fun a b => g.waits a b = true) x y →
          g.Reaches y x := by
        intro x y chain
        induction chain with
        | refl => exact .refl
        | tail _ waits further => exact .head ((waits_iff wired).1 waits).1 further
      exact along way
    obtain ⟨s, ⟨listed, -⟩, -⟩ := found a id waits reaches
    rw [none] at listed
    cases listed

namespace Sample

/-- The port of `1` leads to `2`, for which `1` waits.  `3` leads to itself, but through a port.
`4` waits for itself. -/
def knot : Workflow where
  id := ⟨102⟩
  name := "knot"
  description := none
  nodes := [.new ⟨1⟩ "switch", .new ⟨2⟩ startKey, .new ⟨3⟩ "switch", .new ⟨4⟩ startKey]
  connections := [⟨⟨1⟩, some "left", ⟨2⟩⟩, ⟨⟨2⟩, none, ⟨1⟩⟩, ⟨⟨2⟩, none, ⟨3⟩⟩,
    ⟨⟨3⟩, some "left", ⟨3⟩⟩, ⟨⟨3⟩, some "right", ⟨4⟩⟩, ⟨⟨4⟩, none, ⟨4⟩⟩]

def knotGraph : Graph :=
  (Graph.build knot switches .standard).toOption.get (by decide +kernel)

/-- The cycle of `1` and `2` is reported though one of its links goes through a port, and the
cycle of `3` is not. -/
theorem knot_reported :
    Graph.build knot switches .standard = .ok knotGraph ∧
    knotGraph.dataCycles = [[⟨4⟩], [⟨2⟩, ⟨1⟩]] ∧ knotGraph.groups.length = 3 ∧
    knotGraph.waits ⟨1⟩ ⟨2⟩ = true ∧ knotGraph.Reaches ⟨1⟩ ⟨2⟩ ∧
    ∃! s, s ∈ knotGraph.dataCycles ∧ ⟨2⟩ ∈ s ∧ ⟨1⟩ ∈ s := by
  have built : Graph.build knot switches .standard = .ok knotGraph := eq_ok_get _
  have ⟨links, _, _, _, found, _⟩ := data_cycles_are_exact built
  have waits : knotGraph.waits ⟨1⟩ ⟨2⟩ = true := by decide +kernel
  have reaches : knotGraph.Reaches ⟨1⟩ ⟨2⟩ :=
    .single ((links ⟨1⟩ ⟨2⟩).2 ⟨⟨⟨1⟩, some "left", ⟨2⟩⟩, by simp [knot], rfl, rfl⟩)
  exact ⟨built, by decide +kernel, by decide +kernel, waits, reaches, found ⟨2⟩ ⟨1⟩ waits reaches⟩

end Sample
end Flowgraph
