/- # Flowgraph.Proofs.Run.Isolation -- what lies behind a port

A node that is connected to nothing but ports runs when one of these ports is
fired.  It is not the only way: another node that waits for its result pulls it,
whether or not the port was fired (`unfired_branch_is_pulled`).  There is no third
way, and a node that pulls it is one that the run reaches without it
(`runs_behind_ports`).
-/
import Flowgraph.Proofs.Graph.Wiring
import Flowgraph.Proofs.Run.Once
import Flowgraph.Proofs.Run.Spread

set_option autoImplicit false

namespace Flowgraph

variable {g : Graph} {leads : NodeId → NodeId → Prop} {id : NodeId}

/-- What is reached without going on from a node. -/
def ReachedWithout (g : Graph) (leads : NodeId → NodeId → Prop) (id : NodeId) : NodeId → Prop :=
  Reached g fun a b => leads a b ∧ a ≠ id

/-- A node that is reached and is no entry has a neighbour that is reached without it. -/
theorem Reached.last (reached : Reached g leads id) :
    id ∈ g.entries ∨ ∃ a, ReachedWithout g leads id a ∧ leads a id := by
  have sooner : ∀ {k}, Reached g leads k → ReachedWithout g leads id k ∨
      id ∈ g.entries ∨ ∃ a, ReachedWithout g leads id a ∧ leads a id := by
    intro k reached
    induction reached with
    | entry start => exact .inl (.entry start)
    | @next a b _ step ih =>
        obtain without | found := ih
        · by_cases mine : a = id
          · subst mine
            cases without with
            | entry start => exact .inr (.inl start)
            | next without step => exact .inr (.inr ⟨_, without, step.1⟩)
          · exact .inl (.next without ⟨step, mine⟩)
        · exact .inr found
  obtain without | found := sooner reached
  · cases without with
    | entry start => exact .inl start
    | next without step => exact .inr ⟨_, without, step.1⟩
  · exact found

/-- All connections to a node come out of nodes with ports. -/
def BehindPorts (g : Graph) (cs : List Connection) (id : NodeId) : Prop :=
  ∀ c ∈ cs, c.target = id → ∀ s, g.node? c.source = some s → s.isPortDriven = true

/-- One of the sources of a node fired a port that leads to it. -/
def FiredAt (cs : List Connection) (h : List Deed) (id : NodeId) : Prop :=
  ∃ c ∈ cs, c.target = id ∧ ∃ port, c.port = some port ∧ firedIn h c.source port

/-- A node waits for the result of another. -/
def WaitsFor (g : Graph) (waiting id : NodeId) : Prop :=
  ∃ n, g.node? waiting = some n ∧ ∃ u ∈ n.upstream, u.node = id ∧ u.viaPort = false

namespace Machine

variable {m : Machine} {w : Workflow} {registry : Registry} {settings : Settings}

/-- **Behind ports.**  At every moment of a run of a whole graph, a node that is no
entry and has only ports before it has run, or is being run, only if a port that
leads to it was fired, or a node that is reached without it waits for it. -/
theorem runs_behind_ports (built : Graph.build w registry settings = .ok g) (rest : m.AtRest g)
    (execution : ExecutionId) (inputs : RunInputs) (schedule : List Move)
    (inner : id ∉ g.entries) (behind : BehindPorts g w.connections id)
    (ran : ((m.launched g execution inputs).exec g schedule).Ran m.nextTask id) :
    let h := (m.launched g execution inputs).history g schedule
    FiredAt w.connections h id ∨
      ∃ waiting, WaitsFor g waiting id ∧ ReachedWithout g (Leads g (firedIn h)) id waiting := by
  intro h
  have wired := build_wired built
  have executed : Executed g (firedIn h) id := (rest.confined_exec schedule).executed ran
  obtain start | ⟨a, without, step⟩ := executed.last
  · exact absurd start inner
  · cases step with
    | pull known linked waits =>
        exact .inr ⟨a, ⟨_, known, _, linked, rfl, waits⟩, without⟩
    | push known plain downstream =>
        obtain ⟨c, member, source, target⟩ :=
          (wired.downstream _ (Graph.mem_of_node? known) id).1 downstream
        rw [Graph.id_of_node? known] at source
        have driven := behind c member target _ (source.symm ▸ known)
        rw [plain] at driven
        cases driven
    | route known driven fires targets =>
        obtain ⟨-, c, member, source, named, target⟩ :=
          (wired.targets _ (Graph.mem_of_node? known) _ id).1 targets
        rw [Graph.id_of_node? known] at source
        exact .inl ⟨c, member, target, _, named, source ▸ fires⟩

end Machine

/-! ## A branch that is pulled -/

namespace Sample

/-- The join `4` waits for `3`, which lies behind the port `x` of `2`; nothing leads to `2`. -/
def detour : Workflow where
  id := ⟨101⟩
  name := "detour"
  description := none
  nodes := [.new ⟨1⟩ startKey, .new ⟨2⟩ "choose", .new ⟨3⟩ "plain", .new ⟨4⟩ "plain"]
  connections := [⟨⟨2⟩, some "x", ⟨3⟩⟩, ⟨⟨3⟩, none, ⟨4⟩⟩, ⟨⟨1⟩, none, ⟨4⟩⟩]

def detourGraph : Graph := built detour (by decide +kernel)

/-- Whether all nodes that a node is connected to have ports. -/
def behindPorts (g : Graph) (cs : List Connection) (id : NodeId) : Bool :=
  cs.all fun c => c.target != id || ((g.node? c.source).all Node.isPortDriven)

theorem behindPorts_of_check {cs : List Connection} (check : behindPorts g cs id = true) :
    BehindPorts g cs id := by
  intro c member target s known
  have one := List.all_eq_true.1 check c member
  simpa [target, known] using one

end Sample

namespace Machine

open Sample

/-- A whole run of the detour. -/
def detourStart : Machine := (new epoch).launched detourGraph ⟨7⟩ .empty

set_option maxRecDepth 100000 in
/-- The run comes to its end and no port is ever fired, but the node behind the port has run. -/
theorem unfired_branch_is_pulled :
    Graph.build detour registry .standard = .ok detourGraph ∧ ⟨3⟩ ∉ detourGraph.entries ∧
    BehindPorts detourGraph detour.connections ⟨3⟩ ∧
    (detourStart.exec detourGraph (turns 60 12)).isDone 0 = true ∧
    ((detourStart.exec detourGraph (turns 60 12)).cell ⟨3⟩).result.isSome = true ∧
    ¬ FiredAt detour.connections (detourStart.history detourGraph (turns 60 12)) ⟨3⟩ := by
  refine ⟨build_built _, by decide +kernel, behindPorts_of_check (by decide +kernel),
    by decide +kernel, by decide +kernel, ?_⟩
  rintro ⟨c, -, -, port, -, queued, deed⟩
  have none : (detourStart.history detourGraph (turns 60 12)).all (!Deed.fires ·) = true := by
    decide +kernel
  cases List.all_eq_true.1 none _ deed

set_option maxRecDepth 100000 in
/-- The branch of the choice runs, as the port before it is fired. -/
theorem chosen_branch_runs :
    Graph.build choice registry .standard = .ok choiceGraph ∧ (new epoch).AtRest choiceGraph ∧
    ⟨3⟩ ∉ choiceGraph.entries ∧ BehindPorts choiceGraph choice.connections ⟨3⟩ ∧
    (choiceRun.exec choiceGraph (turns 60 16)).Ran 0 ⟨3⟩ ∧
    (FiredAt choice.connections (choiceRun.history choiceGraph (turns 60 16)) ⟨3⟩ ∨
      ∃ waiting, WaitsFor choiceGraph waiting ⟨3⟩ ∧
        ReachedWithout choiceGraph
          (Leads choiceGraph (firedIn (choiceRun.history choiceGraph (turns 60 16)))) ⟨3⟩ waiting) := by
  have built : Graph.build choice registry .standard = .ok choiceGraph := build_built _
  have rest := atRest_new choiceGraph epoch
  have inner : ⟨3⟩ ∉ choiceGraph.entries := by decide +kernel
  have behind : BehindPorts choiceGraph choice.connections ⟨3⟩ :=
    behindPorts_of_check (by decide +kernel)
  have ran : (choiceRun.exec choiceGraph (turns 60 16)).Ran 0 ⟨3⟩ :=
    .inl (Option.isSome_iff_exists.1 (by decide +kernel))
  exact ⟨built, rest, inner, behind, ran,
    runs_behind_ports built rest ⟨7⟩ .empty (turns 60 16) inner behind ran⟩

end Machine
end Flowgraph
