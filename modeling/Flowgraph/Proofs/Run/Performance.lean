/- # Flowgraph.Proofs.Run.Performance -- programs that are not at the mercy of others

Much of what a program gets as an answer depends on what else goes on in its run.  A program
that only publishes below its own node and fires ports while the queue of its node is open does
not notice any of it: what its node has published is nobody else's part of the shared document,
and the queue takes whatever is fired.  `Program.Performs` says of such a program which ports it
fires, what its node has published when it ends, and how it ends.  A step of it does the next
thing of its performance, whatever the rest of the machine is like
(`ExecutionStep.performs`).

The loop is such a function (`Function.loop_performs`): for a count it fires `loop` so many
times and then `done`, and leaves the number of the last iteration behind.
-/
import Flowgraph.Function.Flow
import Flowgraph.Proofs.Run.Ports
import Flowgraph.Proofs.Run.Presence
import Flowgraph.Proofs.Run.Published

set_option autoImplicit false

namespace Flowgraph

/-- What comes of a program. -/
structure Performance where
  /-- The ports that it fires, in order. -/
  ports : List String
  /-- What its node has published when it ends. -/
  part : Option Value
  outcome : Except NodeError Returned

/-- A program of a node that has published `part` has `ports` left to fire on its way to the end
of a performance; nothing that it publishes is refused. -/
inductive Program.Performs (n : Node) (π : Performance) :
    Option Value → List String → Program → Prop
  | finish : Performs n π π.part [] (.finish π.outcome)
  | publish {part key value w ports next}
      (accepted : Owner.respond part (.publishNode n.id key value) = .ok w)
      (goes : Performs n π (some w) ports (next (.ok ()))) :
      Performs n π part ports (.publish key value next)
  | notify {part ports notice next} (goes : Performs n π part ports next) :
      Performs n π part ports (.notify notice next)
  | fire {part port ports next} (declared : port ∈ n.ports)
      (goes : Performs n π part ports (next (.ok ()))) :
      Performs n π part (port :: ports) (.fire port next)

/-- A program at work performs; a port that it has fired was queued. -/
def Execution.Performs (n : Node) (π : Performance) (part : Option Value) (ports : List String) :
    Execution → Prop
  | .active p => p.Performs n π part ports
  | .fired _ queued next => queued = true ∧ (next (.ok ())).Performs n π part ports
  | .routed _ _ => False

namespace Machine

variable {g : Graph} {m m' : Machine} {t : TaskId} {r j : RunId} {n : Node} {id : NodeId}
  {x x' : Execution} {work work' : Work} {e : Effect} {inputs : RunInputs} {π : Performance}
  {ports : List String}

/-! ## What a node has published -/

/-- The document of the run `r` is composed of the parts of its owners. -/
def Composed (inputs : RunInputs) (r : RunId) (m : Machine) : Prop :=
  ∃ run parts, m.run? r = some run ∧ run.shared = .compose inputs parts

/-- What is found at the place of a node in the document of a run. -/
def published (m : Machine) (r : RunId) (id : NodeId) : Option Value :=
  (m.run? r).bind fun run => run.shared.get? (Shared.nodePath id)

theorem published_eq {run : RunRecord} {parts : Parts} (running : m.run? r = some run)
    (composed : run.shared = .compose inputs parts) (id : NodeId) :
    m.published r id = parts.of (.node id) := by
  rw [published, running, Option.bind_some, composed]
  exact Shared.get?_compose (.node id)

/-- What is read below the place of a node is what the node has published. -/
theorem Composed.read (composed : m.Composed inputs r) {name : String} {p : Path}
    (parsed : Path.parse name = .ok p) (id : NodeId) :
    ∃ run, m.run? r = some run ∧ run.shared.get? (Shared.nodePath id ++ "." ++ name) =
      (m.published r id).bind (·.at? p) := by
  obtain ⟨run, parts, running, made⟩ := composed
  refine ⟨run, running, ?_⟩
  rw [published_eq running made, made]
  exact @Shared.get?_below inputs parts (.node id) name p parsed

/-- A call on the document of a run leaves it composed and changes the part of its owner only. -/
theorem Composed.answered (composed : m.Composed inputs r) {run : RunRecord} (c : Call)
    (running : m.run? r = some run) {run' : RunRecord} (running' : m'.run? r = some run')
    (answered : run'.shared = (run.shared.answer c).2) (id : NodeId) :
    m'.Composed inputs r ∧ m'.published r id =
      if c.owner? = some (.node id) then Owner.next (m.published r id) c else m.published r id := by
  obtain ⟨_, parts, there, made⟩ := composed
  cases running.symm.trans there
  have after : run'.shared = .compose inputs (parts.after c) := by
    rw [answered, made, Shared.answer_snd_compose]
  refine ⟨⟨run', _, running', after⟩, ?_⟩
  rw [published_eq running' after, published_eq running made, Parts.of_after]

/-- What its own part lets a node publish is published. -/
theorem Composed.publish (composed : m.Composed inputs r) {run run' : RunRecord} {key : String}
    {value w : Value}
    (accepted : Owner.respond (m.published r id) (.publishNode id key value) = .ok w)
    (running : m.run? r = some run) (running' : m'.run? r = some run')
    (written : run'.shared = (run.shared.publishNode id key value).2) :
    (run.shared.publishNode id key value).1 = .ok () ∧ m'.published r id = some w := by
  obtain ⟨_, parts, there, made⟩ := composed
  cases running.symm.trans there
  rw [published_eq running made, Owner.respond] at accepted
  rw [made, Shared.publishNode_compose, accepted] at written ⊢
  rw [published_eq running' written, Parts.of_put, if_pos rfl]
  exact ⟨rfl, rfl⟩

/-- A node's part of the document changes by what a program of the node publishes, and when its
result is. -/
theorem Composed.step (composed : m.Composed inputs r) (rule : Transition g m t j work work' e)
    (after : After m t j work' e m') (id : NodeId) :
    m'.Composed inputs r ∧ (m'.published r id = m.published r id ∨ j = r ∧
      ((∃ x, work.program? = some (id, x)) ∨ ∃ began d, work = .call id began (.publish d))) := by
  obtain ⟨run, parts, running, made⟩ := composed
  have still {run' : RunRecord} (running' : m'.run? r = some run')
      (same : run'.shared = run.shared) :
      m'.Composed inputs r ∧ m'.published r id = m.published r id := by
    refine ⟨⟨run', parts, running', same.trans made⟩, ?_⟩
    rw [published_eq running' (same.trans made), published_eq running made]
  by_cases mine : r = j
  · subst mine
    have running' : m'.run? r = some (e.run run) := by
      rw [after.run, if_pos rfl, running, Option.map_some]
    obtain ⟨same, -⟩ | ⟨c, publishes, changed⟩ := rule.shared run
    · obtain ⟨composed, same⟩ := still running' same
      exact ⟨composed, .inl same⟩
    · obtain ⟨composed, now⟩ :=
        Composed.answered ⟨run, parts, running, made⟩ c running running' changed id
      refine ⟨composed, ?_⟩
      by_cases own : c.owner? = some (.node id)
      · cases publishes with
        | node program =>
            cases own
            exact .inr ⟨rfl, .inl ⟨_, program⟩⟩
        | output => cases own
        | result =>
            cases own
            exact .inr ⟨rfl, .inr ⟨_, _, rfl⟩⟩
      · exact .inl (now.trans (if_neg own))
  · obtain ⟨composed, same⟩ := still (by rw [after.run, if_neg mine, running]) rfl
    exact ⟨composed, .inl same⟩

/-- A step that does not touch the record of its run publishes nothing. -/
theorem After.published_kept (after : After m t j work' e m') (same : ∀ run, e.run run = run)
    (r : RunId) (id : NodeId) : m'.published r id = m.published r id := by
  rw [published, published, after.run]
  split
  · cases m.run? r with
    | none => rfl
    | some run => rw [Option.map_some, same]
  · rfl

/-! ## One step of a performance -/

/-- **A performance goes on as it must.**  While the queue of the node is open, a step of a
program that performs fires the next ports, which are queued, or none, and starts nothing. -/
theorem ExecutionStep.performs (step : ExecutionStep m r n x x' e)
    (after : After m t r work' e m') (composed : m.Composed inputs r)
    (isOpen : (m.cell n.id).queue.closed = false)
    (performs : x.Performs n π (m.published r n.id) ports) :
    e.spawned = [] ∧ ∃ fired left, ports = fired ++ left ∧
      m.executionPorts t n x = fired.map (fun port => .accepted n.id t port true) ∧
      x'.Performs n π (m'.published r n.id) left := by
  have kept := fun same => after.published_kept same r n.id
  generalize stands : m.published r n.id = part at performs kept
  cases step with
  | @publish key value next run running =>
      cases performs with
      | @publish _ _ _ w _ _ accepted goes =>
          have running' := after.run r
          rw [if_pos rfl, running, Option.map_some] at running'
          rw [← stands] at accepted
          obtain ⟨granted, now⟩ := composed.publish accepted running running' (by dsimp only)
          refine ⟨rfl, [], ports, rfl, rfl, ?_⟩
          rw [granted, now]
          exact goes
  | notify =>
      cases performs with
      | notify goes =>
          refine ⟨rfl, [], ports, rfl, rfl, ?_⟩
          rw [kept fun _ => rfl]
          exact goes
  | portless plain =>
      cases performs with
      | fire declared =>
          rw [Node.isPortDriven, Bool.not_eq_false', List.isEmpty_iff] at plain
          rw [plain] at declared
          cases declared
  | undeclared driven unknown =>
      cases performs with
      | fire declared => exact absurd declared unknown
  | late driven declared closed => cases isOpen.symm.trans closed
  | @queue port next driven declared isOpen =>
      cases performs with
      | @fire _ _ ports _ _ goes =>
          refine ⟨rfl, [port], ports, rfl, ?_, rfl, ?_⟩
          · simp [executionPorts, driven, declared, isOpen]
          · rw [kept fun _ => rfl]
            exact goes
  | reported =>
      obtain ⟨-, goes⟩ := performs
      refine ⟨rfl, [], ports, rfl, rfl, ?_⟩
      rw [kept fun _ => rfl]
      exact goes
  | route => cases performs.1
  | arrive => exact performs.elim
  | _ => cases performs

end Machine

/-! ## The loop -/

namespace Function

/-- What comes of a loop for a count. -/
def counted (count : Int) : Performance :=
  if count < 0 then
    ⟨[], none, .error (.invalidArgument "count" "non-negative integer"
      (String.ofList (Number.intText count)))⟩
  else
    ⟨List.replicate count.toNat "loop" ++ ["done"],
      if count = 0 then none else some (.obj [("iteration", .ofInt (count - 1))]),
      .ok (.record [("iterations", .ofInt count)])⟩

/-- What comes of a loop that is called with some arguments. -/
def looped (arguments : Members) : Performance :=
  match Arguments.needInteger arguments "count" with
  | .error e => ⟨[], none, .error e⟩
  | .ok count => counted count

variable {n : Node} {π : Performance}

theorem publish_iteration {part : Option Value}
    (early : part = none ∨ ∃ v, part = some (.obj [("iteration", v)])) (new : Value) :
    Owner.respond part (.publishNode n.id "iteration" new) = .ok (.obj [("iteration", new)]) := by
  have parsed : Path.parse (Shared.nodePath n.id ++ "." ++ "iteration") =
      .ok (.key "nodes" :: .key n.id.toText :: [.key "iteration"]) :=
    Path.parse_node_iff.2 ⟨[.key "iteration"], rfl, rfl⟩
  rw [Owner.respond, Value.place, parsed]
  obtain rfl | ⟨v, rfl⟩ := early
  · rfl
  · simp [Value.gap?, Value.assign, Members.put]

/-- The last iterations of a loop, with what comes after them. -/
theorem iterate_performs {count : Nat} {after : Program} {ports : List String}
    (declared : "loop" ∈ n.ports)
    (goes : after.Performs n π
      (if count = 0 then none else some (.obj [("iteration", .ofInt (count - 1 : Int))])) ports) :
    ∀ (left : Nat) {part : Option Value}, left ≤ count →
      (part = if left = count then none
        else some (.obj [("iteration", .ofInt ((count - left : Nat) - 1 : Int))])) →
      (iterate count after left).Performs n π part (List.replicate left "loop" ++ ports)
  | 0, part, _, stands => by
      have same : part =
          if count = 0 then none else some (.obj [("iteration", .ofInt (count - 1 : Int))]) := by
        rw [stands]
        by_cases none : count = 0 <;> simp [none, eq_comm (a := 0)]
      rw [same]
      exact goes
  | left + 1, part, few, stands => by
      have early : part = none ∨ ∃ v, part = some (.obj [("iteration", v)]) := by
        rw [stands]
        split
        · exact .inl rfl
        · exact .inr ⟨_, rfl⟩
      refine .publish (publish_iteration early _) (.notify (.fire declared ?_))
      refine iterate_performs declared goes left (Nat.le_of_succ_le few) ?_
      have before : left ≠ count := Nat.ne_of_lt few
      have last : ((count - (left + 1) : Nat) : Int) = ((count - left : Nat) : Int) - 1 := by omega
      rw [if_neg before, last]

/-- What a node is called with when its parameters are the count, the context and the flow. -/
theorem bound_loop {evaluator : Evaluator} {context : Context} {scope : Document} {i : Invocation}
    (function : n.function = loop) (bound : n.bind evaluator context scope = .ok i) :
    i.context = some context ∧ i.flow = some n.ports := by
  rw [Node.bind, function] at bound
  simp only [loop, Node.bindFrom] at bound
  split at bound
  · cases bound
  · cases bound
    exact ⟨rfl, rfl⟩

/-- **The loop performs**, whatever it is called with. -/
theorem loop_performs {evaluator : Evaluator} {context : Context} {scope : Document}
    {i : Invocation} (function : n.function = loop) (loops : "loop" ∈ n.ports)
    (ends : "done" ∈ n.ports) (bound : n.bind evaluator context scope = .ok i) :
    (n.function.body i).Performs n (looped i.arguments) none (looped i.arguments).ports := by
  obtain ⟨injected, flow⟩ := bound_loop function bound
  rw [function, looped]
  simp only [loop]
  cases Arguments.needInteger i.arguments "count" with
  | error e => exact .finish
  | ok count =>
      simp only [Program.require, counted]
      by_cases negative : count < 0
      · rw [if_pos negative, if_pos negative]
        exact .finish
      · rw [if_neg negative, if_neg negative]
        simp only [Invocation.needContext, injected, Invocation.needFlow, flow]
        have size : ((count.toNat : Nat) : Int) = count := Int.toNat_of_nonneg (by omega)
        refine iterate_performs loops ?_ count.toNat (Nat.le_refl _) (by rw [if_pos rfl])
        have zero : count.toNat = 0 ↔ count = 0 := by omega
        simp only [size, zero]
        exact .fire ends .finish

end Function
end Flowgraph
