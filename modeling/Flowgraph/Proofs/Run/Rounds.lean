/- # Flowgraph.Proofs.Run.Rounds -- what the targets of ports have before them

A fan-out starts the targets of one port after the other.  When it starts the next, everything
that it started before has its result (`Rounds.earlier`), and when everything that a run has
triggered is done, it has started the targets of all ports that were queued (`Routing.reached`).

A call that a fan-out started looks at the node of the fan-out after the result of that node was
stored, for a round is started later.  So it finds the result, and it is part of what its own
node is given (`hears_of_rounds`).
-/
import Flowgraph.Proofs.Run.Shapes

set_option autoImplicit false

namespace Flowgraph

namespace Machine

variable {g : Graph} {m m' : Machine} {t k c f first : TaskId} {r j : RunId} {n x : Node}
  {id : NodeId} {work work' : Work} {e : Effect} {h : List Deed} {p : List PortDeed} {d : Document}
  {now : Instant} {past : List Act} {execution : ExecutionId} {inputs : RunInputs}
  {requests : List Request} {schedule : List Move} {targets : List NodeId} {calls : List TaskId}

/-! ## One round after the other -/

/-- The fires of a node are accounted for, and the targets of every round but the last have a
result. -/
structure Rounds (g : Graph) (n : Node) (first : TaskId) (h : List Deed) (p : List PortDeed)
    (m : Machine) : Prop where
  routing : m.Routing g n first h p
  earlier : ∀ targets ∈ (roundsOf n.id p).dropLast, ∀ id ∈ targets, ∃ d, (m.cell id).result = some d

theorem Rounds.step (rounds : m.Rounds g n first h p) (known : g.node? n.id = some n)
    (driven : n.isPortDriven = true) (here : m.tasks[t]? = some ⟨r, work⟩)
    (rule : Transition g m t r work work' e) (after : After m t r work' e m') :
    m'.Rounds g n first (h ++ e.deeds) (p ++ m.workPorts g t work) where
  routing := rounds.routing.step known driven here rule after
  earlier := by
    intro targets member id target
    obtain ⟨memo, account, onward, bygone, sent, honours⟩ := rounds.routing
    have kept : (∃ d, (m.cell id).result = some d) → ∃ d, (m'.cell id).result = some d :=
      fun ⟨d, has⟩ => ⟨d, memo.result_kept here rule after has⟩
    rw [roundsOf_append] at member
    by_cases next : roundsOf n.id (m.workPorts g t work) = []
    · rw [next, List.append_nil] at member
      exact kept (rounds.earlier targets member id target)
    · obtain none | ⟨started, rest, -, -, one⟩ := rule.rounds n.id
      · exact absurd none next
      · have last : roundsOf n.id (m.workPorts g t work) = [started] := by
          rw [one]
          simp [roundsOf, PortDeed.round?]
        rw [last, List.dropLast_concat] at member
        exact kept (honours.result_of_round memo account bygone sent here rule next member target)

theorem AtRest.rounds_exec (rest : m.AtRest g) (execution : ExecutionId) (inputs : RunInputs)
    (requests : List Request) (schedule : List Move) (known : g.node? n.id = some n)
    (driven : n.isPortDriven = true) :
    let start := m.begin g execution inputs requests
    (start.exec g schedule).Rounds g n m.nextTask (start.history g schedule)
      (start.portHistory g schedule) :=
  port_induction (fun _ _ _ _ _ _ _ _ _ rounds => rounds.step known driven)
    (fun _ _ _ now rounds => ⟨rounds.routing.tick now, rounds.earlier⟩) schedule [] [] _
    ⟨rest.routing execution inputs requests, nofun⟩

/-- When everything that was triggered is done, every target of a port that was queued has a
result, if the node has one. -/
theorem Routing.reached (routing : m.Routing g n first h p) (known : g.node? n.id = some n)
    (driven : n.isPortDriven = true) (quiet : m.Quiet first) (has : (m.cell n.id).result = some d)
    {port : String} (queued : port ∈ queuedPorts n.id p) (target : id ∈ n.targets port) :
    ∃ d, (m.cell id).result = some d := by
  rw [routing.honours.queued] at queued
  exact routing.onward.reached routing.account routing.memo quiet has known
    (mem_rounds_of_driven driven queued) target

/-! ## Calls of a round -/

theorem portHistory_append (m : Machine) (one two : List Move) : m.portHistory g (one ++ two) =
    m.portHistory g one ++ (m.exec g one).portHistory g two := by
  induction one generalizing m with
  | nil => rfl
  | cons v one ih => simp [portHistory, ih, exec_cons]

/-- What is started for a port is started as a new task. -/
theorem portHistory_fresh (m : Machine) (schedule : List Move) {deed : PortDeed}
    (member : deed ∈ m.portHistory g schedule) (call : c ∈ deed.calls) : m.tasks.size ≤ c := by
  refine (port_induction (g := g) (P := fun _ p m' => m.tasks.size ≤ m'.tasks.size ∧
    ∀ deed ∈ p, ∀ c ∈ deed.calls, m.tasks.size ≤ c) ?_ (fun _ _ _ _ held => held) schedule [] [] m
    ⟨Nat.le_refl _, by simp⟩).2 deed member c call
  rintro h p m' t r work work' e m'' ⟨grown, before⟩ here rule after
  refine ⟨by rw [after.size]; omega, fun deed member c call => ?_⟩
  obtain old | new := List.mem_append.1 member
  · exact before deed old c call
  · cases starts : deed.starts with
    | false =>
        cases deed with
        | accepted => cases call
        | _ => cases starts
    | true =>
        rw [(rule.starts new starts).2.1] at call
        exact Nat.le_trans grown (List.mem_range'_1.1 call).1

/-- A moment of a session at which a task of its last run is there is one of that run. -/
theorem moment_of_run {now : Instant} {past before : List Act} {last : Act} {stage : Stage}
    (early : before ++ [last] <+: past ++ .start execution inputs requests :: schedule.map .move)
    (recent : (session g now past).nextTask ≤ c)
    (calling : (session g now before).Calling r c id stage) :
    ∃ one two, schedule = one ++ two ∧ session g now before =
      ((session g now past).begin g execution inputs requests).exec g one := by
  have sooner := (List.prefix_append before [last]).trans early
  have start : past ++ [.start execution inputs requests] <+:
      past ++ .start execution inputs requests :: schedule.map .move :=
    ⟨schedule.map .move, by simp⟩
  obtain outside | ⟨since, rfl⟩ := List.prefix_or_prefix_of_prefix sooner start
  · obtain rfl | inside := List.prefix_concat_iff.1 outside
    · exact ⟨[], schedule, rfl, session_start ..⟩
    · -- the task would be older than the run
      obtain ⟨rest, rfl⟩ := inside
      obtain ⟨_, began, there⟩ := calling_acts (g := g) calling rest
      rw [← session_append] at there
      exact absurd (lt_size_of_tasks there) (Nat.not_lt_of_le recent)
  · rw [List.append_assoc, List.singleton_append] at sooner
    have tail := (List.cons_prefix_cons.1 ((List.prefix_append_right_inj past).1 sooner)).2
    obtain ⟨one, taken, rfl⟩ := List.prefix_map_iff.1 tail
    obtain ⟨two, rfl⟩ := taken
    refine ⟨one, two, rfl, ?_⟩
    rw [List.append_assoc, List.singleton_append, session_run]

section Run

variable (rest : (session g now past).AtRest g) (known : g.node? n.id = some n)
  (driven : n.isPortDriven = true)
include rest known driven

/-- Once a call that a fan-out of the node started is there, the node has its result. -/
theorem result_of_call {one two : List Move} :
    let start := (session g now past).begin g execution inputs requests
    .round n.id f targets calls ∈ start.portHistory g (one ++ two) → c ∈ calls →
    c < (start.exec g one).tasks.size → ((start.exec g (one ++ two)).cell n.id).result = some d →
    ((start.exec g one).cell n.id).result = some d := by
  intro start started call there has
  have sooner := rest.routing_exec execution inputs requests one known driven
  have later := rest.routing_exec execution inputs requests (one ++ two) known driven
  rw [portHistory_append] at started
  obtain old | new := List.mem_append.1 started
  · obtain ⟨recent, fans⟩ := sooner.honours.started old
    obtain ⟨d', has'⟩ := sooner.onward.result_of_closed sooner.account sooner.memo
      (sooner.onward.fans ⟨recent, fans⟩)
    -- the result that is there stays
    obtain ⟨k, stored⟩ := sooner.account.result has'
    have still : .stored n.id k d' ∈ start.history g (one ++ two) := by
      rw [history_append]
      exact List.mem_append_left _ stored
    cases has.symm.trans (later.account.result_of_stored later.memo still)
    exact has'
  · exact absurd there (Nat.not_lt_of_le (portHistory_fresh _ _ new call))

/-- **A call that a fan-out started finds the result of the node**, among what goes into its own
node. -/
theorem hears_of_rounds {cs : List Connection} (wired : Wired cs g.nodes)
    (named : g.node? x.id = some x) {u : Upstream} (linked : u ∈ x.upstream)
    (source : u.node = n.id) {received scope : Document} :
    let start := (session g now past).begin g execution inputs requests
    let acts := past ++ .start execution inputs requests :: schedule.map .move
    .round n.id f targets calls ∈ start.portHistory g schedule → c ∈ calls →
    ((start.exec g schedule).cell n.id).result = some d →
    (start.exec g schedule).Calling r c x.id (.record received scope) →
    ∃ found, List.Forall₂ (Finds g now acts r c x.id) x.upstream found ∧ some d ∈ found ∧
      scope.get? "input" = some (inputOf found.reduceOption) := by
  intro start acts started call has binding
  have same : session g now acts = start.exec g schedule := session_run ..
  rw [← same] at binding
  obtain ⟨found, finds, input, -⟩ := input_of_binding wired binding named
  refine ⟨found, finds, ?_, input⟩
  obtain ⟨i, small, rfl⟩ := List.getElem_of_mem linked
  have paired : i < found.length := finds.length_eq ▸ small
  have looked := finds.get small paired
  have port : x.upstream[i].viaPort = true := by
    rw [wired.viaPort x (Graph.mem_of_node? named) _ linked n (Graph.mem_of_node? known)
      source.symm]
    exact driven
  have recent : (session g now past).nextTask ≤ c := by
    have fresh := portHistory_fresh _ _ started call
    rw [size_begin] at fresh
    exact Nat.le_trans (Nat.le_add_right _ _) fresh
  generalize stands : found.get ⟨i, paired⟩ = what at looked
  have member : what ∈ found := stands ▸ List.get_mem ..
  cases looked with
  | answered waits => exact absurd (port.symm.trans waits) (by simp)
  | @looked before _ _ _ early asks =>
      obtain ⟨one, two, rfl, moment⟩ := moment_of_run early recent asks
      obtain ⟨_, there⟩ := asks
      rw [moment] at there member
      have seen := result_of_call rest known driven started call (lt_size_of_tasks there) has
      rw [List.get_eq_getElem, source, seen] at member
      exact member

end Run

end Machine
end Flowgraph
