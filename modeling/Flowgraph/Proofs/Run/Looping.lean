/- # Flowgraph.Proofs.Run.Looping -- what a loop does in a run

A loop that is called with a count fires `loop` so many times and then `done`, whatever else goes
on, for its function performs.  The rest is what a run makes of that: the fires were all queued,
so the fan-out of the node starts the targets of `loop` round after round and those of `done`
last.  The targets of `loop` have been executed by then, once each, for the later rounds find
their results; and what is started for `done` finds the result of the loop.

A node that both ports lead to is a target of `done` as well.  So it is started although there are
no iterations, together with those that only `done` leads to.  And a loop that work left behind has
started is no part of what a run waits for: its iterations may be to come when the run has returned
(`shared_targets_and_late_loops`).
-/
import Flowgraph.Proofs.Run.Executed
import Flowgraph.Proofs.Run.Performing
import Flowgraph.Proofs.Run.Rounds

set_option autoImplicit false

namespace Flowgraph

/-! ## Results -/

/-- Reading a member of the output. -/
theorem Document.get?_iterations {d : Document} {ms : Members}
    (output : d.get? "output" = some (.obj ms)) :
    d.get? "output.iterations" = Members.get? "iterations" ms := by
  have way : d.root.at? [.key "output"] = some (.obj ms) := output
  have parsed : d.get? "output.iterations" =
      d.root.at? ([.key "output"] ++ [.key "iterations"]) := rfl
  rw [parsed, Value.at?_append, way, Option.bind_some]
  simp only [Value.at?, Value.child?, Segment.keyText]
  cases Members.get? "iterations" ms <;> rfl

namespace Node

variable {n : Node} {π : Performance} {received d : Document} {returned : Returned} {key : String}
  {v : Value} {e : NodeError}

/-- A node that places no outputs completes with whatever its function returns. -/
theorem Gives.completes (gives : n.Gives π d) (plain : n.outputs = [])
    (ok : π.outcome = .ok returned) :
    ∃ received, received.Envelope ∧ Machine.conclude n received (.ok returned) = .ok d := by
  obtain ⟨received, envelope, concluded | ⟨e, _, failed, -⟩⟩ := gives
  · exact ⟨received, envelope, ok ▸ concluded⟩
  · rw [ok] at failed
    simp [Machine.conclude, shape, plain, placeOutputs, Except.mapError] at failed

/-- A node whose function fails fails with its error. -/
theorem Gives.fails (gives : n.Gives π d) (error : π.outcome = .error e) :
    ∃ time, d = n.failure e time := by
  obtain ⟨received, -, concluded | ⟨e', time, failed, rfl⟩⟩ := gives
  · rw [error] at concluded
    cases concluded
  · rw [error] at failed
    cases failed
    exact ⟨time, rfl⟩

/-- What the function returns as a member stands in the output, also when the output of the node is
merged into what it received. -/
theorem output_of_conclude (plain : n.outputs = []) (envelope : received.Envelope)
    (scalar : ∀ w : Value, w.merge v = v)
    (concluded : Machine.conclude n received (.ok (.record [(key, v)])) = .ok d) :
    ∃ ms, d.get? "output" = some (.obj ms) ∧ Members.get? key ms = some v := by
  have root : (⟨.obj [("output", .obj [(key, v)])]⟩ : Document).root =
      .obj [("output", .obj [(key, v)])] := rfl
  have alone : Members.get? key [(key, v)] = some v := if_pos rfl
  have made := envelope_of_output root
  have output := Document.get?_output root
  simp only [Machine.conclude, shape, plain, placeOutputs, Returned.members, Except.mapError]
    at concluded
  cases merges : n.merges with
  | false =>
      simp only [merges, Bool.false_eq_true, if_false, Except.ok.injEq] at concluded
      subst concluded
      exact ⟨_, output, alone⟩
  | true =>
      simp only [merges, if_true, Except.ok.injEq] at concluded
      subst concluded
      rw [(envelope.get?_merge made).1, output]
      cases before : received.get? "output" with
      | none => exact ⟨_, rfl, alone⟩
      | some w =>
          obtain ⟨old, rfl⟩ := Value.isObject_iff.1 (envelope.output _ before)
          refine ⟨Value.mergeMembers old [(key, v)], rfl, ?_⟩
          rw [Value.get?_mergeMembers_of_nodup (by simp [Members.keys]), alone]
          cases Members.get? key old with
          | none => rfl
          | some w => exact congrArg some (scalar w)

end Node

/-- A result leaves what its node has published beside it. -/
theorem Document.Envelope.at?_mergeOver {d : Document} (envelope : d.Envelope) {part : Option Value}
    {key : String} (object : ∀ v ∈ part, v.isObject = true)
    (other : key ≠ "output" ∧ key ≠ "error") :
    (Value.mergeOver part d.root).at? [.key key] = part.bind (·.at? [.key key]) := by
  obtain ⟨ms, root, -, only⟩ := envelope.members
  have absent : key ∉ Members.keys ms := fun member => (only key member).elim other.1 other.2
  cases part with
  | none =>
      have missing : Members.get? key ms = none := Members.get?_of_notMem absent
      simp [Value.mergeOver, root, Value.at?, Value.child?, Segment.keyText, missing]
  | some w =>
      obtain ⟨old, rfl⟩ := Value.isObject_iff.1 (object w rfl)
      have kept : Members.get? key (Value.mergeMembers old ms) = Members.get? key old :=
        Value.get?_mergeMembers absent
      simp [Value.mergeOver, root, Value.merge, Value.at?, Value.child?, Segment.keyText, kept]

/-- A list that goes as far as the end of another is all of it, if the end occurs only there. -/
theorem eq_of_prefix_of_mem {α : Type} {a b : α} {count : Nat} {l : List α}
    (part : l <+: List.replicate count a ++ [b]) (differ : b ≠ a) (member : b ∈ l) :
    l = List.replicate count a ++ [b] := by
  obtain whole | early := List.prefix_concat_iff.1 part
  · exact whole
  · exact absurd (List.eq_of_mem_replicate (early.subset member)) differ

namespace Machine

variable {g : Graph} {m : Machine} {t c first : TaskId} {r j : RunId} {n x : Node} {id : NodeId}
  {stage : Stage} {h : List Deed} {p : List PortDeed} {d : Document} {inputs : RunInputs}
  {execution : ExecutionId} {requests : List Request} {schedule : List Move} {count : Int}
  {i : Invocation}

/-! ## The end of a run -/

/-- A run is wound up when everything that was triggered in it is done; and a whole run in which no
port is fired late, when it has returned. -/
def WoundUp (first : TaskId) (requests : List Request) (h : List Deed) (m : Machine) : Prop :=
  m.Quiet first ∨ requests = [.launch] ∧ OnTime h ∧ m.isDone first = true

/-- A whole run in which no port is fired late waits for everything that it triggers. -/
theorem AtRest.quiet (rest : m.AtRest g) :
    let start := m.begin g execution inputs requests
    (start.exec g schedule).WoundUp m.nextTask requests (start.history g schedule) →
      (start.exec g schedule).Quiet m.nextTask := by
  rintro start (quiet | ⟨rfl, onTime, returned⟩)
  · exact quiet
  · have tended : ((m.launched g execution inputs).exec g schedule).Tended g m.nextTask m.nextRun
        ((m.launched g execution inputs).history g schedule) := rest.tended onTime
    intro k task recent there triggered
    exact tended.underway.calm (.inl (tended.finished returned)) recent there triggered

/-- A node has been executed, and only once. -/
structure ExecutedOnce (id : NodeId) (h : List Deed) (m : Machine) : Prop where
  result : ∃ d, (m.cell id).result = some d
  stored : h.countP (Deed.stores id) = 1
  invoked : h.countP (Deed.invokes id) ≤ 1

theorem Account.executedOnce (account : m.Account first id h) (has : (m.cell id).result = some d) :
    m.ExecutedOnce id h where
  result := ⟨d, has⟩
  stored := by
    obtain ⟨k, stored⟩ := account.result has
    have some : 0 < h.countP (Deed.stores id) :=
      List.countP_pos_iff.2 ⟨_, stored, by simp [Deed.stores]⟩
    have once := account.stored
    omega
  invoked := account.invoked

/-- What has begun in this run was called in it. -/
theorem Begun.call (begun : m.Begun id) (memo : m.Memo first) (account : m.Account first id h) :
    ∃ j k stage, first ≤ k ∧ m.Calling j k id stage := by
  obtain ⟨d, has⟩ | ⟨j, k, stage, calling, computing⟩ := begun
  · obtain ⟨k, stored⟩ := account.result has
    obtain ⟨recent, j, stage, calling, -⟩ := account.storer stored
    exact ⟨j, k, stage, recent, calling⟩
  · by_cases past : k < first
    · obtain ⟨d, rfl⟩ := memo.past past calling
      cases computing
    · exact ⟨j, k, stage, Nat.le_of_not_lt past, calling⟩

/-! ## What a loop comes to -/

/-- A node has failed with an error, and has neither fired a port nor published anything. -/
structure Declined (n : Node) (e : NodeError) (d : Document) (r : RunId) (p : List PortDeed)
    (m : Machine) : Prop where
  failed : (m.cell n.id).status = .failed
  failure : ∃ time, d = n.failure e time
  fires : firesOf n.id p = []
  /-- Nothing but its result is at its place in the document of the run. -/
  published : ∃ run, m.run? r = some run ∧ (run.shared.get? (Shared.nodePath n.id) = none ∨
    run.shared.get? (Shared.nodePath n.id) = some d.root)

/-- What has become of a loop that was called for a count and has the result `d`, after the acts
`acts` of a session, of which the last run `r` was asked for `requests`. -/
structure Looped (g : Graph) (now : Instant) (acts : List Act) (n : Node) (count : Int)
    (d : Document) (first : TaskId) (r : RunId) (requests : List Request) (h : List Deed)
    (p : List PortDeed) (m : Machine) : Prop where
  completed : (m.cell n.id).status = .completed
  iterations : d.get? "output.iterations" = some (.ofInt count)
  /-- It has fired `loop` once for every iteration and then `done`, and all of this was queued. -/
  fires : firesOf n.id p = queuing (List.replicate count.toNat "loop" ++ ["done"])
  /-- The number of the last iteration is in the document of the run. -/
  iteration : ∃ run, m.run? r = some run ∧
    run.shared.get? (Shared.nodePath n.id ++ "." ++ "iteration") =
      if count = 0 then none else some (.ofInt (count - 1))
  /-- Without iterations it starts only what `done` leads to. -/
  idle : count = 0 → ∀ deed ∈ p, deed.node = n.id → deed.targets ⊆ n.targets "done"
  /-- With iterations all that `loop` leads to is executed by the end of the run. -/
  reached : 1 ≤ count → m.WoundUp first requests h → ∀ id ∈ n.targets "loop", m.ExecutedOnce id h
  /-- Then what only `done` leads to begins after what `loop` leads to is through, if nobody else
  calls it. -/
  ordered : 1 ≤ count → ∀ id ∈ n.targets "done", id ∉ n.targets "loop" →
    (∀ j c stage, first ≤ c → m.Calling j c id stage → StartedBy n.id p c) → m.Begun id →
    ∀ id' ∈ n.targets "loop", ∃ d', (m.cell id').result = some d'
  /-- Whatever it starts finds its result among those that are merged into its input. -/
  heard : ∀ x c j received scope, g.node? x.id = some x → StartedBy n.id p c →
    m.Calling j c x.id (.record received scope) →
    ∃ found, List.Forall₂ (Finds g now acts j c x.id) x.upstream found ∧ some d ∈ found ∧
      scope.get? "input" = some (inputOf found.reduceOption)

theorem isObject_iteration {part : Option Value}
    (is : part = if count = 0 then none else some (.obj [("iteration", .ofInt (count - 1))])) :
    ∀ v ∈ part, v.isObject = true := by
  intro v member
  rw [is] at member
  split at member
  · cases member
  · cases member
    rfl

/-- Whether a node has completed shows in its result. -/
theorem Recorded.status (recorded : m.Recorded g first h) (account : m.Account first n.id h)
    (known : g.node? n.id = some n) (has : (m.cell n.id).result = some d) :
    (m.cell n.id).status = if (d.get? "output").isSome then .completed else .failed := by
  obtain ⟨k, stored⟩ := account.result has
  obtain ⟨-, n', known', agrees⟩ := recorded.stored (account.storer stored).1 stored
  cases known.symm.trans known'
  cases error : (m.cell n.id).error with
  | none =>
      rw [error] at agrees
      simp [Cell.status, has, error, Node.Completes.output agrees]
  | some e =>
      rw [error] at agrees
      obtain ⟨v, root⟩ := Node.Fails.alone agrees
      have absent : d.get? "output" = none := Document.get?_output root
      simp [Cell.status, has, error, absent]

section Looping

variable (known : g.node? n.id = some n)
  (performing : m.Performing g n (fun i => Function.looped i.arguments) inputs r h p)
  (rounds : m.Rounds g n first h p) (invoked : .invoked n.id t i ∈ h)
  (bound : Arguments.needInteger i.arguments "count" = .ok count)
  (has : (m.cell n.id).result = some d)
include performing rounds invoked bound has

/-- What a loop that was called for a count fired, published and gave. -/
theorem counted_performed : firesOf n.id p = queuing (Function.counted count).ports ∧
    n.Gives (Function.counted count) d ∧
    (m.published r n.id = (Function.counted count).part ∨
      m.published r n.id = some (Value.mergeOver (Function.counted count).part d.root)) := by
  have performed := performing.performed rounds.routing.memo rounds.routing.account invoked has
  simp only [Function.looped, bound] at performed
  exact performed

include known in
/-- **A loop that is called for a negative count declines.** -/
theorem declined_of_negative (recorded : m.Recorded g first h) (negative : count < 0) :
    m.Declined n (.invalidArgument "count" "non-negative integer"
      (String.ofList (Number.intText count))) d r p := by
  obtain ⟨fires, gives, published⟩ := counted_performed performing rounds invoked bound has
  simp only [Function.counted, if_pos negative] at fires gives published
  obtain ⟨time, rfl⟩ := gives.fails rfl
  have absent : (n.failure (.invalidArgument "count" "non-negative integer"
      (String.ofList (Number.intText count))) time).get? "output" = none := rfl
  obtain ⟨run, _, running, -⟩ := performing.composed
  rw [Machine.published, running, Option.bind_some] at published
  refine ⟨?_, ⟨time, rfl⟩, fires, run, running, published⟩
  rw [recorded.status rounds.routing.account known has, absent]
  rfl

section Counted

variable (many : 0 ≤ count)
include many

/-- A loop that is called for a count fires `loop` so many times, and then `done`. -/
theorem fires_of_count :
    firesOf n.id p = queuing (List.replicate count.toNat "loop" ++ ["done"]) := by
  have fires := (counted_performed performing rounds invoked bound has).1
  rwa [Function.counted, if_neg (Int.not_lt.2 many)] at fires

include known in
/-- It completes with the count. -/
theorem completed_of_count (recorded : m.Recorded g first h) (plain : n.outputs = []) :
    (m.cell n.id).status = .completed ∧ d.get? "output.iterations" = some (.ofInt count) := by
  obtain ⟨-, gives, -⟩ := counted_performed performing rounds invoked bound has
  rw [Function.counted, if_neg (Int.not_lt.2 many)] at gives
  obtain ⟨received, envelope, concluded⟩ := gives.completes plain rfl
  obtain ⟨ms, output, member⟩ :=
    Node.output_of_conclude plain envelope (fun w => by cases w <;> rfl) concluded
  refine ⟨?_, by rw [Document.get?_iterations output, member]⟩
  rw [recorded.status rounds.routing.account known has, output]
  rfl

/-- It leaves the number of the last iteration behind. -/
theorem iteration_of_count (plain : n.outputs = []) : ∃ run, m.run? r = some run ∧
    run.shared.get? (Shared.nodePath n.id ++ "." ++ "iteration") =
      if count = 0 then none else some (.ofInt (count - 1)) := by
  obtain ⟨-, gives, published⟩ := counted_performed performing rounds invoked bound has
  rw [Function.counted, if_neg (Int.not_lt.2 many)] at gives published
  obtain ⟨received, envelope, concluded⟩ := gives.completes plain rfl
  have result := (Node.completes_of_conclude envelope concluded).envelope
  obtain ⟨run, running, read⟩ :=
    performing.composed.read (show Path.parse "iteration" = .ok [.key "iteration"] from rfl) n.id
  refine ⟨run, running, read.trans ?_⟩
  have part :
      (if count = 0 then none else some (Value.obj [("iteration", .ofInt (count - 1))])).bind
        (·.at? [.key "iteration"]) = if count = 0 then none else some (.ofInt (count - 1)) := by
    split <;> rfl
  obtain same | same := published
  · rw [same]
    exact part
  · rw [same, Option.bind_some,
      result.at?_mergeOver (isObject_iteration rfl) ⟨by decide, by decide⟩]
    exact part

/-- What it starts in its rounds are the targets of `loop`, over and over, and those of `done`. -/
theorem rounds_of_count : roundsOf n.id p <+:
    List.replicate count.toNat (n.targets "loop") ++ [n.targets "done"] := by
  have fires := fires_of_count performing rounds invoked bound has many
  have order := rounds.routing.rounds_in_order fires
  rwa [List.map_append, List.map_replicate, List.map_singleton] at order

/-- Without iterations there is one round, of the targets of `done`. -/
theorem idle_of_count (zero : count = 0) {deed : PortDeed} (member : deed ∈ p)
    (mine : deed.node = n.id) : deed.targets ⊆ n.targets "done" := by
  have fires := fires_of_count performing rounds invoked bound has many
  have order := rounds_of_count performing rounds invoked bound has many
  subst zero
  obtain ⟨k, port, rfl, -⟩ | ⟨f, targets, calls, rfl, round⟩ :=
    rounds.routing.deed_cases fires member mine
  · exact List.nil_subset _
  · cases List.mem_singleton.1 (order.subset round)
    exact List.Subset.refl _

/-- A call that it started for `done` alone comes after all of its iterations. -/
theorem iterated_of_call (more : 1 ≤ count) (started : StartedBy n.id p c)
    (calling : m.Calling j c id stage) (apart : id ∉ n.targets "loop") {id' : NodeId}
    (target : id' ∈ n.targets "loop") : ∃ d', (m.cell id').result = some d' := by
  have fires := fires_of_count performing rounds invoked bound has many
  have order := rounds_of_count performing rounds invoked bound has many
  obtain ⟨f, targets, calls, -, -, round, targeted⟩ := rounds.routing.started fires started
  have differ : targets ≠ n.targets "loop" := fun same => apart (same ▸ targeted calling)
  -- so it is a call of the last round
  have last : targets = n.targets "done" := by
    obtain early | late := List.mem_append.1 (order.subset round)
    · exact absurd (List.eq_of_mem_replicate early) differ
    · exact List.mem_singleton.1 late
  subst last
  have whole := eq_of_prefix_of_mem order differ round
  refine rounds.earlier (n.targets "loop") ?_ id' target
  rw [whole, List.dropLast_concat]
  exact List.mem_replicate.2 ⟨by omega, rfl⟩

end Counted

end Looping

/-! ## The protocol -/

/-- What a port leads to takes results from its node. -/
theorem upstream_of_targets {cs : List Connection} (wired : Wired cs g.nodes) (there : n ∈ g.nodes)
    (there' : x ∈ g.nodes) {port : String} (target : x.id ∈ n.targets port) :
    ∃ u ∈ x.upstream, u.node = n.id := by
  obtain ⟨-, c, member, source, -, target⟩ := (wired.targets n there port x.id).1 target
  have named : n.id ∈ x.upstream.map Upstream.node := by
    rw [wired.upstream x there']
    exact mem_sourcesOf.2 ⟨c, member, source, target⟩
  exact List.mem_map.1 named

/-- **Loops keep their protocol.**  Take a loop of a built graph that places no outputs and declares
its two ports, in any run that starts on the graph at rest, at any moment of it.  It starts nothing
before it has been called and has its result; and when it has been called for a count and has its
result, it has declined the count if that is negative, and has gone through all iterations else. -/
theorem loops_keep_their_protocol {w : Workflow} {registry : Registry} {settings : Settings}
    (built : Graph.build w registry settings = .ok g) (now : Instant) (past : List Act)
    (rest : (session g now past).AtRest g) (execution : ExecutionId) (inputs : RunInputs)
    (requests : List Request) (schedule : List Move) (known : g.node? n.id = some n)
    (function : n.function = .loop) (plain : n.outputs = []) (loops : "loop" ∈ n.ports)
    (ends : "done" ∈ n.ports) :
    let before := session g now past
    let start := before.begin g execution inputs requests
    let acts := past ++ .start execution inputs requests :: schedule.map .move
    let h := start.history g schedule
    let p := start.portHistory g schedule
    let m := start.exec g schedule
    (∀ c, StartedBy n.id p c →
      (∃ t i, .invoked n.id t i ∈ h) ∧ ∃ d, (m.cell n.id).result = some d) ∧
    ∀ t i count d, .invoked n.id t i ∈ h → Arguments.needInteger i.arguments "count" = .ok count →
      (m.cell n.id).result = some d →
      (count < 0 → m.Declined n (.invalidArgument "count" "non-negative integer"
        (String.ofList (Number.intText count))) d before.nextRun p) ∧
      (0 ≤ count →
        m.Looped g now acts n count d before.nextTask before.nextRun requests h p) := by
  intro before start acts h p m
  have wired := build_wired built
  have there : n ∈ g.nodes := Graph.mem_of_node? known
  have driven : n.isPortDriven = true := by
    rw [Node.isPortDriven, Bool.not_eq_true', List.isEmpty_eq_false_iff]
    exact List.ne_nil_of_mem loops
  have rehearsed : Rehearsed g n fun i => Function.looped i.arguments :=
    fun _ _ _ bound => Function.loop_performs function loops ends bound
  obtain ⟨routing, performing⟩ :=
    performing_exec now past rest execution inputs requests schedule known driven rehearsed
  have rounds : m.Rounds g n before.nextTask h p :=
    rest.rounds_exec execution inputs requests schedule known driven
  have recorded : m.Recorded g before.nextTask h :=
    recorded_run past execution inputs requests schedule
  have accounted (id : NodeId) : m.Memo before.nextTask ∧ m.Account before.nextTask id h :=
    (rest.unoccupied.account_exec (g := g) execution inputs requests schedule).imp_right And.left
  refine ⟨fun c started => performing.started routing started,
    fun t i count d invoked bound has => ⟨fun negative => ?_, fun many => ?_⟩⟩
  · exact declined_of_negative known performing rounds invoked bound has recorded negative
  · have fires := fires_of_count performing rounds invoked bound has many
    obtain ⟨completed, iterations⟩ :=
      completed_of_count known performing rounds invoked bound has many recorded plain
    exact {
      completed, iterations, fires
      iteration := iteration_of_count performing rounds invoked bound has many plain
      idle := fun zero deed => idle_of_count performing rounds invoked bound has many zero
      reached := by
        intro more ended id target
        have queued : "loop" ∈ queuedPorts n.id p := by
          rw [queuedPorts_of_queuing fires]
          exact List.mem_append_left _ (List.mem_replicate.2 ⟨by omega, rfl⟩)
        obtain ⟨d', has'⟩ := routing.reached known driven (rest.quiet ended) has queued target
        exact (accounted id).2.executedOnce has'
      ordered := by
        intro more id _ apart alone begun id' target
        obtain ⟨memo, account⟩ := accounted id
        obtain ⟨j, c, stage, recent, calling⟩ := begun.call memo account
        exact iterated_of_call performing rounds invoked bound has many more
          (alone j c stage recent calling) calling apart target
      heard := by
        intro x c j received scope named started binding
        obtain ⟨f, targets, calls, member, call, round, targeted⟩ := routing.started fires started
        obtain ⟨port, -, rfl⟩ := List.mem_map.1 ((routing.rounds_in_order fires).subset round)
        obtain ⟨u, linked, source⟩ := upstream_of_targets wired there (Graph.mem_of_node? named)
          (targeted binding)
        exact hears_of_rounds rest known driven wired named linked source member call has binding }

end Machine

/-! ## Laps -/

/-- The call of a loop for a count. -/
def Deed.counts (id : NodeId) (count : Int) : Deed → Bool
  | .invoked k _ i =>
    k == id && (Arguments.needInteger i.arguments "count").toOption == some count
  | _ => false

theorem Deed.exists_call {id : NodeId} {count : Int} {h : List Deed}
    (some : h.any (Deed.counts id count) = true) :
    ∃ t i, .invoked id t i ∈ h ∧ Arguments.needInteger i.arguments "count" = .ok count := by
  obtain ⟨deed, member, counts⟩ := List.any_eq_true.1 some
  cases deed with
  | invoked k t i =>
      obtain ⟨same, bound⟩ := Bool.and_eq_true_iff.1 counts
      cases eq_of_beq same
      refine ⟨t, i, member, ?_⟩
      cases asked : Arguments.needInteger i.arguments "count" with
      | error e =>
          rw [asked] at bound
          cases eq_of_beq bound
      | ok found =>
          rw [asked] at bound
          cases eq_of_beq bound
          rfl
  | _ => cases counts

namespace Sample

/-- A function that leaves work behind, which fires its port. -/
def belatedly : Function :=
  .scripted ⟨"belatedly", "", Signature.generalCategory, [⟨"flow", .flow⟩], ["later"]⟩
    [.fireLater "later"]

def loopers : Registry := .ofList [.start, .loop, belatedly, plain]

/-- The entry `1` goes to the loop `2`, which goes to `3` twice and then to `4`. -/
def laps : Workflow where
  id := ⟨112⟩
  name := "laps"
  description := none
  nodes := [.new ⟨1⟩ startKey, (NodeSpec.new ⟨2⟩ "flow.loop").withInput "count" "2",
    .new ⟨3⟩ "plain", .new ⟨4⟩ "plain"]
  connections := [⟨⟨1⟩, none, ⟨2⟩⟩, ⟨⟨2⟩, some "loop", ⟨3⟩⟩, ⟨⟨2⟩, some "done", ⟨4⟩⟩]

def lapsGraph : Graph := (Graph.build laps loopers .standard).toOption.get (by decide +kernel)

/-- The loop `2` goes to `3` for no iteration, and then to `3` and `4`. -/
def shared : Workflow where
  id := ⟨113⟩
  name := "shared"
  description := none
  nodes := [.new ⟨1⟩ startKey, (NodeSpec.new ⟨2⟩ "flow.loop").withInput "count" "0",
    .new ⟨3⟩ "plain", .new ⟨4⟩ "plain"]
  connections := [⟨⟨1⟩, none, ⟨2⟩⟩, ⟨⟨2⟩, some "loop", ⟨3⟩⟩, ⟨⟨2⟩, some "done", ⟨3⟩⟩,
    ⟨⟨2⟩, some "done", ⟨4⟩⟩]

def sharedGraph : Graph := (Graph.build shared loopers .standard).toOption.get (by decide +kernel)

/-- What `2` leaves behind goes to the loop `3`, which goes to `4` once. -/
def belated : Workflow where
  id := ⟨114⟩
  name := "belated"
  description := none
  nodes := [.new ⟨1⟩ startKey, .new ⟨2⟩ "belatedly",
    (NodeSpec.new ⟨3⟩ "flow.loop").withInput "count" "1", .new ⟨4⟩ "plain"]
  connections := [⟨⟨1⟩, none, ⟨2⟩⟩, ⟨⟨2⟩, some "later", ⟨3⟩⟩, ⟨⟨3⟩, some "loop", ⟨4⟩⟩]

def belatedGraph : Graph := (Graph.build belated loopers .standard).toOption.get (by decide +kernel)

/-- The call of `4`, the task `9`, goes on, and that of `3` does not. -/
def uneven : List Machine.Move := turns 40 8 ++ strides [(20, 9)]

/-- The work that is left behind, the task `7`, goes on when all else is through, and then the call
of the loop, the task `9`. -/
def overdue : List Machine.Move :=
  (turns 41 9).filter (· ≠ .step 7) ++ strides [(3, 7), (40, 9)]

end Sample

namespace Machine

open Sample

def lapsRun : Machine := (new epoch).launched lapsGraph ⟨7⟩ .empty

def sharedRun : Machine := (new epoch).launched sharedGraph ⟨7⟩ .empty

def belatedRun : Machine := (new epoch).launched belatedGraph ⟨7⟩ .empty

/-- A loop of a graph that was called for a count and has its result. -/
theorem exists_counted {g : Graph} {m : Machine} {h : List Deed} {id : NodeId} {count : Int}
    {targets : List NodeId}
    (there : (g.node? id).map (fun n => (n.function, n.outputs, n.ports, n.targets "loop")) =
      some (.loop, [], ["loop", "done"], targets))
    (called : h.any (Deed.counts id count) = true) (has : (m.cell id).result.isSome = true) :
    ∃ n t i d, n.id = id ∧ g.node? n.id = some n ∧ n.function = .loop ∧ n.outputs = [] ∧
      n.ports = ["loop", "done"] ∧ n.targets "loop" = targets ∧ .invoked n.id t i ∈ h ∧
      Arguments.needInteger i.arguments "count" = .ok count ∧ (m.cell n.id).result = some d := by
  obtain ⟨n, known, same⟩ := Option.map_eq_some_iff.1 there
  simp only [Prod.mk.injEq] at same
  obtain ⟨function, plain, ports, targets⟩ := same
  obtain ⟨t, i, invoked, bound⟩ := Deed.exists_call called
  obtain ⟨d, has⟩ := Option.isSome_iff_exists.1 has
  cases Graph.id_of_node? known
  exact ⟨n, t, i, d, rfl, known, function, plain, ports, targets, invoked, bound, has⟩

set_option maxRecDepth 100000 in
/-- The laps are run to their end. -/
theorem laps_are_gone_through :
    Graph.build laps loopers .standard = .ok lapsGraph ∧
    (session lapsGraph epoch []).AtRest lapsGraph ∧
    ∃ n t i d, lapsGraph.node? n.id = some n ∧ n.function = .loop ∧ n.outputs = [] ∧
      n.ports = ["loop", "done"] ∧ .invoked n.id t i ∈ lapsRun.history lapsGraph (turns 89 13) ∧
      Arguments.needInteger i.arguments "count" = .ok 2 ∧
      ((lapsRun.exec lapsGraph (turns 89 13)).cell n.id).result = some d ∧
      (lapsRun.exec lapsGraph (turns 89 13)).Looped lapsGraph epoch
        (.start ⟨7⟩ .empty [.launch] :: (turns 89 13).map .move) n 2 d 0 0 [.launch]
        (lapsRun.history lapsGraph (turns 89 13))
        (lapsRun.portHistory lapsGraph (turns 89 13)) := by
  have built : Graph.build laps loopers .standard = .ok lapsGraph := eq_ok_get _
  have rest : (session lapsGraph epoch []).AtRest lapsGraph := atRest_new lapsGraph epoch
  have there : (lapsGraph.node? ⟨2⟩).map
      (fun n => (n.function, n.outputs, n.ports, n.targets "loop")) =
      some (.loop, [], ["loop", "done"], [⟨3⟩]) := rfl
  have called : (lapsRun.history lapsGraph (turns 89 13)).any (Deed.counts ⟨2⟩ 2) = true := by
    decide +kernel
  have through : ((lapsRun.exec lapsGraph (turns 89 13)).cell ⟨2⟩).result.isSome = true := by
    decide +kernel
  obtain ⟨n, t, i, d, -, known, function, plain, ports, -, invoked, bound, has⟩ :=
    exists_counted there called through
  obtain ⟨-, counted⟩ := loops_keep_their_protocol built epoch [] rest ⟨7⟩ .empty [.launch]
    (turns 89 13) known function plain (by simp [ports]) (by simp [ports])
  exact ⟨built, rest, n, t, i, d, known, function, plain, ports, invoked, bound, has,
    (counted t i 2 d invoked bound has).2 (by decide)⟩

set_option maxRecDepth 100000 in
/-- A loop without iterations starts a target of `loop` that `done` leads to as well, and what
`done` alone leads to does not wait for it.  And a loop that is started by work left behind may be
through with its iterations still to come when the run has returned. -/
theorem shared_targets_and_late_loops :
    (Graph.build shared loopers .standard = .ok sharedGraph ∧
      (session sharedGraph epoch []).AtRest sharedGraph ∧
      ∃ n t i d, sharedGraph.node? n.id = some n ∧ n.function = .loop ∧ n.outputs = [] ∧
        n.ports = ["loop", "done"] ∧ n.targets "loop" = [⟨3⟩] ∧
        .invoked n.id t i ∈ sharedRun.history sharedGraph uneven ∧
        Arguments.needInteger i.arguments "count" = .ok 0 ∧
        ((sharedRun.exec sharedGraph uneven).cell n.id).result = some d ∧
        roundsOf n.id (sharedRun.portHistory sharedGraph uneven) = [[⟨3⟩, ⟨4⟩]] ∧
        ((sharedRun.exec sharedGraph uneven).cell ⟨4⟩).result.isSome = true ∧
        ((sharedRun.exec sharedGraph uneven).cell ⟨3⟩).result = none) ∧
    Graph.build belated loopers .standard = .ok belatedGraph ∧
      (session belatedGraph epoch []).AtRest belatedGraph ∧
      ∃ n t i d, belatedGraph.node? n.id = some n ∧ n.function = .loop ∧ n.outputs = [] ∧
        n.ports = ["loop", "done"] ∧ n.targets "loop" = [⟨4⟩] ∧
        .invoked n.id t i ∈ belatedRun.history belatedGraph overdue ∧
        Arguments.needInteger i.arguments "count" = .ok 1 ∧
        ((belatedRun.exec belatedGraph overdue).cell n.id).result = some d ∧
        (belatedRun.exec belatedGraph overdue).isDone 0 = true ∧
        ((belatedRun.exec belatedGraph overdue).cell ⟨4⟩).result = none := by
  constructor
  · have built : Graph.build shared loopers .standard = .ok sharedGraph := eq_ok_get _
    have there : (sharedGraph.node? ⟨2⟩).map
        (fun n => (n.function, n.outputs, n.ports, n.targets "loop")) =
        some (.loop, [], ["loop", "done"], [⟨3⟩]) := rfl
    have called : (sharedRun.history sharedGraph uneven).any (Deed.counts ⟨2⟩ 0) = true := by
      decide +kernel
    have through : ((sharedRun.exec sharedGraph uneven).cell ⟨2⟩).result.isSome = true := by
      decide +kernel
    have started : roundsOf ⟨2⟩ (sharedRun.portHistory sharedGraph uneven) = [[⟨3⟩, ⟨4⟩]] := by
      decide +kernel
    obtain ⟨n, t, i, d, name, known, function, plain, ports, targets, invoked, bound, has⟩ :=
      exists_counted there called through
    exact ⟨built, atRest_new sharedGraph epoch, n, t, i, d, known, function, plain, ports, targets,
      invoked, bound, has, name ▸ started, by decide +kernel, by decide +kernel⟩
  · have built : Graph.build belated loopers .standard = .ok belatedGraph := eq_ok_get _
    have there : (belatedGraph.node? ⟨3⟩).map
        (fun n => (n.function, n.outputs, n.ports, n.targets "loop")) =
        some (.loop, [], ["loop", "done"], [⟨4⟩]) := rfl
    have called : (belatedRun.history belatedGraph overdue).any (Deed.counts ⟨3⟩ 1) = true := by
      decide +kernel
    have through : ((belatedRun.exec belatedGraph overdue).cell ⟨3⟩).result.isSome = true := by
      decide +kernel
    obtain ⟨n, t, i, d, -, known, function, plain, ports, targets, invoked, bound, has⟩ :=
      exists_counted there called through
    exact ⟨built, atRest_new belatedGraph epoch, n, t, i, d, known, function, plain, ports, targets,
      invoked, bound, has, by decide +kernel, by decide +kernel⟩

end Machine
end Flowgraph
