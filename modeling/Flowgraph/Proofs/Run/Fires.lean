/- # Flowgraph.Proofs.Run.Fires -- no fire of a port is lost, doubled or reordered

A fire lands before, between or after the steps by which its node completes.  While the
queue is open it waits there; the call that stored the result closes the queue, takes
along what waits and hands it to the fan-out of the node, which starts one port after
the other.  Once the queue is closed the task that fires a port routes it itself.

`Honours` is the account of this for one node: at every moment what was queued is what
was routed and what the fan-out has left, and what a task fired without its being queued
is what it routed and what it is about to route.  That there is no gap between the two
ways rests on a node's being through only once: there is one fan-out (`Account`), and it
has all that was put into the queue before one task closed it (`Onward`).
-/
import Flowgraph.Proofs.Run.Ports

set_option autoImplicit false

namespace Flowgraph

namespace Machine

variable {g : Graph} {m m' : Machine} {t k f first : TaskId} {r j : RunId} {n : Node}
  {id x : NodeId} {port : String} {work work' : Work} {e : Effect} {h : List Deed}
  {p : List PortDeed} {d : Document} {ts : List TaskId} {stage : Stage}

/-! ## What a task waits for -/

/-- What is left of earlier runs is done, or no run can notice it. -/
def Bygone (g : Graph) (first : TaskId) (m : Machine) : Prop :=
  ∀ (k : TaskId) (task : Task), k < first → m.tasks[k]? = some task →
    task.isDone = true ∨ task.work.Harmless g

theorem Bygone.step (bygone : m.Bygone g first) (memo : m.Memo first)
    (here : m.tasks[t]? = some ⟨r, work⟩) (rule : Transition g m t r work work' e)
    (after : After m t r work' e m') : m'.Bygone g first := by
  intro k task past there
  obtain ⟨rfl, rfl⟩ | ⟨other, before, was, rfl⟩ | ⟨late, -⟩ := after.cases there
  · obtain done | harmless := bygone k _ past here
    · cases rule.not_done.symm.trans done
    · exact .inr (rule.harmless harmless).1
  · obtain done | harmless := bygone k _ past was
    · exact .inl ((Task.isDone_granted ..).trans done)
    · rw [Task.granted_of_not_launch _ _ harmless.not_launch]
      exact .inr harmless
  · exact absurd past (Nat.not_lt_of_le (Nat.le_trans memo.bound late))

/-- A fan-out that goes on is one of this run. -/
theorem Bygone.fans (bygone : m.Bygone g first) {rounds : List (List NodeId)}
    (here : m.tasks[t]? = some ⟨r, .fanOut id rounds ts⟩)
    (rule : Transition g m t r (.fanOut id rounds ts) work' e) : m.Fans first t id := by
  refine ⟨?_, r, rounds, ts, here⟩
  by_cases past : t < first
  · obtain done | harmless := bygone t _ past here
    · cases rule.not_done.symm.trans done
    · exact harmless.elim
  · exact Nat.le_of_not_lt past

/-- A node that was started by a task that waits for `ts` is run by one of these, or has its
result. -/
def Awaited (m : Machine) (first : TaskId) (ts : List TaskId) (x : NodeId) : Prop :=
  (∃ c ∈ ts, first ≤ c ∧ ∃ i stage, m.Calling i c x stage) ∨ ∃ d, (m.cell x).result = some d

theorem Awaited.result (awaited : m.Awaited first ts x) (memo : m.Memo first)
    (done : m.allDone ts = true) : ∃ d, (m.cell x).result = some d := by
  obtain ⟨c, member, recent, i, stage, calling⟩ | has := awaited
  · obtain ⟨d, -, has⟩ := memo.done_of_isDone recent calling (List.all_eq_true.1 done c member)
    exact ⟨d, has⟩
  · exact has

theorem Awaited.step (awaited : m.Awaited first ts x) (memo : m.Memo first)
    (here : m.tasks[t]? = some ⟨r, work⟩) (rule : Transition g m t r work work' e)
    (after : After m t r work' e m') : m'.Awaited first ts x := by
  obtain ⟨c, member, recent, i, stage, calling⟩ | ⟨d, has⟩ := awaited
  · exact .inl ⟨c, member, recent, i, calling.still here rule after⟩
  · exact .inr ⟨d, memo.result_kept here rule after has⟩

/-- Every node that was started for a port is run by a task of its own, and the task that started
it waits for it. -/
structure Sent (first : TaskId) (p : List PortDeed) (m : Machine) : Prop where
  bound : ∀ {deed}, deed ∈ p → deed.task < m.tasks.size
  calls : ∀ {deed}, deed ∈ p →
    List.Forall₂ (fun x c => ∃ i stage, m.Calling i c x stage) deed.targets deed.calls
  awaited : ∀ {deed task}, deed ∈ p → m.tasks[deed.task]? = some task →
    ∀ x ∈ deed.targets, m.Awaited first task.work.awaiting x

namespace Sent

variable (sent : m.Sent first p) (memo : m.Memo first) (here : m.tasks[t]? = some ⟨r, work⟩)
  (rule : Transition g m t r work work' e) (after : After m t r work' e m')

include sent memo here rule after

theorem step : m'.Sent first (p ++ m.workPorts g t work) where
  bound := by
    intro deed member
    rw [after.size]
    obtain old | new := List.mem_append.1 member
    · exact Nat.lt_of_lt_of_le (sent.bound old) (Nat.le_add_right _ _)
    · rw [workPorts_task new]
      exact Nat.lt_of_lt_of_le (lt_size_of_tasks here) (Nat.le_add_right _ _)
  calls := by
    intro deed member
    obtain old | new := List.mem_append.1 member
    · exact (sent.calls old).imp fun x c ⟨i, stage, calling⟩ => ⟨i, calling.still here rule after⟩
    · by_cases starts : deed.starts = true
      · obtain ⟨-, calls, spawned⟩ := rule.starts new starts
        rw [calls]
        exact (after.new_calls here spawned).imp fun x c calling => ⟨r, .probe, calling⟩
      · cases deed with
        | accepted => exact .nil
        | _ => exact absurd rfl starts
  awaited := by
    intro deed task member there x target
    obtain old | new := List.mem_append.1 member
    · obtain ⟨same, rfl⟩ | ⟨other, before, was, rfl⟩ | ⟨late, -⟩ := after.cases there
      · rw [same] at there
        obtain ⟨d, has⟩ := (sent.awaited old (same ▸ here) x target).result memo rule.awaited
        exact .inr ⟨d, memo.result_kept here rule after has⟩
      · rw [(Task.granted_idle e.grant before x).1]
        exact (sent.awaited old was x target).step memo here rule after
      · exact absurd (sent.bound old) (Nat.not_lt_of_le late)
    · have starts : deed.starts = true := by
        cases deed with
        | accepted => cases target
        | _ => rfl
      obtain ⟨waits, calls, spawned⟩ := rule.starts new starts
      rw [workPorts_task new] at there
      cases after.here.symm.trans there
      obtain ⟨c, waited, late, new⟩ := after.started_of_mem here spawned target
      rw [waits, calls]
      exact .inl ⟨c, waited, Nat.le_trans memo.bound late, r, .probe, _, new⟩

end Sent

/-! ## The account of the fires of a node -/

/-- The port of a node that a task has fired and is about to route. -/
def firing (m : Machine) (id : NodeId) (k : TaskId) : List String :=
  match m.tasks[k]? with
  | some task => task.work.firing id
  | none => []

/-- What became of the fires of a node with ports, by the deeds `h` and `p` of a run whose tasks
are numbered from `first`. -/
structure Honours (g : Graph) (n : Node) (first : TaskId) (h : List Deed) (p : List PortDeed)
    (m : Machine) : Prop where
  queued : queuedPorts n.id p = queuedFires n.id h
  left : ∀ {f j rounds waiting}, first ≤ f → m.tasks[f]? = some ⟨j, .fanOut n.id rounds waiting⟩ →
    (queuedPorts n.id p).map n.targets = roundsOf n.id p ++ rounds
  started : ∀ {f targets calls}, .round n.id f targets calls ∈ p → m.Fans first f n.id
  late : ∀ k, latePorts n.id k p = routedPorts n.id k p ++ m.firing n.id k
  lateClosed : ∀ {k port}, .accepted n.id k port false ∈ p → (m.cell n.id).queue.closed = true
  routed : ∀ {k port targets calls}, .routed n.id k port targets calls ∈ p →
    targets = n.targets port
  program : ∀ {k : TaskId} {task : Task} {x}, m.tasks[k]? = some task →
    task.work.program? = some (n.id, x) →
    (Work.aside n.id x).Harmless g ∨ ∃ k i, .invoked n.id k i ∈ h
  invoked : queuedPorts n.id p ≠ [] → ∃ k i, .invoked n.id k i ∈ h

/-! ### Programs -/

/-- A program is started by calling the function, and goes on from itself. -/
theorem Transition.program (rule : Transition g m t r work work' e) {x' : Execution}
    (program : work'.program? = some (id, x')) :
    (∃ i, .invoked id t i ∈ e.deeds) ∨ ∃ x n, work.program? = some (id, x) ∧
      g.node? id = some n ∧ ExecutionStep m r n x x' e := by
  cases rule with
  | call known step =>
      cases Graph.id_of_node? known
      cases step with
      | work step =>
          cases program
          exact .inr ⟨_, _, rfl, known, step⟩
      | invoke =>
          cases program
          exact .inl ⟨_, List.mem_singleton_self _⟩
      | _ => cases program
  | aside known step =>
      cases program
      exact .inr ⟨_, _, rfl, known, step⟩
  | _ => cases program

/-- A program that is started beside another is left behind by it. -/
theorem Transition.left (rule : Transition g m t r work work' e) {task : Task} {x' : Execution}
    (new : task ∈ e.spawned) (program : task.work.program? = some (id, x')) :
    task.work = .aside id x' ∧ ∃ x x₁ n, work.program? = some (id, x) ∧ g.node? id = some n ∧
      ExecutionStep m r n x x₁ e := by
  have execution {n : Node} {x x₁ : Execution} (step : ExecutionStep m r n x x₁ e) :
      task.work = .aside id x' ∧ n.id = id := by
    cases step with
    | leave =>
        cases List.mem_singleton.1 new
        cases program
        exact ⟨rfl, rfl⟩
    | route =>
        obtain ⟨_, -, rfl⟩ := List.mem_map.1 new
        cases program
    | _ => simp at new
  cases rule with
  | call known step =>
      cases Graph.id_of_node? known
      cases step with
      | work step =>
          obtain ⟨stands, rfl⟩ := execution step
          exact ⟨stands, _, _, _, rfl, known, step⟩
      | pull | branch =>
          cases List.mem_singleton.1 new
          cases program
      | _ => simp at new
  | aside known step =>
      cases Graph.id_of_node? known
      obtain ⟨stands, rfl⟩ := execution step
      exact ⟨stands, _, _, _, rfl, known, step⟩
  | round | entries =>
      obtain ⟨_, -, rfl⟩ := List.mem_map.1 new
      cases program
  | permit | joined =>
      cases List.mem_singleton.1 new
      cases program
  | _ => simp at new

/-- A port is queued by a program of the node. -/
theorem Transition.queues (rule : Transition g m t r work work' e)
    (queued : queuedPorts id (m.workPorts g t work) ≠ []) :
    e.deeds ≠ [] ∧ ∃ x x' n, work.program? = some (id, x) ∧ g.node? id = some n ∧
      ExecutionStep m r n x x' e := by
  rw [rule.queuedPorts_eq] at queued
  obtain ⟨port, member⟩ := List.exists_mem_of_ne_nil _ queued
  have fired := mem_queuedFires.1 member
  refine ⟨List.ne_nil_of_mem fired, ?_⟩
  have execution {n : Node} {x x' : Execution} (step : ExecutionStep m r n x x' e) : n.id = id := by
    cases step with
    | queue =>
        cases List.mem_singleton.1 fired
        rfl
    | late => cases List.mem_singleton.1 fired
    | _ => simp at fired
  cases rule with
  | call known step =>
      cases Graph.id_of_node? known
      cases step with
      | work step =>
          cases execution step
          exact ⟨_, _, _, rfl, known, step⟩
      | invoke | finish | store | branch => cases List.mem_singleton.1 fired
      | _ => simp at fired
  | aside known step =>
      cases Graph.id_of_node? known
      cases execution step
      exact ⟨_, _, _, rfl, known, step⟩
  | _ => simp at fired

/-! ### What a step keeps -/

namespace Honours

variable (honours : m.Honours g n first h p) (memo : m.Memo first)
  (account : m.Account first n.id h) (onward : m.Onward g first n.id h) (bygone : m.Bygone g first)
  (known : g.node? n.id = some n) (driven : n.isPortDriven = true)
  (here : m.tasks[t]? = some ⟨r, work⟩) (rule : Transition g m t r work work' e)
  (after : After m t r work' e m')

section

include honours account

/-- While the call that stored the result goes on, no round has been started. -/
theorem unbranched (calling : m.Calling j k n.id stage) (closing : stage.closing = true) :
    roundsOf n.id p = [] := by
  refine List.eq_nil_iff_forall_not_mem.2 fun targets member => ?_
  obtain ⟨f, calls, started⟩ := mem_roundsOf member
  obtain ⟨recent, _, _, _, fans⟩ := honours.started started
  obtain ⟨k', branched⟩ := account.fanOut recent fans
  obtain ⟨d, _, stored, done⟩ := account.brancher branched
  obtain ⟨_, storedToo⟩ := account.closer calling closing
  obtain ⟨rfl, -⟩ := account.stored_unique stored storedToo
  obtain ⟨-, -, rfl⟩ := done.unique calling
  cases closing

end

section

include honours rule after

theorem step_lateClosed (accepted : .accepted n.id k port false ∈ p ++ m.workPorts g t work) :
    (m'.cell n.id).queue.closed = true := by
  rw [after.cell]
  obtain old | new := List.mem_append.1 accepted
  · exact rule.closed (honours.lateClosed old)
  · exact rule.closed (closed_of_late new)

include here

/-- What a task fired without its being queued is what it routed and what it is about to route. -/
theorem step_late (k : TaskId) :
    latePorts n.id k (p ++ m.workPorts g t work) =
      routedPorts n.id k (p ++ m.workPorts g t work) ++ m'.firing n.id k := by
  rw [latePorts_append, routedPorts_append, honours.late k]
  by_cases mine : k = t
  · subst mine
    have before : m.firing n.id k = work.firing n.id := by simp [Machine.firing, here]
    have now : m'.firing n.id k = work'.firing n.id := by simp [Machine.firing, after.here]
    rw [before, now, List.append_assoc, rule.firing n.id, List.append_assoc]
  · rw [latePorts_other mine, routedPorts_other mine, List.append_nil, List.append_nil]
    congr 1
    have stands := after.tasks k
    rw [if_neg mine] at stands
    by_cases old : k < m.tasks.size
    · rw [if_pos old] at stands
      cases was : m.tasks[k]? with
      | none => simp [Machine.firing, was, stands]
      | some task => simp [Machine.firing, was, stands, (Task.granted_idle e.grant task n.id).2.1]
    · rw [if_neg old] at stands
      have absent : m.tasks[k]? = none := Array.getElem?_eq_none (Nat.le_of_not_lt old)
      cases new : e.spawned[k - m.tasks.size]? with
      | none => simp [Machine.firing, absent, stands, new]
      | some task =>
          have quiet : task.work.firing n.id = [] := by
            cases rule.spawnedAt new <;> simp [Work.firing, Work.program?, freshCall,
              Execution.firing]
          simp [Machine.firing, absent, stands, new, quiet]

theorem step_program {task : Task} {x : Execution} (there : m'.tasks[k]? = some task)
    (program : task.work.program? = some (n.id, x)) :
    (Work.aside n.id x).Harmless g ∨ ∃ k i, .invoked n.id k i ∈ h ++ e.deeds := by
  have kept : (∃ k i, .invoked n.id k i ∈ h) → ∃ k i, .invoked n.id k i ∈ h ++ e.deeds :=
    fun ⟨k, i, invoked⟩ => ⟨k, i, List.mem_append_left _ invoked⟩
  obtain ⟨rfl, rfl⟩ | ⟨other, before, was, rfl⟩ | ⟨-, new⟩ := after.cases there
  · obtain ⟨i, invoked⟩ | ⟨x₀, n', had, known', step⟩ := rule.program program
    · exact .inr ⟨k, i, List.mem_append_right _ invoked⟩
    · obtain harmless | invoked := honours.program here had
      · exact .inl (step.harmless known' harmless).1
      · exact .inr (kept invoked)
  · rw [(Task.granted_idle e.grant before n.id).2.2] at program
    exact (honours.program was program).imp_right kept
  · have member := List.mem_of_getElem? new
    obtain ⟨stands, x₀, x₁, n', had, known', step⟩ := rule.left member program
    obtain harmless | invoked := honours.program here had
    · exact .inl (stands ▸ (step.harmless known' harmless).2.1 task member)
    · exact .inr (kept invoked)

omit after in
theorem step_invoked (queued : queuedPorts n.id (p ++ m.workPorts g t work) ≠ []) :
    ∃ k i, .invoked n.id k i ∈ h ++ e.deeds := by
  have kept : (∃ k i, .invoked n.id k i ∈ h) → ∃ k i, .invoked n.id k i ∈ h ++ e.deeds :=
    fun ⟨k, i, invoked⟩ => ⟨k, i, List.mem_append_left _ invoked⟩
  by_cases old : queuedPorts n.id p = []
  · rw [queuedPorts_append, old, List.nil_append] at queued
    obtain ⟨deeds, x, x', n', program, known', step⟩ := rule.queues queued
    obtain harmless | invoked := honours.program here program
    · exact absurd (step.harmless known' harmless).2.2.2 deeds
    · exact kept invoked
  · exact kept (honours.invoked old)

include bygone in
theorem step_started {targets : List NodeId} {calls : List TaskId}
    (started : .round n.id f targets calls ∈ p ++ m.workPorts g t work) :
    m'.Fans first f n.id := by
  obtain old | new := List.mem_append.1 started
  · exact (honours.started old).step here rule after
  · obtain none | ⟨targets', rest, rfl, rfl, round⟩ := rule.rounds n.id
    · have member : targets ∈ roundsOf n.id (m.workPorts g t work) :=
        List.mem_filterMap.2 ⟨_, new, by simp [PortDeed.round?]⟩
      rw [none] at member
      cases member
    · rw [round] at new
      cases List.mem_singleton.1 new
      exact (bygone.fans here rule).step here rule after

include account onward bygone known driven

/-- What was queued is what was routed and what the fan-out has left. -/
theorem step_left {rounds : List (List NodeId)} (recent : first ≤ f)
    (there : m'.tasks[f]? = some ⟨j, .fanOut n.id rounds ts⟩) :
    (queuedPorts n.id (p ++ m.workPorts g t work)).map n.targets =
      roundsOf n.id (p ++ m.workPorts g t work) ++ rounds := by
  obtain ⟨rfl, same⟩ | ⟨other, old⟩ | ⟨-, new⟩ := after.plain_cases rfl there
  · cases same
    cases rule with
    | @round _ targets =>
        have full : Transition g m f r (.fanOut n.id (targets :: rounds) []) _ _ := .round
        have shut := onward.fans (bygone.fans here full)
        rw [queuedPorts_append, full.queued_closed shut, List.append_nil,
          honours.left recent here, roundsOf_append]
        simp [workPorts, roundsOf, PortDeed.round?]
    | @rested _ rounds w waiting all =>
        have none : m.workPorts g f (.fanOut n.id rounds (w :: waiting)) = [] := by
          cases rounds <;> rfl
        rw [none, List.append_nil]
        exact honours.left recent here
  · have fans : m.Fans first f n.id := ⟨recent, _, _, _, old⟩
    have alone : roundsOf n.id (m.workPorts g t work) = [] := by
      obtain none | ⟨targets, rest, rfl, rfl, -⟩ := rule.rounds n.id
      · exact none
      · obtain ⟨earlier, _, _, _, mine⟩ := bygone.fans here rule
        obtain ⟨_, one⟩ := account.fanOut recent old
        obtain ⟨_, two⟩ := account.fanOut earlier mine
        exact absurd (account.branched_unique one two).2 other
    rw [queuedPorts_append, rule.queued_closed (onward.fans fans), List.append_nil,
      roundsOf_append, alone, List.append_nil]
    exact honours.left recent old
  · obtain ⟨-, began, began', d, pending, rfl, rfl⟩ := rule.of_branched (rule.of_fanOut new)
    have calling : m.Calling r t n.id (.branch d pending) := ⟨_, here⟩
    have none : m.workPorts g t (.call n.id began (.branch d pending)) = [] := rfl
    rw [none, List.append_nil, honours.unbranched account calling rfl, List.nil_append,
      honours.queued, ← (onward.taken calling).2]
    cases rule with
    | call known' step =>
        cases known.symm.trans known'
        cases step with
        | branch =>
            have made := List.mem_singleton.1 (List.mem_of_getElem? new)
            simp only [Task.mk.injEq, Work.fanOut.injEq] at made
            rw [made.2.2.1, Machine.rounds, if_pos driven]

end

include honours account onward bygone known driven here rule after

/-- Every step keeps the account of the fires of a node. -/
theorem step : m'.Honours g n first (h ++ e.deeds) (p ++ m.workPorts g t work) where
  queued := by
    rw [queuedPorts_append, queuedFires_append, honours.queued, rule.queuedPorts_eq]
  left := honours.step_left account onward bygone known driven here rule after
  started := honours.step_started bygone here rule after
  late := honours.step_late here rule after
  lateClosed := honours.step_lateClosed rule after
  routed := by
    intro k port targets calls member
    obtain old | new := List.mem_append.1 member
    · exact honours.routed old
    · obtain ⟨-, n', known', same⟩ := of_routed new
      cases known.symm.trans known'
      exact same
  program := honours.step_program here rule after
  invoked := honours.step_invoked here rule

end Honours

/-! ## A run -/

/-- What became of the fires of a node with ports, by the history `p` of ports of a run whose
tasks are numbered from `first`, and the machine `m` after it. -/
structure Honoured (g : Graph) (n : Node) (first : TaskId) (p : List PortDeed) (m : Machine) :
    Prop where
  /-- Queued fires are routed to the targets of their ports, in their order, each once. -/
  queued : ∃ left, (queuedPorts n.id p).map n.targets = roundsOf n.id p ++ left
  /-- Any other fire is routed once, next, by the task that fired the port. -/
  late : ∀ k, latePorts n.id k p = routedPorts n.id k p ++ m.firing n.id k
  /-- It is routed to the targets of its port. -/
  targets : ∀ k port targets calls, .routed n.id k port targets calls ∈ p →
    targets = n.targets port
  /-- Whatever is routed to is called. -/
  calls : ∀ deed ∈ p,
    List.Forall₂ (fun x c => ∃ r stage, m.Calling r c x stage) deed.targets deed.calls
  /-- Nothing is routed before the result of the node is stored. -/
  stored : ∀ v, ∀ deed ∈ m.ports g v, deed.node = n.id → deed.starts = true →
    ∃ d, (m.cell n.id).result = some d
  /-- The next port that was queued is routed only after every target of the ones before has a
  result. -/
  ordered : ∀ v, roundsOf n.id (m.ports g v) ≠ [] → ∀ targets ∈ roundsOf n.id p, ∀ x ∈ targets,
    ∃ d, (m.cell x).result = some d
  /-- A task that is past a fire that was not queued has seen a result of every target. -/
  returned : ∀ (k : TaskId) (task : Task), m.tasks[k]? = some task →
    task.work.firing n.id = [] → task.work.awaiting = [] → ∀ port ∈ latePorts n.id k p,
    ∀ x ∈ n.targets port, ∃ d, (m.cell x).result = some d
  /-- When the fan-out of the node is done, everything that was queued has been routed. -/
  through : ∀ f, m.Fans first f n.id → m.isDone f = true →
    (queuedPorts n.id p).map n.targets = roundsOf n.id p
  /-- When the run is done, everything that was accepted has been routed. -/
  settled : (∀ (k : TaskId) (task : Task), first ≤ k → m.tasks[k]? = some task →
      task.isDone = true) →
    (queuedPorts n.id p).map n.targets = roundsOf n.id p ∧
      ∀ k, latePorts n.id k p = routedPorts n.id k p

namespace Honours

variable (honours : m.Honours g n first h p) (memo : m.Memo first)
  (account : m.Account first n.id h) (onward : m.Onward g first n.id h) (bygone : m.Bygone g first)
  (sent : m.Sent first p)
include honours

theorem firing_closed (firing : m.firing n.id k ≠ []) : (m.cell n.id).queue.closed = true := by
  obtain ⟨port, member⟩ := List.exists_mem_of_ne_nil _ firing
  have fired : port ∈ latePorts n.id k p := by
    rw [honours.late k]
    exact List.mem_append_right _ member
  exact honours.lateClosed (mem_latePorts fired)

theorem routed_of_done (f : TaskId) (fans : m.Fans first f n.id) (done : m.isDone f = true) :
    (queuedPorts n.id p).map n.targets = roundsOf n.id p := by
  obtain ⟨recent, j, rounds, waiting, there⟩ := fans
  simp only [isDone, there] at done
  cases rounds with
  | cons => cases waiting <;> cases done
  | nil => rw [honours.left recent there, List.append_nil]

include account onward

theorem routed_of_settled (done : ∀ (k : TaskId) (task : Task), first ≤ k →
      m.tasks[k]? = some task → task.isDone = true) :
    (queuedPorts n.id p).map n.targets = roundsOf n.id p := by
  by_cases some : queuedPorts n.id p = []
  · -- A round is started by a fan-out, and what a fan-out starts was queued.
    rw [some, List.map_nil]
    refine (List.eq_nil_iff_forall_not_mem.2 fun targets member => ?_).symm
    obtain ⟨f, _, started⟩ := mem_roundsOf member
    obtain ⟨recent, _, _, _, there⟩ := honours.started started
    have left := honours.left recent there
    rw [some, List.map_nil] at left
    rw [(List.append_eq_nil_iff.1 left.symm).1] at member
    cases member
  · obtain ⟨k, i, invoked⟩ := honours.invoked some
    obtain ⟨recent, _, stage, ⟨began, there⟩, called, wrote⟩ := account.invoker invoked
    obtain ⟨d, rfl⟩ := Task.answered (done k _ recent there)
    obtain ⟨_, stored⟩ := wrote rfl
    obtain ⟨f, branched⟩ := account.passed stored ⟨began, there⟩
    obtain ⟨later, _, _, _, stands⟩ := onward.behind branched
    refine honours.routed_of_done f (onward.behind branched) ?_
    simp [isDone, stands, done f _ later stands]

include memo bygone

/-- What a step routes comes from a fire after the queue was closed, or from the fan-out. -/
theorem result_of_starts {v : Move} {deed : PortDeed} (member : deed ∈ m.ports g v)
    (mine : deed.node = n.id) (starts : deed.starts = true) :
    ∃ d, (m.cell n.id).result = some d := by
  obtain none | ⟨t, r, work, work', e, here, rule, same⟩ := m.ports_cases (g := g) v
  · rw [none] at member
    cases member
  rw [same] at member
  refine onward.result_of_closed account memo ?_
  cases deed with
  | accepted => cases starts
  | routed id k port targets calls =>
      cases mine
      obtain rfl : k = t := workPorts_task member
      refine honours.firing_closed (k := k) ?_
      simp [Machine.firing, here, (of_routed member).1]
  | round id k targets calls =>
      cases mine
      obtain none | ⟨targets', rest, rfl, rfl, -⟩ := rule.rounds n.id
      · have started : targets ∈ roundsOf n.id (m.workPorts g t work) :=
          List.mem_filterMap.2 ⟨_, member, by simp [PortDeed.round?]⟩
        rw [none] at started
        cases started
      · exact onward.fans (bygone.fans here rule)

include sent
omit onward

/-- There is one fan-out, and it goes on to the next port only when it waits for nothing. -/
theorem result_of_round (here : m.tasks[t]? = some ⟨r, work⟩)
    (rule : Transition g m t r work work' e) (next : roundsOf n.id (m.workPorts g t work) ≠ [])
    {targets : List NodeId} (member : targets ∈ roundsOf n.id p) {x : NodeId}
    (target : x ∈ targets) : ∃ d, (m.cell x).result = some d := by
  obtain none | ⟨targets', rest, rfl, rfl, -⟩ := rule.rounds n.id
  · exact absurd none next
  · obtain ⟨f, calls, started⟩ := mem_roundsOf member
    obtain ⟨recent, _, _, _, there⟩ := honours.started started
    obtain ⟨earlier, _, _, _, mine⟩ := bygone.fans here rule
    obtain ⟨_, one⟩ := account.fanOut recent there
    obtain ⟨_, two⟩ := account.fanOut earlier mine
    obtain ⟨-, rfl⟩ := account.branched_unique one two
    exact (sent.awaited started here x target).result memo rfl

theorem result_of_next {v : Move} (next : roundsOf n.id (m.ports g v) ≠ []) {targets : List NodeId}
    (member : targets ∈ roundsOf n.id p) {x : NodeId} (target : x ∈ targets) :
    ∃ d, (m.cell x).result = some d := by
  obtain none | ⟨t, r, work, work', e, here, rule, same⟩ := m.ports_cases (g := g) v
  · rw [none] at next
    exact absurd rfl next
  rw [same] at next
  exact honours.result_of_round memo account bygone sent here rule next member target

omit account bygone in
theorem result_of_late {k : TaskId} {task : Task} (there : m.tasks[k]? = some task)
    (quiet : task.work.firing n.id = []) (idle : task.work.awaiting = []) {port : String}
    (member : port ∈ latePorts n.id k p) {x : NodeId} (target : x ∈ n.targets port) :
    ∃ d, (m.cell x).result = some d := by
  have firing : m.firing n.id k = [] := by simp [Machine.firing, there, quiet]
  rw [honours.late k, firing, List.append_nil] at member
  obtain ⟨targets, calls, routed⟩ := mem_routedPorts member
  cases honours.routed routed
  have awaited := sent.awaited routed there x target
  rw [idle] at awaited
  exact awaited.result memo rfl

omit honours memo account sent in
/-- When the run is done, nothing is about to be routed. -/
theorem firing_of_settled (done : ∀ (k : TaskId) (task : Task), first ≤ k →
      m.tasks[k]? = some task → task.isDone = true) (k : TaskId) : m.firing n.id k = [] := by
  unfold Machine.firing
  cases there : m.tasks[k]? with
  | none => rfl
  | some task =>
      by_cases past : k < first
      · obtain through | harmless := bygone k task past there
        · exact Task.firing_of_done through
        · exact harmless.firing
      · exact Task.firing_of_done (done k task (Nat.le_of_not_lt past) there)

omit memo account bygone sent in
/-- The rounds are started in the order in which the ports were queued. -/
theorem rounds_in_order : roundsOf n.id p <+: (queuedPorts n.id p).map n.targets := by
  by_cases some : roundsOf n.id p = []
  · rw [some]
    exact List.nil_prefix
  · obtain ⟨targets, member⟩ := List.exists_mem_of_ne_nil _ some
    obtain ⟨f, _, started⟩ := mem_roundsOf member
    obtain ⟨recent, _, rounds, _, there⟩ := honours.started started
    exact ⟨rounds, (honours.left recent there).symm⟩

include onward in
theorem honoured : m.Honoured g n first p where
  queued := honours.rounds_in_order.imp fun _ => Eq.symm
  late := honours.late
  targets k port targets calls := honours.routed
  calls deed := sent.calls
  stored _ _ := honours.result_of_starts memo account onward bygone
  ordered _ next _ member _ := honours.result_of_next memo account bygone sent next member
  returned _ _ there quiet idle _ member _ :=
    honours.result_of_late memo sent there quiet idle member
  through := honours.routed_of_done
  settled done := by
    refine ⟨honours.routed_of_settled account onward done, fun k => ?_⟩
    rw [honours.late k, firing_of_settled bygone done, List.append_nil]

end Honours

/-- A fire that is refused gives its error to the program that fired, and nothing else happens. -/
theorem step_refused {port : String} {next : Except GraphError Unit → Program}
    (known : g.node? n.id = some n) (here : m.tasks[t]? = some ⟨r, work⟩)
    (program : work.program? = some (n.id, .active (.fire port next)))
    (refused : n.isPortDriven = false ∨ port ∉ n.ports) :
    let error : GraphError := if n.isPortDriven then .unknownPort n.id port else .portless n.id
    ∃ work', m.step g t = some (m.setWork t work') ∧
      work'.program? = some (n.id, .active (next (.error error))) ∧ m.ports g (.step t) = [] := by
  have executed : m.stepExecution r n (.active (.fire port next)) = some (.active (next (.error
      (if n.isPortDriven then .unknownPort n.id port else .portless n.id))), m) := by
    cases driven : n.isPortDriven with
    | false => simp [stepExecution, driven]
    | true =>
        have undeclared : port ∉ n.ports := refused.resolve_left (by simp [driven])
        simp [stepExecution, driven, undeclared]
  have quiet : m.executionPorts t n (.active (.fire port next)) = [] := by
    simp only [executionPorts, ite_eq_right_iff]
    rintro ⟨driven, declared⟩
    obtain plain | undeclared := refused
    · cases plain.symm.trans driven
    · exact absurd declared undeclared
  cases work with
  | call id began stage =>
      cases stage with
      | run received x =>
          cases program
          have stepped : m.step g t = some (m.setWork t (.call n.id began (.run received
              (.active (next (.error (if n.isPortDriven then .unknownPort n.id port
                else .portless n.id))))))) := by
            simp [step, here, known, stepCall, executed, beganAfter]
          refine ⟨_, stepped, rfl, ?_⟩
          rw [ports_of_step here stepped]
          simp only [workPorts, known, quiet]
      | _ => cases program
  | aside id x =>
      cases program
      have stepped : m.step g t = some (m.setWork t (.aside n.id
          (.active (next (.error (if n.isPortDriven then .unknownPort n.id port
            else .portless n.id)))))) := by
        simp [step, here, known, executed]
      refine ⟨_, stepped, rfl, ?_⟩
      rw [ports_of_step here stepped]
      simp only [workPorts, known, quiet]
  | _ => cases program

section Begin

variable (execution : ExecutionId) (inputs : RunInputs) (requests : List Request)

theorem AtRest.bygone (rest : m.AtRest g) :
    (m.begin g execution inputs requests).Bygone g m.nextTask := by
  intro k task past there
  rw [tasks_begin, if_pos past] at there
  exact rest.done k task there

theorem AtRest.honours (rest : m.AtRest g) :
    (m.begin g execution inputs requests).Honours g n m.nextTask [] [] := by
  -- Nobody of an earlier run is about to route a port, and no request is.
  have idle (k : TaskId) (task : Task)
      (there : (m.begin g execution inputs requests).tasks[k]? = some task) :
      task.work.firing n.id = [] ∧
        ∀ x, task.work.program? = some (n.id, x) → (Work.aside n.id x).Harmless g := by
    rw [tasks_begin] at there
    split at there
    · obtain done | harmless := rest.done k task there
      · exact ⟨Task.firing_of_done done, fun x => Task.harmless_of_done done⟩
      · exact ⟨harmless.firing, fun x => harmless.program⟩
    · obtain ⟨request, -, rfl⟩ := List.mem_map.1 (List.mem_of_getElem? there)
      cases request <;> exact ⟨rfl, nofun⟩
  refine ⟨rfl, fun recent there => absurd ⟨recent, _, _, _, there⟩ not_fans_begin, nofun,
    fun k => ?_, nofun, nofun, fun there program => .inl ((idle _ _ there).2 _ program),
    fun some => absurd rfl some⟩
  unfold firing
  cases there : (m.begin g execution inputs requests).tasks[k]? with
  | none => rfl
  | some task => exact (idle k task there).1.symm

end Begin

/-- All that is kept of the fires of a node with ports in the course of a run. -/
structure Routing (g : Graph) (n : Node) (first : TaskId) (h : List Deed) (p : List PortDeed)
    (m : Machine) : Prop where
  memo : m.Memo first
  account : m.Account first n.id h
  onward : m.Onward g first n.id h
  bygone : m.Bygone g first
  sent : m.Sent first p
  honours : m.Honours g n first h p

theorem Routing.step (routing : m.Routing g n first h p) (known : g.node? n.id = some n)
    (driven : n.isPortDriven = true) (here : m.tasks[t]? = some ⟨r, work⟩)
    (rule : Transition g m t r work work' e) (after : After m t r work' e m') :
    m'.Routing g n first (h ++ e.deeds) (p ++ m.workPorts g t work) := by
  obtain ⟨memo, account, onward, bygone, sent, honours⟩ := routing
  exact ⟨memo.step here rule after, account.step memo here rule after,
    onward.step account memo here rule after, bygone.step memo here rule after,
    sent.step memo here rule after,
    honours.step account onward bygone known driven here rule after⟩

theorem Routing.tick (routing : m.Routing g n first h p) (now : Instant) :
    Routing g n first h p { m with now := now } := by
  obtain ⟨memo, account, onward, bygone, sent, honours⟩ := routing
  exact ⟨{ memo with }, { account with }, { onward with }, bygone, { sent with },
    { honours with }⟩

theorem AtRest.routing (rest : m.AtRest g) (execution : ExecutionId) (inputs : RunInputs)
    (requests : List Request) :
    (m.begin g execution inputs requests).Routing g n m.nextTask [] [] :=
  ⟨rest.unoccupied.memo execution inputs requests,
    rest.unoccupied.account execution inputs requests,
    rest.unoccupied.onward execution inputs requests, rest.bygone execution inputs requests,
    ⟨nofun, nofun, nofun⟩, rest.honours execution inputs requests⟩

theorem AtRest.routing_exec (rest : m.AtRest g) (execution : ExecutionId) (inputs : RunInputs)
    (requests : List Request) (schedule : List Move) (known : g.node? n.id = some n)
    (driven : n.isPortDriven = true) :
    let start := m.begin g execution inputs requests
    (start.exec g schedule).Routing g n m.nextTask (start.history g schedule)
      (start.portHistory g schedule) :=
  port_induction (fun _ _ _ _ _ _ _ _ _ routing => routing.step known driven)
    (fun _ _ _ now routing => routing.tick now) schedule [] [] _
    (rest.routing execution inputs requests)

/-- **Every fire is honoured.**  In every run that starts on a graph at rest, with whatever is asked
of it and in whatever order its tasks take their steps, and at every moment of it: a fire of a port
that the node does not have gives its error and does nothing else, and what a node with ports
accepts is routed, once, in order, and not before it may. -/
theorem every_fire_is_honoured (rest : m.AtRest g) (execution : ExecutionId) (inputs : RunInputs)
    (requests : List Request) (schedule : List Move) (known : g.node? n.id = some n) :
    let start := m.begin g execution inputs requests
    let now := start.exec g schedule
    (∀ t r work port next, now.tasks[t]? = some ⟨r, work⟩ →
      work.program? = some (n.id, .active (.fire port next)) →
      n.isPortDriven = false ∨ port ∉ n.ports →
      let error : GraphError := if n.isPortDriven then .unknownPort n.id port else .portless n.id
      ∃ work', now.step g t = some (now.setWork t work') ∧
        work'.program? = some (n.id, .active (next (.error error))) ∧ now.ports g (.step t) = []) ∧
    (n.isPortDriven = true →
      now.Honoured g n m.nextTask (start.portHistory g schedule)) := by
  intro start now
  refine ⟨fun t r work port next here program refused => step_refused known here program refused,
    fun driven => ?_⟩
  obtain ⟨memo, account, onward, bygone, sent, honours⟩ :=
    rest.routing_exec execution inputs requests schedule known driven
  exact honours.honoured memo account onward bygone sent

end Machine

/-! ## A port that is fired twice -/

namespace Sample

/-- A function that fires `y` and `x`, and leaves work behind that fires `y` again. -/
def repeater : Function :=
  .scripted ⟨"repeat", "", Signature.generalCategory, [⟨"flow", .flow⟩], ["x", "y"]⟩
    [.fireLater "y", .fire "y", .fire "x"]

/-- The entry `1` goes to `2`, whose port `x` leads to `3` and whose port `y` to `4`. -/
def fork : Workflow where
  id := ⟨103⟩
  name := "fork"
  description := none
  nodes := [.new ⟨1⟩ startKey, .new ⟨2⟩ "repeat", .new ⟨3⟩ "plain", .new ⟨4⟩ "plain"]
  connections := [⟨⟨1⟩, none, ⟨2⟩⟩, ⟨⟨2⟩, some "x", ⟨3⟩⟩, ⟨⟨2⟩, some "y", ⟨4⟩⟩]

def forkGraph : Graph :=
  (Graph.build fork (.ofList [.start, repeater, plain]) .standard).toOption.get (by decide +kernel)

/-- The work that is left behind, the task `7`, goes on when all else is through. -/
def patient : List Machine.Move :=
  (turns 60 14).filter (· ≠ .step 7) ++ turns 8 14

end Sample

namespace Machine

open Sample

/-- A whole run of the fork, before anything moves. -/
def forkRun : Machine := (new epoch).launched forkGraph ⟨7⟩ .empty

/-- What the function fires is queued and routed in its order; what its work fires later is routed
at once. -/
theorem fork_honoured :
    (new epoch).AtRest forkGraph ∧ (∃ n, forkGraph.node? n.id = some n ∧ n.isPortDriven = true ∧
      (forkRun.exec forkGraph patient).Honoured forkGraph n 0
        (forkRun.portHistory forkGraph patient)) ∧
    roundsOf ⟨2⟩ (forkRun.portHistory forkGraph patient) = [[⟨4⟩], [⟨3⟩]] ∧
    routedPorts ⟨2⟩ 7 (forkRun.portHistory forkGraph patient) = ["y"] := by
  have rest := atRest_new forkGraph epoch
  have there : (forkGraph.node? ⟨2⟩).isSome = true := by decide +kernel
  obtain ⟨n, known⟩ := Option.isSome_iff_exists.1 there
  have name := Graph.id_of_node? known
  have driven : (forkGraph.node? ⟨2⟩).map Node.isPortDriven = some true := by decide +kernel
  rw [known] at driven
  have ported : n.isPortDriven = true := Option.some.inj driven
  have named : forkGraph.node? n.id = some n := name ▸ known
  exact ⟨rest, ⟨n, named, ported,
    (every_fire_is_honoured rest ⟨7⟩ .empty [.launch] patient named).2 ported⟩,
    by decide +kernel, by decide +kernel⟩

end Machine
end Flowgraph
