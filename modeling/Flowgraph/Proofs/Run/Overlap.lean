/- # Flowgraph.Proofs.Run.Overlap -- runs that overlap on one graph

A run is over for its caller as soon as it is not asked for anything any more.  What its nodes
have started goes on all the same, and the next run may start meanwhile: it resets the nodes, but
the tasks of the earlier run stay, and they write to the same nodes (`leftover_reaches_next_run`).

That is all that can go wrong.  A run `Involves` itself and the runs that have work left when it
starts.  Only tasks of these change a node while it goes on, only their calls store the results
that can be read, and every call binds its parameters against the shared document and the context
of the run that it belongs to (`only_unfinished_runs_interfere`).  So the nodes belong to a run
alone if nothing of the runs before it is at work when it starts.
-/
import Flowgraph.Proofs.Run.Faithful
import Flowgraph.Proofs.Run.Presence
import Flowgraph.Proofs.Run.Session

set_option autoImplicit false

namespace Flowgraph

namespace Machine

variable {g : Graph} {past m m' : Machine} {t k : TaskId} {r j : RunId} {n : Node} {id : NodeId}
  {began : Instant} {stage stage' : Stage} {work work' : Work} {e : Effect} {d : Document}
  {h : List Deed} {i : Invocation}

/-- A task of the run has work left. -/
def Unfinished (m : Machine) (j : RunId) : Prop :=
  ∃ (t : TaskId) (task : Task), m.tasks[t]? = some task ∧ task.run = j ∧ task.isDone = false

/-- The run that starts next on a machine involves itself and those that have work left there. -/
def Involves (past : Machine) (j : RunId) : Prop := j = past.nextRun ∨ past.Unfinished j

/-! ## Contexts -/

/-- A step changes neither the execution of its run nor the inputs. -/
theorem Transition.context (rule : Transition g m t r work work' e) (run : RunRecord) :
    (e.run run).execution = run.execution ∧ (e.run run).shared.inputs = run.shared.inputs := by
  refine ⟨rule.execution run, ?_⟩
  obtain ⟨same, -⟩ | ⟨c, -, changed⟩ := rule.shared run
  · rw [same]
  · rw [changed, Shared.answer_inputs]

/-- The invocation of a node is bound as the run `j` has it: against a shared document that holds
what this run was given, and with its context. -/
def BoundIn (g : Graph) (m : Machine) (j : RunId) (id : NodeId) (i : Invocation) : Prop :=
  ∃ n run seen received scope, g.node? id = some n ∧ m.run? j = some run ∧
    Shared.Seeded run.shared.inputs seen ∧ inputScope seen.document received = .ok scope ∧
    n.bind g.evaluator (contextOf run n) scope = .ok i

/-- The shared document of every run holds what the run was given, and a scope that was taken is
one of a shared document of the run of its call. -/
structure Grounded (m : Machine) : Prop where
  seeded : ∀ {j run}, m.run? j = some run → run.shared.Seeded run.shared.inputs
  bound : ∀ {j k id received scope}, m.Calling j k id (.record received scope) →
    ∃ run seen, m.run? j = some run ∧ Shared.Seeded run.shared.inputs seen ∧
      inputScope seen.document received = .ok scope

section Step

variable (rule : Transition g m t r work work' e)
  (after : After m t r work' e m')
include rule after

/-- A run keeps its execution and its inputs. -/
theorem After.running {run : RunRecord} (running : m.run? j = some run) :
    ∃ run', m'.run? j = some run' ∧ run'.execution = run.execution ∧
      run'.shared.inputs = run.shared.inputs := by
  rw [after.run, running]
  by_cases mine : j = r
  · rw [if_pos mine]
    exact ⟨_, rfl, rule.context run⟩
  · rw [if_neg mine]
    exact ⟨run, rfl, rfl, rfl⟩

theorem BoundIn.step (bound : BoundIn g m j id i) : BoundIn g m' j id i := by
  obtain ⟨n, run, seen, received, scope, known, running, seeded, taken, bound⟩ := bound
  obtain ⟨run', running', execution, inputs⟩ := after.running rule running
  have context : contextOf run' n = contextOf run n := by
    rw [contextOf, contextOf, execution, inputs]
  exact ⟨n, run', seen, received, scope, known, running', inputs ▸ seeded, taken, context ▸ bound⟩

theorem Grounded.step (grounded : m.Grounded) : m'.Grounded where
  seeded := by
    intro j run running
    rw [after.run] at running
    split at running
    · obtain ⟨old, there, rfl⟩ := Option.map_eq_some_iff.1 running
      rw [(rule.context old).2]
      exact rule.seeded (grounded.seeded there)
    · exact grounded.seeded running
  bound := by
    intro j k id received scope calling
    have kept : (∃ run seen, m.run? j = some run ∧ Shared.Seeded run.shared.inputs seen ∧
        inputScope seen.document received = .ok scope) →
        ∃ run seen, m'.run? j = some run ∧ Shared.Seeded run.shared.inputs seen ∧
          inputScope seen.document received = .ok scope := by
      rintro ⟨run, seen, running, seeded, taken⟩
      obtain ⟨run', running', -, inputs⟩ := after.running rule running
      exact ⟨run', seen, running', inputs ▸ seeded, taken⟩
    obtain ⟨rfl, rfl, began, rfl⟩ | ⟨-, there⟩ | ⟨-, new, -⟩ := after.calling_cases rule calling
    · cases rule with
      | call known step =>
          cases step with
          | scope running taken => exact kept ⟨_, _, running, grounded.seeded running, taken⟩
    · exact kept (grounded.bound there)
    · cases new

end Step

/-- A run that starts is added to those that are there. -/
theorem run?_begin_cases {execution : ExecutionId} {inputs : RunInputs} {requests : List Request}
    {run : RunRecord} (running : (m.begin g execution inputs requests).run? j = some run) :
    m.run? j = some run ∨ run = ⟨execution, m.now, .start inputs, []⟩ := by
  have runs : (m.begin g execution inputs requests).runs =
    m.runs ++ [⟨execution, m.now, .start inputs, []⟩] := rfl
  rw [run?, runs] at running
  by_cases old : j < m.runs.length
  · exact .inl ((List.getElem?_append_left old).symm.trans running)
  · rw [List.getElem?_append_right (Nat.le_of_not_lt old)] at running
    exact .inr (List.mem_singleton.1 (List.mem_of_getElem? running))

theorem Grounded.begin (grounded : m.Grounded) (execution : ExecutionId) (inputs : RunInputs)
    (requests : List Request) : (m.begin g execution inputs requests).Grounded where
  seeded := by
    intro j run running
    obtain old | rfl := run?_begin_cases running
    · exact grounded.seeded old
    · exact Shared.seeded_start inputs
  bound := by
    intro j k id received scope calling
    obtain ⟨-, there⟩ | ⟨-, made⟩ := calling_begin calling
    · obtain ⟨run, seen, running, rest⟩ := grounded.bound there
      refine ⟨run, seen, ?_, rest⟩
      exact (List.getElem?_append_left (List.getElem?_eq_some_iff.1 running).1).trans running
    · cases made

theorem grounded_session (now : Instant) (acts : List Act) : (session g now acts).Grounded :=
  session_induction (fun _ execution inputs requests grounded =>
      grounded.begin execution inputs requests)
    (fun _ _ _ _ _ _ _ grounded _ rule after => grounded.step rule after)
    (fun _ _ grounded => { grounded with })
    ⟨nofun, by rintro _ _ _ _ _ ⟨_, here⟩; simp [new] at here⟩ acts

/-! ## Who has a hand in a run -/

/-- What is at work, what was called and what was stored since a run started on the machine `past`
is of the runs that it involves; and a result that is there was stored since. -/
structure Confines (past : Machine) (g : Graph) (h : List Deed) (m : Machine) : Prop where
  working : ∀ {t : TaskId} {task : Task}, m.tasks[t]? = some task → task.isDone = false →
    past.Involves task.run
  invoked : ∀ {id k i}, .invoked id k i ∈ h →
    ∃ j stage, m.Calling j k id stage ∧ past.Involves j ∧ BoundIn g m j id i
  stored : ∀ {id k d}, .stored id k d ∈ h → ∃ j stage, m.Calling j k id stage ∧ past.Involves j
  result : ∀ {id d}, (m.cell id).result = some d → ∃ k, .stored id k d ∈ h

namespace Confines

variable (confines : past.Confines g h m) (here : m.tasks[t]? = some ⟨r, work⟩)
  (rule : Transition g m t r work work' e) (after : After m t r work' e m')
include confines here rule

theorem involves : past.Involves r := confines.working here rule.not_done

include after

theorem step_working {task : Task} (there : m'.tasks[k]? = some task)
    (undone : task.isDone = false) : past.Involves task.run := by
  obtain ⟨-, rfl⟩ | ⟨-, before, was, rfl⟩ | ⟨-, new⟩ := after.cases there
  · exact confines.involves here rule
  · rw [Task.isDone_granted] at undone
    rw [Task.granted_run]
    exact confines.working was undone
  · cases rule.spawnedAt new <;> exact confines.involves here rule

theorem step_invoked (grounded : m.Grounded) (deed : .invoked id k i ∈ h ++ e.deeds) :
    ∃ j stage, m'.Calling j k id stage ∧ past.Involves j ∧ BoundIn g m' j id i := by
  obtain old | new := List.mem_append.1 deed
  · obtain ⟨j, stage, calling, involved, bound⟩ := confines.invoked old
    obtain ⟨stage', stands⟩ := calling.still here rule after
    exact ⟨j, stage', stands, involved, bound.step rule after⟩
  · obtain ⟨rfl, began, began', received, scope, x, rfl, rfl⟩ := rule.of_invoked new
    have bound : BoundIn g m r id i := by
      obtain ⟨run, seen, running, seeded, taken⟩ := grounded.bound ⟨began, here⟩
      cases rule with
      | call known step =>
          cases step with
          | invoke running' bound =>
              cases running.symm.trans running'
              cases List.mem_singleton.1 new
              exact ⟨_, run, seen, received, scope, known, running, seeded, taken, bound⟩
    exact ⟨r, _, ⟨began', after.here⟩, confines.involves here rule, bound.step rule after⟩

theorem step_stored (deed : .stored id k d ∈ h ++ e.deeds) :
    ∃ j stage, m'.Calling j k id stage ∧ past.Involves j := by
  obtain old | new := List.mem_append.1 deed
  · obtain ⟨j, stage, calling, involved⟩ := confines.stored old
    obtain ⟨stage', stands⟩ := calling.still here rule after
    exact ⟨j, stage', stands, involved⟩
  · obtain ⟨rfl, began, began', -, rfl⟩ := rule.of_stored new
    exact ⟨r, _, ⟨began', after.here⟩, confines.involves here rule⟩

theorem step (grounded : m.Grounded) : past.Confines g (h ++ e.deeds) m' where
  working := confines.step_working here rule after
  invoked := confines.step_invoked here rule after grounded
  stored := confines.step_stored here rule after
  result := after.stored_of_result rule confines.result

end Confines

theorem confines_begin (past : Machine) (execution : ExecutionId) (inputs : RunInputs)
    (requests : List Request) : past.Confines g [] (past.begin g execution inputs requests) where
  working := by
    intro t task here undone
    obtain ⟨-, there⟩ | ⟨-, q, -, rfl⟩ := begun_task here
    · exact .inr ⟨t, task, there, rfl, undone⟩
    · exact .inl rfl
  invoked := nofun
  stored := nofun
  result := by
    intro id d has
    rw [cell_begin] at has
    cases has

/-- A move that changes a node is a step of a task of a run that is involved. -/
theorem Confines.changes (confines : past.Confines g h m) {v : Move}
    (changed : (m.move g v).cell id ≠ m.cell id) :
    ∃ t task, v = .step t ∧ m.tasks[t]? = some task ∧ past.Involves task.run := by
  cases v with
  | tick now => exact absurd rfl changed
  | step t =>
      cases stepped : m.step g t with
      | none => simp [move, stepped] at changed
      | some m' =>
          obtain ⟨r, work, work', e, here, rule, -, -⟩ := step_cases stepped
          exact ⟨t, _, rfl, here, confines.involves here rule⟩

/-- What holds of the nodes since a run started on the machine `past` if only the runs that `own`
tells have a hand in them: they alone change a node, their calls store what can be read, and each
call is bound as its own run has it. -/
structure OwnedBy (own : RunId → Prop) (g : Graph) (h : List Deed) (m : Machine) : Prop where
  changes : ∀ v id, (m.move g v).cell id ≠ m.cell id →
    ∃ t task, v = .step t ∧ m.tasks[t]? = some task ∧ own task.run
  results : ∀ id d, (m.cell id).result = some d →
    ∃ k j stage, .stored id k d ∈ h ∧ m.Calling j k id stage ∧ own j
  calls : ∀ id k i, .invoked id k i ∈ h →
    ∃ j stage, m.Calling j k id stage ∧ own j ∧ BoundIn g m j id i

/-- **Only unfinished runs interfere.**  Take any session on a graph, whether its runs came to
their end or not, and start another run.  However it goes on, its nodes are owned by the runs that
it involves: itself, and those that had work left when it started. -/
theorem only_unfinished_runs_interfere (now : Instant) (acts : List Act) (execution : ExecutionId)
    (inputs : RunInputs) (requests : List Request) (schedule : List Move) :
    let past := session g now acts
    let start := past.begin g execution inputs requests
    OwnedBy past.Involves g (start.history g schedule) (start.exec g schedule) := by
  intro past start
  obtain ⟨-, confines⟩ : (start.exec g schedule).Grounded ∧
      past.Confines g (start.history g schedule) (start.exec g schedule) := by
    refine run_induction (P := fun h m => m.Grounded ∧ past.Confines g h m) schedule ?_ ?_
      ⟨(grounded_session now acts).begin execution inputs requests,
        confines_begin past execution inputs requests⟩
    · rintro h m t r work work' e m' ⟨grounded, confines⟩ here rule after
      exact ⟨grounded.step rule after, confines.step here rule after grounded⟩
    · rintro h m now - ⟨grounded, confines⟩
      exact ⟨{ grounded with }, { confines with }⟩
  refine ⟨fun v id => confines.changes, fun id d has => ?_, fun id k i => confines.invoked⟩
  obtain ⟨k, stored⟩ := confines.result has
  obtain ⟨j, stage, calling, involved⟩ := confines.stored stored
  exact ⟨k, j, stage, stored, calling, involved⟩

end Machine

/-! ## Work that reaches the next run -/

namespace Sample

/-- A function that tells a parameter of its run. -/
def tell : Function :=
  .scripted ⟨"tell", "", Signature.generalCategory, [⟨"context", .context⟩], []⟩
    [.answer (.parameter "who")]

/-- The node `1` leads to `2`. -/
def relay : Workflow where
  id := ⟨107⟩
  name := "relay"
  description := none
  nodes := [.new ⟨1⟩ "plain", .new ⟨2⟩ "tell"]
  connections := [⟨⟨1⟩, none, ⟨2⟩⟩]

def relayGraph : Graph :=
  (Graph.build relay (.ofList [plain, tell]) .standard).toOption.get (by decide +kernel)

def naming (who : String) : RunInputs := ⟨[("who", .str who)], [], .empty⟩

/-- What the second node of the relay tells in a run. -/
def told (who : String) : Document := ⟨.obj [("output", .obj [("result", .str who)])]⟩

end Sample

namespace Machine

open Sample

/-- The first node of the relay is asked for.  When the answer is there, the fan-out of the node,
the task `1`, goes on, and the task `2` is about to store the result of the second node. -/
def relayPast : List Act :=
  .start ⟨7⟩ (naming "first") [.result ⟨1⟩] ::
    (strides [(17, 0), (1, 1), (7, 2), (1, 3), (5, 2)]).map .move

/-- The next run on the relay asks for the second node. -/
def relayStart : Machine :=
  (session relayGraph epoch relayPast).begin relayGraph ⟨8⟩ (naming "second") [.result ⟨2⟩]

/-- A deed that is a result stored by this task. -/
def storedBy (t : TaskId) : Deed → Bool
  | .stored _ k _ => k == t
  | _ => false

/-- A run is over, the next one starts, and then a task of the earlier run stores a result.  The
later run is given this result, which tells what the earlier one was called with. -/
theorem leftover_reaches_next_run :
    let past := session relayGraph epoch relayPast
    let schedule := [.step 2, .step 4]
    let after := relayStart.exec relayGraph schedule
    past.isDone 0 = true ∧ past.nextRun = 1 ∧
    ¬ OwnedBy (· = past.nextRun) relayGraph (relayStart.history relayGraph schedule) after ∧
    after.tasks[2]?.map Task.run = some 0 ∧ after.tasks[4]?.map Task.run = some 1 ∧
    (after.run? 1).map (fun run => run.shared.inputs) = some (naming "second") ∧
    after.resultOf? 4 = some (told "first") := by
  have next : (session relayGraph epoch relayPast).nextRun = 1 := by decide +kernel
  have earlier : (relayStart.exec relayGraph [.step 2, .step 4]).tasks[2]?.map Task.run =
      some 0 := by decide +kernel
  have storers : (relayStart.history relayGraph [.step 2, .step 4]).all (storedBy 2) = true := by
    decide +kernel
  refine ⟨by decide +kernel, next, fun owned => ?_, earlier, by decide +kernel,
    by decide +kernel, by decide +kernel⟩
  obtain ⟨k, j, stage, stored, ⟨began, here⟩, own⟩ :=
    owned.results ⟨2⟩ (told "first") (by decide +kernel)
  obtain rfl : k = 2 := by simpa [storedBy] using List.all_eq_true.1 storers _ stored
  rw [here] at earlier
  cases (own.trans next).symm.trans (Option.some.inj earlier)

end Machine
end Flowgraph
