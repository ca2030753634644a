/- # Flowgraph.Proofs.Run.Once -- no node runs twice in a run

What the history of a run tells of one node (`RunsOnce`).  Its function is called at most
once, its result is written at most once and stays, every caller gets that result, and
what lies behind it is started at most once: by the task that wrote the result, before
that task is done, as one fan-out task with all that it has to call.

The parts are put together here: `Account` keeps the deeds apart, `Memo` the result that
callers know, and `Onward` what becomes of the ports and of the fan-out.
-/
import Flowgraph.Function.Script
import Flowgraph.Function.Flow
import Flowgraph.Proofs.Run.FanOut

set_option autoImplicit false

namespace Flowgraph

namespace Machine

variable {g : Graph} {m m' : Machine} {t k f : TaskId} {r j : RunId} {n : Node} {id : NodeId}
  {stage : Stage} {d : Document}

/-! ## At most once -/

/-- What it is for a node to run at most once in a run whose tasks are numbered from
`first`, by the history `h` of the run and the machine `m` after it. -/
structure RunsOnce (g : Graph) (first : TaskId) (id : NodeId) (h : List Deed) (m : Machine) :
    Prop where
  invoked : h.countP (Deed.invokes id) ≤ 1
  stored : h.countP (Deed.stores id) ≤ 1
  branched : h.countP (Deed.branches id) ≤ 1
  /-- The result is the one that was written. -/
  result : ∀ d, (m.cell id).result = some d ↔ ∃ t, .stored id t d ∈ h
  /-- Every caller that has an answer has the result. -/
  answer : ∀ r t d, first ≤ t → m.Calling r t id (.done d) → (m.cell id).result = some d
  /-- The task that calls the function is the one that writes the result. -/
  executor : ∀ t i t' d, .invoked id t i ∈ h → .stored id t' d ∈ h → t = t'
  /-- What lies behind the node is started by the task that wrote the result. -/
  brancher : ∀ t f, .branched id t f ∈ h → ∃ d, .stored id t d ∈ h
  /-- The task that wrote the result is not done before that. -/
  passed : ∀ t d, .stored id t d ∈ h → m.isDone t = true → ∃ f, .branched id t f ∈ h
  /-- It is started as a fan-out task `f`, in the run of the task that wrote the result, with all
  downstream nodes, or with the targets of each port that waited in the queue; of these nothing is
  left out, and each target is called by a task of its own. -/
  spawned : ∀ t f, .branched id t f ∈ h → first ≤ f ∧ ∃ n r d, g.node? id = some n ∧
    m.Calling r t id (.done d) ∧ m.FannedOut r f id
      (if n.isPortDriven then (queuedFires id h).map n.targets else [n.downstream])
  /-- No other task starts what lies behind the node. -/
  fanOut : ∀ r f rounds waiting, first ≤ f →
    m.tasks[f]? = some ⟨r, .fanOut id rounds waiting⟩ → ∃ t, .branched id t f ∈ h

theorem Account.runsOnce {first : TaskId} {h : List Deed} (account : m.Account first id h)
    (memo : m.Memo first) (onward : m.Onward g first id h) : RunsOnce g first id h m where
  invoked := account.invoked
  stored := account.stored
  branched := account.branched
  result d := ⟨account.result, fun ⟨_, stored⟩ => account.result_of_stored memo stored⟩
  answer r t d recent done := memo.known recent done rfl
  executor t i t' d invoked stored := account.executor memo invoked stored
  brancher t f branched := by
    obtain ⟨d, -, stored, -⟩ := account.brancher branched
    exact ⟨d, stored⟩
  passed t d stored done := by
    obtain ⟨-, r, stage, ⟨began, there⟩, -⟩ := account.storer stored
    simp only [isDone, there] at done
    cases stage with
    | done d' => exact account.passed stored ⟨began, there⟩
    | _ => cases done
  spawned t f branched := onward.fanned branched
  fanOut r f rounds waiting recent here := account.fanOut recent here

/-- Every node is accounted for, however the run goes on. -/
theorem Unoccupied.account_exec (unoccupied : m.Unoccupied) (execution : ExecutionId)
    (inputs : RunInputs) (requests : List Request) (schedule : List Move) :
    let start := m.begin g execution inputs requests
    (start.exec g schedule).Memo m.nextTask ∧
      (start.exec g schedule).Account m.nextTask id (start.history g schedule) ∧
      (start.exec g schedule).Onward g m.nextTask id (start.history g schedule) := by
  intro start
  refine run_induction (P := fun h m' => m'.Memo m.nextTask ∧ m'.Account m.nextTask id h ∧
    m'.Onward g m.nextTask id h) schedule ?_ ?_ ⟨unoccupied.memo execution inputs requests,
      unoccupied.account execution inputs requests, unoccupied.onward execution inputs requests⟩
  · rintro h m' t r work work' e m'' ⟨memo, account, onward⟩ here rule after
    exact ⟨memo.step here rule after, account.step memo here rule after,
      onward.step account memo here rule after⟩
  · rintro h m' now - ⟨memo, account, onward⟩
    exact ⟨{ memo with }, { account with }, { onward with }⟩

/-- **At most once.**  In every run that starts while no call is in progress, with
whatever is asked of it and in whatever order its tasks take their steps, every
node runs at most once, and its result stays however long the run goes on.  The task
that ran it goes on to all that lies behind the node, before it is done and by one
fan-out task, and nobody else does. -/
theorem runs_at_most_once (unoccupied : m.Unoccupied) (execution : ExecutionId) (inputs : RunInputs)
    (requests : List Request) (schedule : List Move) (id : NodeId) :
    let start := m.begin g execution inputs requests
    RunsOnce g m.nextTask id (start.history g schedule) (start.exec g schedule) ∧
      ∀ more d, ((start.exec g schedule).cell id).result = some d →
        ((start.exec g (schedule ++ more)).cell id).result = some d := by
  intro start
  have once : ∀ schedule,
      RunsOnce g m.nextTask id (start.history g schedule) (start.exec g schedule) := by
    intro schedule
    obtain ⟨memo, account, onward⟩ := unoccupied.account_exec execution inputs requests schedule
    exact account.runsOnce memo onward
  refine ⟨once schedule, fun more d has => ?_⟩
  obtain ⟨t, stored⟩ := ((once schedule).result d).1 has
  refine ((once (schedule ++ more)).result d).2 ⟨t, ?_⟩
  rw [history_append]
  exact List.mem_append_left _ stored

end Machine

/-! ## A choice and a join -/

namespace Sample

/-- A function that fires the port `x` and gives back nothing. -/
def chooser : Function :=
  .scripted ⟨"choose", "", Signature.generalCategory, [⟨"flow", .flow⟩], ["x", "y"]⟩ [.fire "x"]

/-- A function that gives back nothing. -/
def plain : Function := .scripted ⟨"plain", "", Signature.generalCategory, [], []⟩ []

/-- The entry `1` goes to the choice `2` between `3` and `4`.  The join `5` waits for `3`
and for `6`, which nothing leads to. -/
def choice : Workflow where
  id := ⟨100⟩
  name := "choice"
  description := none
  nodes := [.new ⟨1⟩ startKey, .new ⟨2⟩ "choose", .new ⟨3⟩ "plain", .new ⟨4⟩ "plain",
    .new ⟨5⟩ "plain", .new ⟨6⟩ "plain"]
  connections := [⟨⟨1⟩, none, ⟨2⟩⟩, ⟨⟨2⟩, some "x", ⟨3⟩⟩, ⟨⟨2⟩, some "y", ⟨4⟩⟩,
    ⟨⟨3⟩, none, ⟨5⟩⟩, ⟨⟨6⟩, none, ⟨5⟩⟩]

def registry : Registry := .ofList [.start, chooser, plain]

/-- A built graph, by a check that it is one. -/
def built (w : Workflow) (ok : (Graph.build w registry .standard).toOption.isSome = true) : Graph :=
  (Graph.build w registry .standard).toOption.get ok

theorem eq_ok_get {x : Except GraphError Graph} (ok : x.toOption.isSome = true) :
    x = .ok (x.toOption.get ok) := by
  cases x with
  | error e => cases ok
  | ok g => rfl

theorem build_built {w : Workflow}
    (ok : (Graph.build w registry .standard).toOption.isSome = true) :
    Graph.build w registry .standard = .ok (built w ok) :=
  eq_ok_get ok

def choiceGraph : Graph := built choice (by decide +kernel)

def epoch : Instant := ⟨0, 0⟩

/-- Every one of some tasks takes a step in turn, over and over. -/
def turns (rounds tasks : Nat) : List Machine.Move :=
  (List.range rounds).flatMap fun _ => (List.range tasks).map Machine.Move.step

/-- Some tasks take some steps each, one task after the other. -/
def strides (steps : List (Nat × TaskId)) : List Machine.Move :=
  steps.flatMap fun s => List.replicate s.1 (.step s.2)

end Sample

namespace Machine

open Sample

/-- A whole run of the choice, before anything moves. -/
def choiceRun : Machine := (new epoch).launched choiceGraph ⟨7⟩ .empty

/-- The join of the choice is asked for by four callers. -/
def choiceStart : Machine :=
  (new epoch).begin choiceGraph ⟨7⟩ .empty [.launch, .result ⟨5⟩, .result ⟨5⟩]

/-- The join of the choice runs once although it is asked for from four sides.  The choice and the
node that it leads to go on once: the one to the target of the port that was fired, the other to
the join. -/
theorem join_runs_once :
    (new epoch).Unoccupied ∧
    (∀ id, RunsOnce choiceGraph 0 id (choiceStart.history choiceGraph (turns 60 16))
      (choiceStart.exec choiceGraph (turns 60 16))) ∧
    (choiceStart.history choiceGraph (turns 60 16)).countP (Deed.invokes ⟨5⟩) = 1 ∧
    queuedFires ⟨2⟩ (choiceStart.history choiceGraph (turns 60 16)) = ["x"] ∧
    (∃ r f, (choiceStart.exec choiceGraph (turns 60 16)).FannedOut r f ⟨2⟩ [[⟨3⟩]]) ∧
    ∃ r f, (choiceStart.exec choiceGraph (turns 60 16)).FannedOut r f ⟨3⟩ [[⟨5⟩]] := by
  have unoccupied : (new epoch).Unoccupied := (atRest_new choiceGraph epoch).unoccupied
  have once (id : NodeId) := (runs_at_most_once (g := choiceGraph) unoccupied ⟨7⟩ .empty
    [.launch, .result ⟨5⟩, .result ⟨5⟩] (turns 60 16) id).1
  have goesOn {id : NodeId} {behind : List (List NodeId)}
      (did : (choiceStart.history choiceGraph (turns 60 16)).any (Deed.branches id) = true)
      (same : (choiceGraph.node? id).map (fun n => rounds n (queuedFires id
        (choiceStart.history choiceGraph (turns 60 16)))) = some behind) :
      ∃ r f, (choiceStart.exec choiceGraph (turns 60 16)).FannedOut r f id behind := by
    obtain ⟨deed, member, branches⟩ := List.any_eq_true.1 did
    obtain ⟨t, f, rfl⟩ := Deed.of_branches branches
    obtain ⟨-, n, r, d, known, -, fanned⟩ := (once id).spawned t f member
    rw [known] at same
    cases same
    exact ⟨r, f, fanned⟩
  refine ⟨unoccupied, once, by decide +kernel, by decide +kernel, goesOn ?_ ?_, goesOn ?_ ?_⟩
  all_goals decide +kernel

end Machine
end Flowgraph
