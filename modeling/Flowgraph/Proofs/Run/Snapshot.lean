/- # Flowgraph.Proofs.Run.Snapshot -- what has been published when a node takes its snapshot

A node binds its parameters against a snapshot of the shared document.  What it received was
merged from the results of its upstreams before that.  A result can be read as soon as it is
stored, and storing it and publishing it are two steps of the call that computed it.  Whoever
comes through the gate finds both done; but a result that is there is given without the gate.

So when a node takes its snapshot, each result that it received has been published, or the call
that stored the result stands just before publishing it, and still holds the gate of the upstream
(`snapshot_shows_results`).  The second does happen (`result_is_merged_before_it_is_published`).
-/
import Mathlib.Data.List.ReduceOption
import Flowgraph.Proofs.Run.Dataflow
import Flowgraph.Proofs.Run.Presence

set_option autoImplicit false

namespace Flowgraph

/-- The document of a run holds what the run was given, whatever is published. -/
theorem Shared.Seeded.calls {s : Shared} {inputs : RunInputs} (seeded : s.Seeded inputs)
    (calls : List Call) : (s.after calls).Seeded inputs := by
  induction calls generalizing s with
  | nil => exact seeded
  | cons c rest ih =>
      have next : (s.answer c).2.Seeded inputs := by
        cases c with
        | snapshot | get => exact seeded
        | publishNode node key v =>
            simp only [answer]
            exact seeded.publishNode node key v
        | publishResult node d =>
            simp only [answer]
            exact seeded.publishResult node d
        | publishOutput name v =>
            simp only [answer]
            exact seeded.publishOutput name v
      exact ih next

/-- What a call received that takes its snapshot next, with its run and its node. -/
def Task.snapping? : Task → Option (RunId × NodeId × Document)
  | ⟨r, .call id _ (.scope received)⟩ => some (r, id, received)
  | _ => none

namespace Machine

variable {g : Graph} {m m' : Machine} {t k first : TaskId} {r j : RunId} {n : Node} {id : NodeId}
  {stage : Stage} {work work' : Work} {e : Effect} {h : List Deed} {received : Document}
  {inputs : RunInputs} {calls : List Call}

/-! ## What a node received -/

/-- What was fetched from an upstream. -/
def brought (m : Machine) : Fetch → Option Document
  | .absent => none
  | .present d => some d
  | .awaited t => m.resultOf? t

/-- What an upstream brings is its result, and a node does without it only if it does not wait for
the upstream. -/
structure Brings (g : Graph) (m : Machine) (u : Upstream) (found : Option Document) : Prop where
  result : ∀ {d}, found = some d → (m.cell u.node).result = some d
  waited : u.viaPort = false → (g.node? u.node).isSome = true → found.isSome = true

/-- A node received the merge of what its upstreams bring. -/
def Gathered (g : Graph) (m : Machine) (n : Node) (received : Document) : Prop :=
  ∃ found, List.Forall₂ (Brings g m) n.upstream found ∧ received = mergeResults found.reduceOption

theorem Memo.brings (memo : m.Memo first) {u : Upstream} {f : Fetch}
    (one : Fetched g first m u f) (done : ∀ k, f = .awaited k → m.isDone k = true) :
    Brings g m u (m.brought f) := by
  cases one with
  | unknown unknown => exact ⟨nofun, fun _ known => by simp [unknown] at known⟩
  | missed port => exact ⟨nofun, fun waits => by simp [port] at waits⟩
  | present port has => exact ⟨fun same => by cases same; exact has, fun _ _ => rfl⟩
  | @awaited _ k _ waits recent calling =>
      obtain ⟨d, rfl, has⟩ := memo.done_of_isDone recent calling (done k rfl)
      obtain ⟨began, here⟩ := calling
      have given : m.resultOf? k = some d := by
        rw [resultOf?, here]
        rfl
      rw [brought, given]
      exact ⟨fun same => by cases same; exact has, fun _ _ => rfl⟩

/-- When all that was fetched is there, it is what the upstreams bring. -/
theorem Memo.brings_all (memo : m.Memo first) {asked : List Upstream} {fetched : List Fetch}
    (got : List.Forall₂ (Fetched g first m) asked fetched) (all : m.fetchedAll fetched = true) :
    List.Forall₂ (Brings g m) asked (fetched.map m.brought) := by
  induction got with
  | nil => exact .nil
  | cons one _ ih =>
      simp only [fetchedAll, List.all_cons, Bool.and_eq_true] at all
      refine .cons (memo.brings one ?_) (ih all.2)
      rintro k rfl
      exact all.1

theorem fetchedResults_eq (m : Machine) (fetched : List Fetch) :
    m.fetchedResults fetched = (fetched.map m.brought).reduceOption := by
  rw [List.reduceOption, List.filterMap_map]
  refine congrArg (fun view => List.filterMap view fetched) (funext fun f => ?_)
  cases f <;> rfl

section Step

variable (memo : m.Memo first) (here : m.tasks[t]? = some ⟨r, work⟩)
  (rule : Transition g m t r work work' e) (after : After m t r work' e m')
include memo here rule after

theorem Gathered.step (gathered : Gathered g m n received) : Gathered g m' n received := by
  obtain ⟨found, brings, same⟩ := gathered
  refine ⟨found, brings.imp fun u one two => ?_, same⟩
  exact ⟨fun has => memo.result_kept here rule after (two.result has), two.waited⟩

/-- A call that is about to take its snapshot received what the upstreams bring. -/
theorem gathered_step (feeding : m.Feeding g first)
    (before : ∀ {j k id n received}, m.Calling j k id (.scope received) → g.node? id = some n →
      Gathered g m n received)
    (calling : m'.Calling j k id (.scope received)) (known : g.node? id = some n) :
    Gathered g m' n received := by
  obtain ⟨rfl, rfl, began, rfl⟩ | ⟨-, there⟩ | ⟨-, new, -⟩ := after.calling_cases rule calling
  · have full := rule
    cases rule with
    | call known' step =>
        cases known.symm.trans known'
        cases step with
        | @join fetched all =>
            have intake : Intake g first m n (.join fetched) := feeding.calls ⟨_, here⟩ known
            have gathered : Gathered g m n (mergeResults (m.fetchedResults fetched)) :=
              ⟨_, memo.brings_all intake all, by rw [fetchedResults_eq]⟩
            exact gathered.step memo here full after
  · exact (before there known).step memo here rule after
  · cases new

end Step

/-! ## What has been published -/

/-- The document of the run `r` is what some calls made of the one it started with.  Among them is
the publication of every result that is there, but while it is about to be published. -/
structure Ledger (inputs : RunInputs) (r : RunId) (m : Machine) (calls : List Call) : Prop where
  running : ∃ run, m.run? r = some run ∧ run.shared = (Shared.start inputs).after calls
  published : ∀ {id d}, (m.cell id).result = some d →
    .publishResult id d ∈ calls ∨ ∃ j k, m.Calling j k id (.publish d)

theorem Ledger.step (ledger : m.Ledger inputs r calls) (traced : m.Traced first r h)
    (here : m.tasks[t]? = some ⟨j, work⟩) (rule : Transition g m t j work work' e)
    (after : After m t j work' e m') : ∃ calls', m'.Ledger inputs r calls' := by
  obtain rfl := traced.current here rule
  obtain ⟨run, running, made⟩ := ledger.running
  have running' : m'.run? j = some (e.run run) := by rw [after.run, if_pos rfl, running]; rfl
  obtain ⟨same, other⟩ | ⟨c, publishes, changed⟩ := rule.shared run
  · refine ⟨calls, ⟨_, running', same.trans made⟩, fun {id d} has => ?_⟩
    obtain told | calling | ⟨began, now⟩ :=
      rule.announced (fun d => .publishResult id d ∈ calls) here after ledger.published has
    · exact .inl told
    · exact .inr calling
    · exact absurd now (other _ _ _)
  · refine ⟨calls ++ [c], ⟨_, running', ?_⟩, fun {id d} has => ?_⟩
    · rw [changed, made, Shared.after, Shared.after, List.foldl_append, List.foldl_cons,
        List.foldl_nil]
    · obtain told | calling | ⟨began, rfl⟩ :=
        rule.announced (fun d => .publishResult id d ∈ calls) here after ledger.published has
      · exact .inl (List.mem_append_left _ told)
      · exact .inr calling
      · cases publishes with
        | node program | output program => cases program
        | result => exact .inl (List.mem_append_right _ (List.mem_singleton_self _))

/-- A result has been published by some calls, or the call of the run `r` that stored it is about
to publish it, inside the gate of the node. -/
def Announced (calls : List Call) (r : RunId) (m : Machine) (id : NodeId) (d : Document) : Prop :=
  .publishResult id d ∈ calls ∨ ∃ k, m.Calling r k id (.publish d) ∧ (m.cell id).gate = some k

/-- A call that is not done is one of this run. -/
theorem Traced.run_of_calling (traced : m.Traced first r h) (calling : m.Calling j k id stage)
    (undone : ∀ d, stage ≠ .done d) : j = r := by
  obtain ⟨began, here⟩ := calling
  by_cases recent : first ≤ k
  · exact traced.own recent here
  · obtain ⟨d, rfl⟩ := Task.answered (traced.past (Nat.lt_of_not_le recent) here)
    exact absurd rfl (undone d)

theorem Ledger.announced (ledger : m.Ledger inputs r calls) (memo : m.Memo first)
    (traced : m.Traced first r h) {d : Document} (has : (m.cell id).result = some d) :
    Announced calls r m id d := by
  obtain told | ⟨j, k, calling⟩ := ledger.published has
  · exact .inl told
  · obtain rfl := traced.run_of_calling calling nofun
    exact .inr ⟨k, calling, memo.held calling rfl⟩

/-! ## The invariant -/

/-- The calls of the run `r` know of no more than their upstreams bring, and the document of the
run tells what of it. -/
structure Informed (inputs : RunInputs) (g : Graph) (first : TaskId) (r : RunId) (h : List Deed)
    (m : Machine) : Prop where
  memo : m.Memo first
  feeding : m.Feeding g first
  traced : m.Traced first r h
  gathered : ∀ {j k id n received}, m.Calling j k id (.scope received) → g.node? id = some n →
    Gathered g m n received
  ledger : ∃ calls, m.Ledger inputs r calls

theorem Informed.step (informed : m.Informed inputs g first r h)
    (here : m.tasks[t]? = some ⟨j, work⟩) (rule : Transition g m t j work work' e)
    (after : After m t j work' e m') : m'.Informed inputs g first r (h ++ e.deeds) where
  memo := informed.memo.step here rule after
  feeding := informed.feeding.step informed.memo here rule after
  traced := informed.traced.step informed.memo here rule after
  gathered := gathered_step informed.memo here rule after informed.feeding informed.gathered
  ledger := by
    obtain ⟨calls, ledger⟩ := informed.ledger
    exact ledger.step informed.traced here rule after

theorem Informed.tick (informed : m.Informed inputs g first r h) (now : Instant) :
    Informed inputs g first r h { m with now := now } where
  memo := { informed.memo with }
  feeding := informed.feeding.tick now
  traced := { informed.traced with }
  gathered := by
    intro j k id n received calling known
    obtain ⟨found, brings, same⟩ := informed.gathered calling known
    exact ⟨found, brings.imp fun u f one => ⟨one.result, one.waited⟩, same⟩
  ledger := by
    obtain ⟨calls, ledger⟩ := informed.ledger
    exact ⟨calls, { ledger with }⟩

/-- A run that begins while nothing is at work has published nothing and received nothing. -/
theorem Still.informed (still : m.Still) (execution : ExecutionId) (inputs : RunInputs)
    (requests : List Request) :
    (m.begin g execution inputs requests).Informed inputs g m.nextTask m.nextRun [] where
  memo := still.unoccupied.memo execution inputs requests
  feeding := still.unoccupied.feeding execution inputs requests
  traced := still.traced execution inputs requests
  gathered := by
    intro j k id n received calling known
    obtain ⟨-, d, made⟩ | ⟨-, made⟩ := still.unoccupied.calling_begin calling <;> cases made
  ledger := by
    refine ⟨[], ⟨_, run?_begin g m execution inputs requests, rfl⟩, fun has => ?_⟩
    rw [cell_begin] at has
    cases has

/-! ## Snapshots -/

theorem calling_of_snapping (there : m.tasks[k]?.bind Task.snapping? = some (r, id, received)) :
    m.Calling r k id (.scope received) := by
  obtain ⟨task, here, snapping⟩ := Option.bind_eq_some_iff.1 there
  unfold Task.snapping? at snapping
  split at snapping
  · cases snapping
    exact ⟨_, here⟩
  · cases snapping

/-- The snapshot is taken of the document of the run of the call. -/
theorem step_scope {run : RunRecord} {scope : Document} (known : g.node? id = some n)
    (calling : m.Calling r k id (.scope received)) (running : m.run? r = some run)
    (taken : inputScope run.shared.document received = .ok scope) :
    ∃ m', m.step g k = some m' ∧ m'.Calling r k id (.record received scope) := by
  obtain ⟨began, here⟩ := calling
  have step : m.step g k = some (m.setWork k (.call id began (.record received scope))) := by
    simp [Machine.step, here, known, stepCall, running, taken, beganAfter]
  refine ⟨_, step, began, ?_⟩
  rw [tasks_setWork, if_pos rfl, here]
  rfl

/-- **Snapshots show results, but between storing and publishing them.**  A call in a run takes its
snapshot of the document that some calls made of the one the run started with.  What it received is
the merge of what its upstreams bring; and of these results each has been published by one of those
calls, or it is about to be by the call that stored it, which holds the gate. -/
theorem snapshot_shows_results (still : m.Still) (execution : ExecutionId) (inputs : RunInputs)
    (requests : List Request) (schedule : List Move) (known : g.node? id = some n)
    (binding : ((m.begin g execution inputs requests).exec g schedule).Calling j k id
      (.scope received)) :
    let before := (m.begin g execution inputs requests).exec g schedule
    ∃ run calls found, before.run? m.nextRun = some run ∧
      run.shared = (Shared.start inputs).after calls ∧
      received = mergeResults found.reduceOption ∧
      List.Forall₂ (fun u f => Brings g before u f ∧
        ∀ d, f = some d → Announced calls m.nextRun before u.node d) n.upstream found ∧
      ∃ scope after, inputScope run.shared.document received = .ok scope ∧
        before.step g k = some after ∧ after.Calling m.nextRun k id (.record received scope) := by
  intro before
  have informed : before.Informed inputs g m.nextTask m.nextRun
      ((m.begin g execution inputs requests).history g schedule) :=
    run_induction schedule (fun _ _ _ _ _ _ _ _ informed => informed.step)
      (fun _ _ now _ informed => informed.tick now) (still.informed execution inputs requests)
  obtain rfl := informed.traced.run_of_calling binding nofun
  obtain ⟨calls, ledger⟩ := informed.ledger
  obtain ⟨run, running, made⟩ := ledger.running
  obtain ⟨found, brings, merged⟩ := informed.gathered binding known
  have seeded : run.shared.Seeded inputs := made ▸ (Shared.seeded_start inputs).calls calls
  obtain ⟨scope, taken, -⟩ := seeded.inputScope received
  obtain ⟨after, stepped, stands⟩ := step_scope known binding running taken
  refine ⟨run, calls, found, running, made, merged,
    brings.imp fun u f one => ⟨one, fun d has => ?_⟩, scope, after, taken, stepped, stands⟩
  exact ledger.announced informed.memo informed.traced (one.result has)

end Machine

/-! ## A snapshot between storing and publishing -/

namespace Sample

/-- A function that gives back `true`. -/
def affirm : Function :=
  .scripted ⟨"affirm", "", Signature.generalCategory, [], []⟩
    [.answer (.given (.value (.bool true)))]

/-- The nodes `1` and `2` lead to `3`, which looks up the result of `1`. -/
def crossing : Workflow where
  id := ⟨108⟩
  name := "crossing"
  description := none
  nodes := [.new ⟨1⟩ "affirm", .new ⟨2⟩ "plain",
    (NodeSpec.new ⟨3⟩ "note").withInput "x" (Shared.nodePath ⟨1⟩ ++ ".output.result")]
  connections := [⟨⟨1⟩, none, ⟨3⟩⟩, ⟨⟨2⟩, none, ⟨3⟩⟩]

def crossingGraph : Graph :=
  (Graph.build crossing (.ofList [affirm, plain, note]) .standard).toOption.get (by decide +kernel)

/-- A result with one returned member. -/
def returning (name : String) (v : Value) : Document := ⟨.obj [("output", .obj [(name, v)])]⟩

end Sample

namespace Machine

open Sample

/-- The call of `1` has stored its result.  That of `2` is done, and its fan-out has started the
call of `3`, the task `3`, which has the results of both and takes its snapshot next. -/
def crossingBefore : Machine :=
  ((new epoch).begin crossingGraph ⟨7⟩ .empty [.result ⟨1⟩, .result ⟨2⟩]).exec crossingGraph
    (strides [(12, 0), (17, 1), (1, 2), (8, 3), (1, 4), (1, 5), (1, 3)])

theorem crossing_calls :
    crossingBefore.Calling 0 3 ⟨3⟩ (.scope (returning "result" (.bool true))) :=
  calling_of_snapping (by decide +kernel)

/-- The third node of the crossing takes its snapshot. -/
theorem crossing_snapshot :
    (new epoch).Still ∧ ∃ n, crossingGraph.node? ⟨3⟩ = some n ∧
      crossingBefore.Calling 0 3 ⟨3⟩ (.scope (returning "result" (.bool true))) ∧
      ∃ calls found, returning "result" (.bool true) = mergeResults found.reduceOption ∧
        List.Forall₂ (fun u f => Brings crossingGraph crossingBefore u f ∧
          ∀ d, f = some d → Announced calls 0 crossingBefore u.node d) n.upstream found := by
  have there : (crossingGraph.node? ⟨3⟩).isSome = true := by decide +kernel
  obtain ⟨n, known⟩ := Option.isSome_iff_exists.1 there
  obtain ⟨-, calls, found, -, -, merged, brings, -⟩ := snapshot_shows_results (still_new epoch) ⟨7⟩
    .empty [.result ⟨1⟩, .result ⟨2⟩] _ known crossing_calls
  exact ⟨still_new epoch, n, known, crossing_calls, calls, found, merged, brings⟩

/-- **A result is merged before it is published.**  The third node of the crossing has received the
result of the first, and nothing has been published of that when it takes its snapshot; so the name
of the result is taken for a text. -/
theorem result_is_merged_before_it_is_published :
    let after := crossingBefore.exec crossingGraph (strides [(20, 3)])
    crossingBefore.Calling 0 3 ⟨3⟩ (.scope (returning "result" (.bool true))) ∧
    (crossingBefore.cell ⟨1⟩).result = some (returning "result" (.bool true)) ∧
    (crossingBefore.run? 0).map (fun run => run.shared.get? (Shared.nodePath ⟨1⟩)) = some none ∧
    (after.cell ⟨3⟩).result =
      some (returning "x" (.str (Shared.nodePath ⟨1⟩ ++ ".output.result"))) :=
  ⟨crossing_calls, by decide +kernel, by decide +kernel, by decide +kernel⟩

end Machine
end Flowgraph
