/- # Flowgraph.Proofs.Run.Coverage -- nothing that a run reaches is forgotten

A launch has a task for each entry, and that task has the entry called (`Covered`).  From
there a run goes on by its fan-outs: when all that the run triggered is done, every node
with a result has gone on to what lies behind it, and all of this has a result as well
(`Onward.reached`).
-/
import Flowgraph.Proofs.Run.Feeding
import Flowgraph.Proofs.Run.Once
import Flowgraph.Proofs.Run.Settled

set_option autoImplicit false

namespace Flowgraph

/-- Past starting the entries. -/
def LaunchStage.entered : LaunchStage → Bool
  | .announce | .spawn => false
  | _ => true

namespace Machine

variable {g : Graph} {m m' : Machine} {t k f first : TaskId} {r j : RunId} {n : Node}
  {id x : NodeId} {work work' : Work} {e : Effect} {h : List Deed} {d : Document}

/-! ## What lies behind a node -/

/-- When all that was triggered is done, all that lies behind a node with a result has a result. -/
theorem Onward.reached (onward : m.Onward g first id h) (account : m.Account first id h)
    (memo : m.Memo first) (quiet : m.Quiet first) (has : (m.cell id).result = some d)
    (known : g.node? id = some n) {targets : List NodeId}
    (round : targets ∈ rounds n (queuedFires id h)) (target : x ∈ targets) :
    ∃ d, (m.cell x).result = some d := by
  obtain ⟨k, stored⟩ := account.result has
  obtain ⟨recent, _, stage, ⟨began, there⟩, -⟩ := account.storer stored
  obtain ⟨d', rfl⟩ := Task.answered (quiet recent there rfl)
  obtain ⟨f, branched⟩ := account.passed stored ⟨began, there⟩
  obtain ⟨later, n', r, _, known', -, fanned⟩ := onward.fanned branched
  cases known.symm.trans known'
  obtain ⟨gone, left, calls, waiting, all, stands, called, ordered, -⟩ := fanned
  -- the fan-out is done, so that no round is left, and so are its calls
  have through := quiet later stands rfl
  obtain rfl : left = [] := by
    cases left with
    | nil => rfl
    | cons => cases waiting <;> cases through
  rw [List.append_nil] at all
  have member : x ∈ gone.flatten := List.mem_flatten.2 ⟨targets, all ▸ round, target⟩
  obtain ⟨i, small, rfl⟩ := List.getElem_of_mem member
  have fits : i < calls.length := called.length_eq ▸ small
  obtain ⟨stage, began, stands⟩ := called.get small fits
  have recent : first ≤ calls[i] := Nat.le_trans later (Nat.le_of_lt
    (List.rel_of_pairwise_cons ordered (List.getElem_mem fits)))
  obtain ⟨d, rfl⟩ := Task.answered (quiet recent stands rfl)
  exact ⟨d, memo.known recent ⟨began, stands⟩ rfl⟩

/-! ## The entries -/

/-- Every entry of the run `r` has a task, and the task has it called. -/
structure Covered (g : Graph) (first : TaskId) (r : RunId) (m : Machine) : Prop where
  entryCall : ∀ {k j launch id call}, first ≤ k →
    m.tasks[k]? = some ⟨j, .entry launch id (.running call)⟩ →
    first ≤ call ∧ ∃ i stage, m.Calling i call id stage
  entryDone : ∀ {k j launch id}, first ≤ k → m.tasks[k]? = some ⟨j, .entry launch id .done⟩ →
    ∃ d, (m.cell id).result = some d
  entered : ∀ {stage}, m.LaunchAt r first stage → stage.entered = true → ∀ id ∈ g.entries,
    ∃ k j launch stage, first ≤ k ∧ m.tasks[k]? = some ⟨j, .entry launch id stage⟩

namespace Covered

variable (covered : m.Covered g first r) (memo : m.Memo first)
  (here : m.tasks[t]? = some ⟨j, work⟩) (rule : Transition g m t j work work' e)
  (after : After m t j work' e m')
include covered memo here rule after

theorem step_entryCall {i : RunId} {launch call : TaskId} (recent : first ≤ k)
    (there : m'.tasks[k]? = some ⟨i, .entry launch id (.running call)⟩) :
    first ≤ call ∧ ∃ i stage, m'.Calling i call id stage := by
  obtain ⟨rfl, same⟩ | ⟨-, old⟩ | ⟨-, new⟩ := after.plain_cases rfl there
  · cases same
    cases rule with
    | permit =>
        have calls : m'.Calling _ m.tasks.size id .probe := ⟨_, after.started here (i := 0) rfl⟩
        exact ⟨memo.bound, _, .probe, calls⟩
  · obtain ⟨later, q, stage, calling⟩ := covered.entryCall recent old
    refine ⟨later, ?_⟩
    obtain ⟨-, stays⟩ | ⟨rfl, -, _, _, _, -, -, -, stands⟩ := calling.moved here rule after
    · exact ⟨_, _, stays⟩
    · exact ⟨_, _, stands⟩
  · cases rule.spawnedAt new

theorem step_entryDone {i : RunId} {launch : TaskId} (recent : first ≤ k)
    (there : m'.tasks[k]? = some ⟨i, .entry launch id .done⟩) :
    ∃ d, (m'.cell id).result = some d := by
  obtain ⟨rfl, same⟩ | ⟨-, old⟩ | ⟨-, new⟩ := after.plain_cases rfl there
  · cases same
    have full := rule
    cases rule with
    | leave done =>
        obtain ⟨later, q, stage, calling⟩ := covered.entryCall recent here
        obtain ⟨d, -, has⟩ := memo.done_of_isDone later calling done
        exact ⟨d, memo.result_kept here full after has⟩
  · obtain ⟨d, has⟩ := covered.entryDone recent old
    exact ⟨d, memo.result_kept here rule after has⟩
  · cases rule.spawnedAt new

theorem step_entered (underway : m.Underway first r) {stage : LaunchStage}
    (stands : m'.LaunchAt r first stage) (past : stage.entered = true) :
    ∀ id ∈ g.entries, ∃ k i launch stage, first ≤ k ∧
      m'.tasks[k]? = some ⟨i, .entry launch id stage⟩ := by
  have before : ∀ {stage}, m.LaunchAt r first stage → stage.entered = true →
      ∀ id ∈ g.entries, ∃ k i launch stage, first ≤ k ∧
        m'.tasks[k]? = some ⟨i, .entry launch id stage⟩ := by
    intro stage stands past id start
    obtain ⟨k, i, launch, stage, recent, there⟩ := covered.entered stands past id start
    by_cases mine : k = t
    · subst mine
      cases here.symm.trans there
      cases rule <;> exact ⟨k, _, _, _, recent, after.here⟩
    · exact ⟨k, i, launch, stage, recent, after.kept mine rfl there⟩
  obtain ⟨-, old⟩ | ⟨rfl, stage, permits, rfl, rfl⟩ :=
    underway.launch_cases here rule after stands
  · exact before old past
  · obtain ⟨_, launch⟩ := underway.launch
    obtain ⟨permits', there⟩ := launch
    cases here.symm.trans there
    have full := rule
    cases rule with
    | opened => cases past
    | entries =>
        intro id start
        obtain ⟨k, -, late, new⟩ := after.started_of_mem here rfl start
        exact ⟨k, _, _, _, Nat.le_trans memo.bound late, new⟩
    | joined | finished => exact before ⟨_, here⟩ rfl

/-- A step drops no entry. -/
theorem step (underway : m.Underway first r) : m'.Covered g first r where
  entryCall := covered.step_entryCall memo here rule after
  entryDone := covered.step_entryDone memo here rule after
  entered := covered.step_entered memo here rule after underway

end Covered

end Machine
end Flowgraph
