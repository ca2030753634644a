/- # Flowgraph.Proofs.Run.FanOut -- what lies behind a node is started, and all of it

While the function of a node is at work, the ports that it fires wait in the queue of the
node.  The call that wrote the result closes the queue and takes along what waits there,
and then it starts the fan-out of the node, in its own run: with all downstream nodes, or
with the targets of each port that it took along (`Machine.rounds`).  A fan-out task calls
the targets of one round after the other, and drops, adds and repeats none (`FannedOut`).

`Onward` follows this from the queue to the fan-out task.  That the queue is closed with
all that was ever put there rests on there being one task that writes the result.
-/
import Mathlib.Data.List.Forall2
import Flowgraph.Proofs.Run.Account

set_option autoImplicit false

namespace Flowgraph

/-- Past closing the queue of its node. -/
def Stage.closed : Stage → Bool
  | .branch _ _ | .done _ => true
  | _ => false

namespace Machine

variable {g : Graph} {m m' : Machine} {t k f first : TaskId} {r j : RunId} {n : Node}
  {id : NodeId} {work work' : Work} {e : Effect} {h : List Deed} {d : Document}
  {rounds : List (List NodeId)}

/-! ## Fan-out tasks -/

theorem mem_rounds_of_plain {pending : List String} (plain : n.isPortDriven = false) :
    n.downstream ∈ Machine.rounds n pending := by
  simp [Machine.rounds, plain]

theorem mem_rounds_of_driven {port : String} {pending : List String}
    (driven : n.isPortDriven = true) (waits : port ∈ pending) :
    n.targets port ∈ Machine.rounds n pending := by
  simp only [Machine.rounds, driven, if_true]
  exact List.mem_map_of_mem waits

/-- The task `f` runs what lies behind a node. -/
def Fans (m : Machine) (first f : TaskId) (node : NodeId) : Prop :=
  first ≤ f ∧ ∃ j rounds waiting, m.tasks[f]? = some ⟨j, .fanOut node rounds waiting⟩

/-- The task `f` of the run `r` is a fan-out that was started with some rounds.  The targets of
those that are `gone` were called, each by a task of its own and in their order, and nothing else
is waited for; the other rounds are left. -/
def FannedOut (m : Machine) (r : RunId) (f : TaskId) (id : NodeId) (rounds : List (List NodeId)) :
    Prop :=
  ∃ gone left calls waiting, rounds = gone ++ left ∧
    m.tasks[f]? = some ⟨r, .fanOut id left waiting⟩ ∧
    List.Forall₂ (fun x c => ∃ stage, m.Calling r c x stage) gone.flatten calls ∧
    (f :: calls).Pairwise (· < ·) ∧ waiting <:+ calls

theorem lt_size_of_calls {targets : List NodeId} {calls : List TaskId}
    (called : List.Forall₂ (fun x c => ∃ stage, m.Calling r c x stage) targets calls) :
    ∀ c ∈ calls, c < m.tasks.size := by
  induction called with
  | nil => exact List.forall_mem_nil _
  | cons one _ ih =>
      obtain ⟨stage, began, stands⟩ := one
      exact List.forall_mem_cons.2 ⟨lt_size_of_tasks stands, ih⟩

section Step

variable (here : m.tasks[t]? = some ⟨r, work⟩) (rule : Transition g m t r work work' e)
  (after : After m t r work' e m')
include here after

/-- The tasks that a step starts for some nodes are calls of these. -/
theorem After.new_calls {targets : List NodeId}
    (spawned : e.spawned = targets.map (m.freshCall r)) :
    List.Forall₂ (fun x c => m'.Calling r c x .probe) targets
      (List.range' m.tasks.size targets.length) := by
  refine List.forall₂_iff_get.2 ⟨by simp, fun i small _ => ⟨m.now, ?_⟩⟩
  rw [List.get_eq_getElem, List.get_eq_getElem, List.getElem_range', Nat.one_mul]
  exact after.started_map here spawned small

include rule

theorem Fans.step (fans : m.Fans first f id) : m'.Fans first f id := by
  obtain ⟨recent, j, rounds, waiting, there⟩ := fans
  refine ⟨recent, ?_⟩
  by_cases mine : f = t
  · subst mine
    cases here.symm.trans there
    cases rule <;> exact ⟨_, _, _, after.here⟩
  · exact ⟨j, rounds, waiting, after.kept mine rfl there⟩

/-- A fan-out goes on from round to round. -/
theorem FannedOut.step (fanned : m.FannedOut j f id rounds) : m'.FannedOut j f id rounds := by
  obtain ⟨gone, left, calls, waiting, same, there, called, later, waits⟩ := fanned
  have small : ∀ c ∈ f :: calls, c < m.tasks.size :=
    List.forall_mem_cons.2 ⟨lt_size_of_tasks there, lt_size_of_calls called⟩
  have kept : List.Forall₂ (fun x c => ∃ stage, m'.Calling j c x stage) gone.flatten calls :=
    called.imp fun x c ⟨stage, calling⟩ => calling.still here rule after
  by_cases mine : f = t
  · subst mine
    cases here.symm.trans there
    cases rule with
    | @round _ targets rest =>
        have new : List.Forall₂ (fun x c => ∃ stage, m'.Calling r c x stage) targets
            (List.range' m.tasks.size targets.length) :=
          (after.new_calls here rfl).imp fun x c calling => ⟨.probe, calling⟩
        refine ⟨gone ++ [targets], rest, calls ++ List.range' m.tasks.size targets.length, _,
          by simp [same], after.here, ?_, ?_, List.suffix_append _ _⟩
        · rw [List.flatten_append, List.flatten_singleton]
          exact List.rel_append kept new
        · refine List.pairwise_append.2 ⟨later, List.pairwise_lt_range', fun c old c' new => ?_⟩
          exact Nat.lt_of_lt_of_le (small c old) (List.mem_range'_1.1 new).1
    | rested => exact ⟨gone, left, calls, [], same, after.here, kept, later, List.nil_suffix⟩
  · exact ⟨gone, left, calls, waiting, same, after.kept mine rfl there, kept, later, waits⟩

end Step

/-! ## From the queue to the fan-out -/

/-- What waits in the queue of a node, who takes it along, and what is started with it. -/
structure Onward (g : Graph) (first : TaskId) (id : NodeId) (h : List Deed) (m : Machine) :
    Prop where
  waits : (m.cell id).queue.closed = false → (m.cell id).queue.pending = queuedFires id h
  closed : (m.cell id).queue.closed = true →
    ∃ k j d stage, .stored id k d ∈ h ∧ m.Calling j k id stage ∧ stage.closed = true
  taken : ∀ {k j d pending}, m.Calling j k id (.branch d pending) →
    (m.cell id).queue.closed = true ∧ pending = queuedFires id h
  fans : ∀ {f}, m.Fans first f id → (m.cell id).queue.closed = true
  fanned : ∀ {k f}, .branched id k f ∈ h → first ≤ f ∧ ∃ n r d, g.node? id = some n ∧
    m.Calling r k id (.done d) ∧ m.FannedOut r f id (Machine.rounds n (queuedFires id h))

namespace Onward

variable (onward : m.Onward g first id h) (account : m.Account first id h) (memo : m.Memo first)
  (here : m.tasks[t]? = some ⟨r, work⟩) (rule : Transition g m t r work work' e)
  (after : After m t r work' e m')
include onward

/-- What was started is a fan-out task. -/
theorem behind (branched : .branched id k f ∈ h) : m.Fans first f id := by
  obtain ⟨recent, n, r, d, -, -, _, left, _, waiting, -, there, -⟩ := onward.fanned branched
  exact ⟨recent, r, left, waiting, there⟩

/-- The call that is about to close the queue finds it open. -/
theorem isOpen (account : m.Account first id h) (calling : m.Calling j k id (.close d)) :
    (m.cell id).queue.closed = false := by
  cases shut : (m.cell id).queue.closed with
  | false => rfl
  | true =>
      obtain ⟨k', j', d', stage, stored, there, closed⟩ := onward.closed shut
      obtain ⟨_, storedToo⟩ := account.closer calling rfl
      obtain ⟨rfl, -⟩ := account.stored_unique stored storedToo
      obtain ⟨-, -, rfl⟩ := there.unique calling
      cases closed

/-- The queue is closed only after the result is stored. -/
theorem result_of_closed (account : m.Account first id h) (memo : m.Memo first)
    (shut : (m.cell id).queue.closed = true) : ∃ d, (m.cell id).result = some d := by
  obtain ⟨k, j, d, stage, stored, -⟩ := onward.closed shut
  exact ⟨d, account.result_of_stored memo stored⟩

include rule after

theorem step_waits (isOpen : (m'.cell id).queue.closed = false) :
    (m'.cell id).queue.pending = queuedFires id (h ++ e.deeds) := by
  rw [after.cell] at isOpen ⊢
  obtain ⟨grown, -⟩ | ⟨shut, -⟩ := rule.queue id
  · rw [grown] at isOpen ⊢
    replace isOpen : (m.cell id).queue.closed = false := isOpen
    simp [onward.waits isOpen]
  · rw [shut] at isOpen
    cases isOpen

include here

theorem step_fans (fans : m'.Fans first f id) : (m'.cell id).queue.closed = true := by
  rw [after.cell]
  have before : m.Fans first f id → (e.cell id (m.cell id)).queue.closed = true :=
    fun old => rule.closed (onward.fans old)
  obtain ⟨recent, i, rounds, waiting, there⟩ := fans
  obtain ⟨rfl, same⟩ | ⟨-, old⟩ | ⟨-, new⟩ := after.plain_cases rfl there
  · cases same
    cases rule with
    | round | rested => exact before ⟨recent, _, _, _, here⟩
  · exact before ⟨recent, _, _, _, old⟩
  · obtain ⟨-, began, began', d, pending, rfl, rfl⟩ := rule.of_branched (rule.of_fanOut new)
    exact rule.closed (onward.taken ⟨_, here⟩).1

include account

theorem step_closed (shut : (m'.cell id).queue.closed = true) : ∃ k j d stage,
    .stored id k d ∈ h ++ e.deeds ∧ m'.Calling j k id stage ∧ stage.closed = true := by
  rw [after.cell] at shut
  obtain ⟨same, -⟩ | ⟨-, -, began, began', d, rfl, rfl⟩ := rule.queue id
  · rw [same] at shut
    obtain ⟨k, j, d, stage, stored, calling, closed⟩ := onward.closed shut
    refine ⟨k, j, d, ?_⟩
    obtain ⟨-, stays⟩ | ⟨rfl, rfl, _, _, stage', -, -, step, stands⟩ :=
      calling.moved here rule after
    · exact ⟨stage, List.mem_append_left _ stored, stays, closed⟩
    · refine ⟨stage', List.mem_append_left _ stored, stands, ?_⟩
      cases step with
      | branch => rfl
      | _ => cases closed
  · obtain ⟨d', stored⟩ := account.closer ⟨_, here⟩ rfl
    exact ⟨t, r, d', _, List.mem_append_left _ stored, ⟨_, after.here⟩, rfl⟩

/-- The call that closes the queue takes along what was queued, and nothing is queued after it. -/
theorem step_taken {pending : List String} (calling : m'.Calling j k id (.branch d pending)) :
    (m'.cell id).queue.closed = true ∧ pending = queuedFires id (h ++ e.deeds) := by
  rw [after.cell, queuedFires_append]
  obtain ⟨rfl, rfl, began, rfl⟩ | ⟨-, there⟩ | ⟨-, new, -⟩ := after.calling_cases rule calling
  · cases rule with
    | @call _ n' _ _ _ _ known step =>
        cases Graph.id_of_node? known
        cases step with
        | close =>
            rw [onward.waits (onward.isOpen account ⟨_, here⟩)]
            exact ⟨by simp, (List.append_nil _).symm⟩
  · obtain ⟨shut, same⟩ := onward.taken there
    rw [rule.queue_closed shut, List.append_nil]
    exact ⟨rule.closed shut, same⟩
  · cases new

include memo

theorem step_fanned (branched : .branched id k f ∈ h ++ e.deeds) :
    first ≤ f ∧ ∃ n r d, g.node? id = some n ∧ m'.Calling r k id (.done d) ∧
      m'.FannedOut r f id (Machine.rounds n (queuedFires id (h ++ e.deeds))) := by
  rw [queuedFires_append]
  obtain old | new := List.mem_append.1 branched
  · obtain ⟨recent, n, j, d, known, done, fanned⟩ := onward.fanned old
    refine ⟨recent, n, j, d, known, ?_, ?_⟩
    · obtain ⟨-, stays⟩ | ⟨-, -, _, _, _, -, -, step, -⟩ := done.moved here rule after
      · exact stays
      · cases step
    · -- the queue is closed, so that what waited there is all that there will be
      rw [rule.queue_closed (onward.fans (onward.behind old)), List.append_nil]
      exact fanned.step here rule after
  · obtain ⟨rfl, began, began', d, pending, rfl, rfl⟩ := rule.of_branched new
    obtain ⟨-, taken⟩ := onward.taken ⟨_, here⟩
    cases rule with
    | @call _ n _ _ _ _ known step =>
        cases Graph.id_of_node? known
        cases step with
        | branch =>
            cases List.mem_singleton.1 new
            have none : queuedFires n.id [.branched n.id k m.tasks.size] = [] := rfl
            rw [none, List.append_nil, ← taken]
            have started := after.started here (i := 0) rfl
            exact ⟨memo.bound, n, r, d, known, ⟨_, after.here⟩, [], _, [], [], rfl, started, .nil,
              List.pairwise_singleton _ _, List.suffix_rfl⟩

/-- Every step keeps what lies behind the node in hand. -/
theorem step : m'.Onward g first id (h ++ e.deeds) where
  waits := onward.step_waits rule after
  closed := onward.step_closed account here rule after
  taken := onward.step_taken account here rule after
  fans := onward.step_fans here rule after
  fanned := onward.step_fanned account memo here rule after

end Onward

/-- No request is a fan-out. -/
theorem not_fans_begin {execution : ExecutionId} {inputs : RunInputs} {requests : List Request} :
    ¬ (m.begin g execution inputs requests).Fans m.nextTask f id := by
  rintro ⟨recent, _, _, _, there⟩
  obtain ⟨old, -⟩ | ⟨-, q, -, made⟩ := begun_task there
  · exact absurd old (Nat.not_lt_of_le recent)
  · cases q <;> cases made

theorem Unoccupied.onward (unoccupied : m.Unoccupied) (execution : ExecutionId)
    (inputs : RunInputs) (requests : List Request) :
    (m.begin g execution inputs requests).Onward g m.nextTask id [] := by
  have isOpen : ((m.begin g execution inputs requests).cell id).queue = ⟨false, []⟩ := by
    rw [cell_begin]
    rfl
  refine ⟨fun _ => by rw [isOpen]; rfl, fun shut => ?_, fun calling => ?_,
    fun fans => absurd fans not_fans_begin, nofun⟩
  · rw [isOpen] at shut
    cases shut
  · obtain ⟨-, d, stands⟩ | ⟨-, stands⟩ := unoccupied.calling_begin calling <;> cases stands

end Machine
end Flowgraph
