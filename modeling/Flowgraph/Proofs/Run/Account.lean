/- # Flowgraph.Proofs.Run.Account -- what the history says of a node

The function of a node is called at most once in a run, its result is written at most
once, and what lies behind it is started at most once, by the task that wrote the result
and before that task is done.

The gate alone does not give this: the ports are drained and the rest is started
after the gate is left.  What carries the argument is that the deeds of a task
leave a mark on its stage (`Stage.called`, `Stage.written`), that such a stage
either computes, and then holds the gate, or knows the result, and that a task
inside the gate that is about to call or to write knows of no result.
-/
import Flowgraph.Proofs.Run.Deeds
import Flowgraph.Proofs.Run.Memo

set_option autoImplicit false

namespace Flowgraph

/-! ## Stages -/

namespace Stage

/-- Past the point where the function is called. -/
def called : Stage → Bool
  | .run _ _ | .report _ | .blame _ | .store _ | .publish _ | .unmark _ | .release _ | .close _
  | .branch _ _ | .done _ => true
  | _ => false

/-- Past the point where the result is written. -/
def written : Stage → Bool
  | .publish _ | .unmark _ | .release _ | .close _ | .branch _ _ | .done _ => true
  | _ => false

/-- Between writing the result and starting what lies behind the node. -/
def closing : Stage → Bool
  | .publish _ | .unmark _ | .release _ | .close _ | .branch _ _ => true
  | _ => false

variable {stage : Stage}

theorem computing_of_called (called : stage.called = true) :
    stage.phase = .computing ∨ ∃ d, stage.phase.result? = some d := by
  cases stage with
  | publish d | unmark d | release d | close d | branch d pending | done d => exact .inr ⟨d, rfl⟩
  | run | report | blame | store => exact .inl rfl
  | _ => cases called

theorem called_of_written (written : stage.written = true) : stage.called = true := by
  cases stage <;> first | rfl | cases written

theorem written_of_called {d : Document} (called : stage.called = true)
    (has : stage.phase.result? = some d) : stage.written = true := by
  cases stage with
  | run | report | blame | store => cases has
  | publish | unmark | release | close | branch | done => rfl
  | _ => cases called

end Stage

/-! ## Counting -/

section Counting

variable {α : Type} {p : α → Bool} {old new : List α}

theorem countP_append_le_one (few : old.countP p ≤ 1) (single : new.length ≤ 1)
    (absent : ∀ x ∈ new, p x = true → ∀ y ∈ old, p y = true → False) :
    (old ++ new).countP p ≤ 1 := by
  rw [List.countP_append]
  by_cases some : ∃ x ∈ new, p x = true
  · obtain ⟨x, there, holds⟩ := some
    have none : old.countP p = 0 := by
      rw [List.countP_eq_zero]
      intro y member
      exact absent x there holds y member
    have := List.countP_le_length (p := p) (l := new)
    omega
  · have none : new.countP p = 0 := by
      rw [List.countP_eq_zero]
      intro y member holds
      exact some ⟨y, member, holds⟩
    omega

theorem eq_of_countP_le_one {xs : List α} (few : xs.countP p ≤ 1) {x y : α} (one : x ∈ xs)
    (two : y ∈ xs) (holds : p x = true) (holdsToo : p y = true) : x = y := by
  rw [List.countP_eq_length_filter] at few
  have first : x ∈ xs.filter p := List.mem_filter.2 ⟨one, holds⟩
  have second : y ∈ xs.filter p := List.mem_filter.2 ⟨two, holdsToo⟩
  match kept : xs.filter p with
  | [] => simp [kept] at first
  | [z] =>
      rw [kept, List.mem_singleton] at first second
      rw [first, second]
  | _ :: _ :: _ => simp [kept] at few

end Counting

namespace Machine

variable {g : Graph} {m m' : Machine} {t k f : TaskId} {r j : RunId} {n : Node} {id : NodeId}
  {began : Instant} {stage stage' : Stage} {work work' : Work} {e : Effect} {d : Document}

/-! ## Deeds and stages -/

theorem CallStep.called (step : CallStep g m t r n began stage stage' e)
    (called : stage.called = true) : stage'.called = true := by
  cases step <;> first | rfl | cases called

theorem CallStep.written (step : CallStep g m t r n began stage stage' e)
    (written : stage.written = true) :
    stage'.written = true ∧ stage'.phase.result? = stage.phase.result? := by
  cases step <;> first | exact ⟨rfl, rfl⟩ | cases written

/-- A task that has called the function is past writing only by having written. -/
theorem CallStep.writes (step : CallStep g m t r n began stage stage' e)
    (called : stage.called = true) (written : stage'.written = true) :
    stage.written = true ∨ ∃ d, .stored n.id t d ∈ e.deeds := by
  cases step with
  | store => exact .inr ⟨_, List.mem_singleton_self _⟩
  | publish | unmark | release | close | branch => exact .inl rfl
  | hit | yield => cases called
  | _ => cases written

theorem CallStep.closes (step : CallStep g m t r n began stage stage' e)
    (closing : stage'.closing = true) :
    stage.closing = true ∨ ∃ d, .stored n.id t d ∈ e.deeds := by
  cases step with
  | store => exact .inr ⟨_, List.mem_singleton_self _⟩
  | publish | unmark | release | close => exact .inl rfl
  | _ => cases closing

/-- A task that has written is done only by starting what lies behind the node. -/
theorem CallStep.passes (step : CallStep g m t r n began stage (.done d) e)
    (written : stage.written = true) : ∃ f, .branched n.id t f ∈ e.deeds := by
  cases step with
  | branch => exact ⟨_, List.mem_singleton_self _⟩
  | _ => cases written

/-! ## The account of a node -/

/-- While a task computes, no other one has called the function. -/
theorem Memo.sole {first : TaskId} {stage₂ : Stage} (memo : m.Memo first)
    (mine : m.Calling r t id stage) (computing : stage.phase = .computing) (recent : first ≤ k)
    (there : m.Calling j k id stage₂) (called : stage₂.called = true) : k = t := by
  obtain also | ⟨d, has⟩ := Stage.computing_of_called called
  · exact memo.alone mine there (by rw [computing]; rfl) (by rw [also]; rfl)
  · cases (memo.unset mine computing).symm.trans (memo.known recent there has)

/-- What the history says of a node, and the marks that it left on the tasks. -/
structure Account (first : TaskId) (id : NodeId) (h : List Deed) (m : Machine) : Prop where
  invoked : h.countP (Deed.invokes id) ≤ 1
  stored : h.countP (Deed.stores id) ≤ 1
  branched : h.countP (Deed.branches id) ≤ 1
  invoker : ∀ {k i}, .invoked id k i ∈ h → first ≤ k ∧ ∃ r stage, m.Calling r k id stage ∧
    stage.called = true ∧ (stage.written = true → ∃ d, .stored id k d ∈ h)
  storer : ∀ {k d}, .stored id k d ∈ h → first ≤ k ∧ ∃ r stage, m.Calling r k id stage ∧
    stage.written = true ∧ stage.phase.result? = some d
  closer : ∀ {r k stage}, m.Calling r k id stage → stage.closing = true → ∃ d, .stored id k d ∈ h
  brancher : ∀ {k f}, .branched id k f ∈ h →
    ∃ d r, .stored id k d ∈ h ∧ m.Calling r k id (.done d)
  passed : ∀ {r k d d'}, .stored id k d ∈ h → m.Calling r k id (.done d') →
    ∃ f, .branched id k f ∈ h
  result : ∀ {d}, (m.cell id).result = some d → ∃ k, .stored id k d ∈ h
  fanOut : ∀ {r f rounds waiting}, first ≤ f →
    m.tasks[f]? = some ⟨r, .fanOut id rounds waiting⟩ → ∃ k, .branched id k f ∈ h

namespace Account

variable {first : TaskId} {h : List Deed}

theorem stored_unique (account : m.Account first id h) {d' : Document}
    (one : .stored id t d ∈ h) (two : .stored id k d' ∈ h) : t = k ∧ d = d' := by
  cases eq_of_countP_le_one account.stored one two (by simp [Deed.stores]) (by simp [Deed.stores])
  exact ⟨rfl, rfl⟩

theorem branched_unique (account : m.Account first id h) {k' f' : TaskId}
    (one : .branched id k f ∈ h) (two : .branched id k' f' ∈ h) : k = k' ∧ f = f' := by
  cases eq_of_countP_le_one account.branched one two (by simp [Deed.branches])
    (by simp [Deed.branches])
  exact ⟨rfl, rfl⟩

/-- The task that calls the function is the one that writes the result. -/
theorem executor (account : m.Account first id h) (memo : m.Memo first) {i : Invocation}
    (invoked : .invoked id t i ∈ h) (stored : .stored id k d ∈ h) : t = k := by
  obtain ⟨-, r, stage, there, called, wrote⟩ := account.invoker invoked
  obtain ⟨recent, j, stage', there', -, has⟩ := account.storer stored
  obtain computing | ⟨d', has'⟩ := Stage.computing_of_called called
  · cases (memo.unset there computing).symm.trans (memo.known recent there' has)
  · obtain ⟨d', storedToo⟩ := wrote (Stage.written_of_called called has')
    exact (account.stored_unique storedToo stored).1

/-- What was written is the result. -/
theorem result_of_stored (account : m.Account first id h) (memo : m.Memo first)
    (stored : .stored id k d ∈ h) : (m.cell id).result = some d := by
  obtain ⟨recent, r, stage, there, -, has⟩ := account.storer stored
  exact memo.known recent there has

variable (memo : m.Memo first) (account : m.Account first id h)
  (here : m.tasks[t]? = some ⟨r, work⟩) (rule : Transition g m t r work work' e)
  (after : After m t r work' e m')

include memo account here rule

theorem step_invoked : (h ++ e.deeds).countP (Deed.invokes id) ≤ 1 := by
  refine countP_append_le_one account.invoked rule.deeds_length ?_
  intro deed new counts other old also
  obtain ⟨k, i, rfl⟩ := Deed.of_invokes counts
  obtain ⟨k₂, i₂, rfl⟩ := Deed.of_invokes also
  obtain ⟨rfl, began, _, received, scope, _, rfl, -⟩ := rule.of_invoked new
  obtain ⟨recent, j, stage, there, called, -⟩ := account.invoker old
  cases memo.sole ⟨began, here⟩ rfl recent there called
  obtain ⟨-, -, rfl⟩ := there.unique ⟨began, here⟩
  cases called

theorem step_stored : (h ++ e.deeds).countP (Deed.stores id) ≤ 1 := by
  refine countP_append_le_one account.stored rule.deeds_length ?_
  intro deed new counts other old also
  obtain ⟨k, d, rfl⟩ := Deed.of_stores counts
  obtain ⟨k₂, d₂, rfl⟩ := Deed.of_stores also
  obtain ⟨rfl, began, _, rfl, -⟩ := rule.of_stored new
  obtain ⟨recent, j, stage, there, written, -⟩ := account.storer old
  cases memo.sole ⟨began, here⟩ rfl recent there (Stage.called_of_written written)
  obtain ⟨-, -, rfl⟩ := there.unique ⟨began, here⟩
  cases written

omit memo in
theorem step_branched : (h ++ e.deeds).countP (Deed.branches id) ≤ 1 := by
  refine countP_append_le_one account.branched rule.deeds_length ?_
  intro deed new counts other old also
  obtain ⟨k, f, rfl⟩ := Deed.of_branches counts
  obtain ⟨k₂, f₂, rfl⟩ := Deed.of_branches also
  obtain ⟨rfl, began, _, d, pending, rfl, -⟩ := rule.of_branched new
  obtain ⟨d₂, j, storedToo, there⟩ := account.brancher old
  obtain ⟨d, stored⟩ := account.closer ⟨began, here⟩ rfl
  obtain ⟨rfl, rfl⟩ := account.stored_unique stored storedToo
  cases (there.unique ⟨began, here⟩).2.2

include after

theorem step_invoker {i : Invocation} (deed : .invoked id k i ∈ h ++ e.deeds) :
    first ≤ k ∧ ∃ j stage, m'.Calling j k id stage ∧ stage.called = true ∧
      (stage.written = true → ∃ d, .stored id k d ∈ h ++ e.deeds) := by
  obtain old | new := List.mem_append.1 deed
  · obtain ⟨recent, j, stage, there, called, wrote⟩ := account.invoker old
    have kept : ∀ {d}, .stored id k d ∈ h → .stored id k d ∈ h ++ e.deeds :=
      List.mem_append_left _
    refine ⟨recent, ?_⟩
    obtain ⟨-, stays⟩ | ⟨rfl, rfl, n, _, stage', -, rfl, step, stands⟩ :=
      there.moved here rule after
    · refine ⟨j, stage, stays, called, fun written => ?_⟩
      obtain ⟨d, stored⟩ := wrote written
      exact ⟨d, kept stored⟩
    · refine ⟨j, stage', stands, step.called called, fun written => ?_⟩
      obtain before | ⟨d, stored⟩ := step.writes called written
      · obtain ⟨d, stored⟩ := wrote before
        exact ⟨d, kept stored⟩
      · exact ⟨d, List.mem_append_right _ stored⟩
  · obtain ⟨rfl, _, began, _, _, _, rfl, rfl⟩ := rule.of_invoked new
    exact ⟨memo.recent here rule, r, _, ⟨began, after.here⟩, rfl, nofun⟩

theorem step_storer (deed : .stored id k d ∈ h ++ e.deeds) :
    first ≤ k ∧ ∃ j stage, m'.Calling j k id stage ∧ stage.written = true ∧
      stage.phase.result? = some d := by
  obtain old | new := List.mem_append.1 deed
  · obtain ⟨recent, j, stage, there, written, has⟩ := account.storer old
    refine ⟨recent, ?_⟩
    obtain ⟨-, stays⟩ | ⟨rfl, rfl, n, _, stage', -, rfl, step, stands⟩ :=
      there.moved here rule after
    · exact ⟨j, stage, stays, written, has⟩
    · obtain ⟨written, same⟩ := step.written written
      exact ⟨j, stage', stands, written, same.trans has⟩
  · obtain ⟨rfl, _, began, rfl, rfl⟩ := rule.of_stored new
    exact ⟨memo.recent here rule, r, _, ⟨began, after.here⟩, rfl, rfl⟩

omit memo

theorem step_closer (calling : m'.Calling j k id stage) (closing : stage.closing = true) :
    ∃ d, .stored id k d ∈ h ++ e.deeds := by
  have kept : (∃ d, .stored id k d ∈ h) → ∃ d, .stored id k d ∈ h ++ e.deeds :=
    fun ⟨d, stored⟩ => ⟨d, List.mem_append_left _ stored⟩
  obtain ⟨rfl, rfl, began, rfl⟩ | ⟨-, there⟩ | ⟨-, rfl, -⟩ := after.calling_cases rule calling
  · cases rule with
    | call known step =>
        cases Graph.id_of_node? known
        obtain before | ⟨d, stored⟩ := step.closes closing
        · exact kept (account.closer ⟨_, here⟩ before)
        · exact ⟨d, List.mem_append_right _ stored⟩
  · exact kept (account.closer there closing)
  · cases closing

theorem step_brancher (deed : .branched id k f ∈ h ++ e.deeds) :
    ∃ d j, .stored id k d ∈ h ++ e.deeds ∧ m'.Calling j k id (.done d) := by
  obtain old | new := List.mem_append.1 deed
  · obtain ⟨d, j, stored, there⟩ := account.brancher old
    obtain ⟨-, stays⟩ | ⟨-, -, n, _, stage', -, -, step, -⟩ := there.moved here rule after
    · exact ⟨d, j, List.mem_append_left _ stored, stays⟩
    · cases step
  · obtain ⟨rfl, _, began, d, pending, rfl, rfl⟩ := rule.of_branched new
    obtain ⟨d', stored⟩ := account.closer ⟨_, here⟩ rfl
    obtain ⟨-, j, stage, there, -, has⟩ := account.storer stored
    obtain ⟨-, -, rfl⟩ := there.unique ⟨_, here⟩
    cases has
    exact ⟨d, r, List.mem_append_left _ stored, began, after.here⟩

theorem step_passed {d' : Document} (deed : .stored id k d ∈ h ++ e.deeds)
    (done : m'.Calling j k id (.done d')) : ∃ f, .branched id k f ∈ h ++ e.deeds := by
  obtain old | new := List.mem_append.1 deed
  · obtain ⟨-, i, stage, there, written, -⟩ := account.storer old
    obtain ⟨-, stays⟩ | ⟨rfl, rfl, n, _, stage', -, rfl, step, stands⟩ :=
      there.moved here rule after
    · obtain ⟨-, -, rfl⟩ := stays.unique done
      obtain ⟨f, branched⟩ := account.passed old there
      exact ⟨f, List.mem_append_left _ branched⟩
    · obtain ⟨-, -, rfl⟩ := stands.unique done
      obtain ⟨f, branched⟩ := step.passes written
      exact ⟨f, List.mem_append_right _ branched⟩
  · obtain ⟨rfl, _, began, rfl, rfl⟩ := rule.of_stored new
    cases (done.unique ⟨began, after.here⟩).2.2

theorem step_fanOut {rounds : List (List NodeId)} {waiting : List TaskId} (recent : first ≤ f)
    (stands : m'.tasks[f]? = some ⟨j, .fanOut id rounds waiting⟩) :
    ∃ k, .branched id k f ∈ h ++ e.deeds := by
  have kept : (∃ k, .branched id k f ∈ h) → ∃ k, .branched id k f ∈ h ++ e.deeds :=
    fun ⟨k, branched⟩ => ⟨k, List.mem_append_left _ branched⟩
  obtain ⟨rfl, same⟩ | ⟨-, there⟩ | ⟨new, spawned⟩ := after.plain_cases rfl stands
  · cases same
    cases rule with
    | round | rested => exact kept (account.fanOut recent here)
  · exact kept (account.fanOut recent there)
  · have branched := rule.of_fanOut spawned
    rw [Nat.add_sub_cancel' new] at branched
    exact ⟨t, List.mem_append_right _ branched⟩

include memo in
/-- Every step keeps the account of a node. -/
theorem step : m'.Account first id (h ++ e.deeds) where
  invoked := account.step_invoked memo here rule
  stored := account.step_stored memo here rule
  branched := account.step_branched here rule
  invoker := account.step_invoker memo here rule after
  storer := account.step_storer memo here rule after
  closer := account.step_closer here rule after
  brancher := account.step_brancher here rule after
  passed := account.step_passed here rule after
  result := after.stored_of_result rule account.result
  fanOut := account.step_fanOut here rule after

end Account

theorem Unoccupied.account (unoccupied : m.Unoccupied) (execution : ExecutionId)
    (inputs : RunInputs) (requests : List Request) :
    (m.begin g execution inputs requests).Account m.nextTask id [] where
  invoked := Nat.zero_le _
  stored := Nat.zero_le _
  branched := Nat.zero_le _
  invoker := nofun
  storer := nofun
  closer := by
    intro r k stage calling closing
    obtain ⟨-, d, rfl⟩ | ⟨-, rfl⟩ := unoccupied.calling_begin calling <;> cases closing
  brancher := nofun
  passed := nofun
  result := by
    intro d has
    rw [cell_begin] at has
    cases has
  fanOut := by
    intro r f rounds waiting recent here
    rw [tasks_begin, if_neg (Nat.not_lt_of_le recent)] at here
    obtain ⟨request, -, made⟩ := List.mem_map.1 (List.mem_of_getElem? here)
    cases request <;> cases made

end Machine
end Flowgraph
