/- # Flowgraph.Proofs.Run.Memo -- the gate and the result of a node

Seen from outside, a call of a node is in one of few phases, and it moves between
them by a protocol: it enters the gate, looks for a result, computes one or finds
one, and leaves the gate again.  `Protocol` lists these moves with what each does
to the gate and to the result; nothing else in a run touches either
(`Transition.protocol`).

`Memo` is what the protocol keeps, however many callers there are and wherever
each of them stands: the gate names the one task inside it, a task that computes
knows that there is no result, and a task that has seen a result knows the one
that is there.
-/
import Flowgraph.Proofs.Run.Standing

set_option autoImplicit false

namespace Flowgraph

/-! ## Phases -/

/-- Where a call stands as far as other calls of the node can tell. -/
inductive Phase where
  /-- Not inside the gate, and without a result. -/
  | outside
  | checking
  | computing
  /-- The result is written, and the gate is still held. -/
  | stored (result : Document)
  /-- The gate is left after the result was written. -/
  | leaving (result : Document)
  /-- Inside the gate with a result that was there. -/
  | yielding (result : Document)
  | answered (result : Document)

namespace Phase

def inside : Phase → Bool
  | .checking | .computing | .stored _ | .yielding _ => true
  | _ => false

def result? : Phase → Option Document
  | .stored d | .leaving d | .yielding d | .answered d => some d
  | _ => none

end Phase

def Stage.phase : Stage → Phase
  | .probe | .enter => .outside
  | .recheck => .checking
  | .publish d | .unmark d | .release d => .stored d
  | .close d | .branch d _ => .leaving d
  | .yield d => .yielding d
  | .done d => .answered d
  | _ => .computing

/-- How a call by the task `t` moves on, and what becomes of the cell of its node. -/
inductive Protocol (t : TaskId) : Phase → Phase → Cell → Cell → Prop
  | stay {p c c'} (gate : c'.gate = c.gate) (result : c'.result = c.result) : Protocol t p p c c'
  | hit {d c} (found : c.result = some d) : Protocol t .outside (.answered d) c c
  | enter {c} (free : c.gate = none) : Protocol t .outside .checking c { c with gate := some t }
  | found {d c} (found : c.result = some d) : Protocol t .checking (.yielding d) c c
  | begin {c} (missing : c.result = none) : Protocol t .checking .computing c c
  | store {d c} : Protocol t .computing (.stored d) c { c with result := some d }
  | leave {d c} : Protocol t (.stored d) (.leaving d) c { c with gate := none }
  | pass {d c} : Protocol t (.leaving d) (.answered d) c c
  | yield {d c} : Protocol t (.yielding d) (.answered d) c { c with gate := none }

namespace Protocol

variable {t : TaskId} {p p' : Phase} {c c' : Cell}

/-- The gate is entered when it is free and left from inside; otherwise it stays as it is. -/
theorem gate (moved : Protocol t p p' c c') :
    (c'.gate = c.gate ∧ p'.inside = p.inside) ∨
    (c.gate = none ∧ c'.gate = some t ∧ p.inside = false ∧ p'.inside = true) ∨
    (p.inside = true ∧ p'.inside = false ∧ c'.gate = none) := by
  cases moved with
  | stay gate result => exact .inl ⟨gate, rfl⟩
  | enter free => exact .inr (.inl ⟨free, rfl, rfl, rfl⟩)
  | leave | yield => exact .inr (.inr ⟨rfl, rfl, rfl⟩)
  | _ => exact .inl ⟨rfl, rfl⟩

/-- The result is written by a task that computes, and by no other. -/
theorem result (moved : Protocol t p p' c c') :
    c'.result = c.result ∨ (p = .computing ∧ ∃ d, p' = .stored d) := by
  cases moved with
  | stay gate result => exact .inl result
  | store => exact .inr ⟨rfl, _, rfl⟩
  | _ => exact .inl rfl

theorem unset (moved : Protocol t p p' c c') (computing : p' = .computing)
    (before : p = .computing → c.result = none) : c'.result = none := by
  cases moved with
  | stay gate result => exact result.trans (before computing)
  | begin missing => exact missing
  | _ => cases computing

/-- A task goes on computing until it writes the result. -/
theorem of_computing (moved : Protocol t p p' c c') (computing : p = .computing) :
    p' = .computing ∨ ∃ d, c'.result = some d := by
  cases moved with
  | stay gate result => exact .inl computing
  | store => exact .inr ⟨_, rfl⟩
  | _ => cases computing

theorem known (moved : Protocol t p p' c c') {d : Document} (has : p'.result? = some d)
    (before : ∀ d, p.result? = some d → c.result = some d) : c'.result = some d := by
  cases moved with
  | stay gate result => exact result.trans (before d has)
  | hit found | found found => cases has; exact found
  | store => cases has; rfl
  | leave | pass | yield => exact before d has
  | enter free | begin missing => cases has

end Protocol

namespace Machine

variable {g : Graph} {m m' : Machine} {t k : TaskId} {r j : RunId} {n : Node} {id : NodeId}
  {began : Instant} {stage stage' : Stage} {work work' : Work} {e : Effect}

theorem CallStep.protocol (step : CallStep g m t r n began stage stage' e) :
    Protocol t stage.phase stage'.phase (m.cell n.id) (e.cell n.id (m.cell n.id)) := by
  cases step with
  | hit found => exact .hit found
  | enter free => simpa [Stage.phase] using Protocol.enter free
  | found found => exact .found found
  | fresh missing => exact .begin missing
  | store => simpa [Stage.phase] using Protocol.store
  | release => simpa [Stage.phase] using Protocol.leave
  | branch => exact .pass
  | yield => simpa [Stage.phase] using Protocol.yield
  | work step => exact .stay (step.cell_kept _).1 (step.cell_kept _).2
  | mark | blame | unmark | close | unbound | invoke =>
      refine .stay ?_ ?_ <;> simp
  | _ => exact .stay rfl rfl

/-- For each node, a step is one of its calls, by the protocol, or touches neither its gate
nor its result. -/
theorem Transition.protocol (rule : Transition g m t r work work' e) (id : NodeId) :
    (∃ began began' stage stage', work = .call id began stage ∧ work' = .call id began' stage' ∧
      Protocol t stage.phase stage'.phase (m.cell id) (e.cell id (m.cell id))) ∨
    ((∀ began stage, work ≠ .call id began stage) ∧ (∀ began stage, work' ≠ .call id began stage) ∧
      (e.cell id (m.cell id)).gate = (m.cell id).gate ∧
      (e.cell id (m.cell id)).result = (m.cell id).result) := by
  obtain ⟨n, _, _, _, _, -, rfl, rfl, rfl, step⟩ |
    ⟨none, none', same | ⟨n, x, x', -, rfl, -, -, step⟩⟩ := rule.node_cases id
  · exact .inl ⟨_, _, _, _, rfl, rfl, step.protocol⟩
  · exact .inr ⟨none, none', congrArg Cell.gate (same _), congrArg Cell.result (same _)⟩
  · exact .inr ⟨none, none', step.cell_kept _⟩

/-! ## The invariant -/

/-- No call is in progress. -/
structure Unoccupied (m : Machine) : Prop where
  done : ∀ r k id stage, m.Calling r k id stage → ∃ d, stage = .done d
  free : ∀ id, (m.cell id).gate = none

theorem AtRest.unoccupied (rest : m.AtRest g) : m.Unoccupied where
  done r k id stage calling := by
    obtain ⟨began, here⟩ := calling
    obtain done | harmless := rest.done k _ here
    · exact Task.answered done
    · exact harmless.elim
  free := rest.free

/-- Whoever holds the gate of a node is a call of it, inside. -/
def Held (m : Machine) : Prop := ∀ id k, (m.cell id).gate = some k →
  ∃ r stage, m.Calling r k id stage ∧ stage.phase.inside = true

/-- A gate is entered and left by the calls of its node, one at a time. -/
theorem Held.step (held : m.Held) (here : m.tasks[t]? = some ⟨r, work⟩)
    (rule : Transition g m t r work work' e) (after : After m t r work' e m') : m'.Held := by
  intro id k holds
  rw [after.cell] at holds
  obtain ⟨began, _, before, _, rfl, rfl, moved⟩ | ⟨noCall, -, gate, -⟩ := rule.protocol id
  · have mine : m.Calling r t id before := ⟨began, here⟩
    obtain ⟨gate, same⟩ | ⟨-, gate, -, inside⟩ | ⟨-, -, gate⟩ := moved.gate
    · obtain ⟨j, stage, there, inside⟩ := held id k (gate ▸ holds)
      by_cases me : k = t
      · subst me
        obtain ⟨-, -, rfl⟩ := mine.unique there
        exact ⟨r, _, ⟨_, after.here⟩, same.trans inside⟩
      · exact ⟨j, stage, there.kept after me, inside⟩
    · cases gate.symm.trans holds
      exact ⟨r, _, ⟨_, after.here⟩, inside⟩
    · cases gate.symm.trans holds
  · obtain ⟨j, stage, ⟨began, there⟩, inside⟩ := held id k (gate ▸ holds)
    have me : k ≠ t := by
      rintro rfl
      cases here.symm.trans there
      exact noCall _ _ rfl
    exact ⟨j, stage, ⟨began, after.kept me rfl there⟩, inside⟩

/-- A call inside the gate of its node holds it, and one that computes knows that there is no
result. -/
structure Gated (m : Machine) : Prop where
  held : ∀ {r k id stage}, m.Calling r k id stage → stage.phase.inside = true →
    (m.cell id).gate = some k
  unset : ∀ {r k id stage}, m.Calling r k id stage → stage.phase = .computing →
    (m.cell id).result = none

namespace Gated

variable (gated : m.Gated) (here : m.tasks[t]? = some ⟨r, work⟩)
  (rule : Transition g m t r work work' e) (after : After m t r work' e m')
include gated

/-- Only one call of a node is inside its gate. -/
theorem alone {stage₂ : Stage} (one : m.Calling r t id stage) (two : m.Calling j k id stage₂)
    (inside : stage.phase.inside = true) (inside₂ : stage₂.phase.inside = true) : k = t := by
  have holds := gated.held one inside
  rw [gated.held two inside₂] at holds
  exact Option.some.inj holds

include here rule after

theorem step_held (calling : m'.Calling j k id stage) (inside : stage.phase.inside = true) :
    (m'.cell id).gate = some k := by
  rw [after.cell]
  obtain ⟨began, _, before, _, rfl, rfl, moved⟩ | ⟨-, noCall, gate, -⟩ := rule.protocol id
  · have mine : m.Calling r t id before := ⟨began, here⟩
    obtain ⟨rfl, rfl, _, stands⟩ | ⟨other, there⟩ | ⟨-, rfl, -⟩ := after.calling_cases rule calling
    · cases stands
      obtain ⟨gate, same⟩ | ⟨-, gate, -⟩ | ⟨-, out, -⟩ := moved.gate
      · exact gate.trans (gated.held mine (same ▸ inside))
      · exact gate
      · cases inside.symm.trans out
    · obtain ⟨gate, -⟩ | ⟨free, -⟩ | ⟨also, -⟩ := moved.gate
      · exact gate.trans (gated.held there inside)
      · cases (gated.held there inside).symm.trans free
      · exact absurd (gated.alone mine there also inside) other
    · cases inside
  · rw [gate]
    obtain ⟨rfl, rfl, _, stands⟩ | ⟨-, there⟩ | ⟨-, rfl, -⟩ := after.calling_cases rule calling
    · exact absurd stands (noCall _ _)
    · exact gated.held there inside
    · cases inside

theorem step_unset (calling : m'.Calling j k id stage) (computing : stage.phase = .computing) :
    (m'.cell id).result = none := by
  rw [after.cell]
  obtain ⟨began, _, before, _, rfl, rfl, moved⟩ | ⟨-, noCall, -, result⟩ := rule.protocol id
  · have mine : m.Calling r t id before := ⟨began, here⟩
    obtain ⟨rfl, rfl, _, stands⟩ | ⟨other, there⟩ | ⟨-, rfl, -⟩ := after.calling_cases rule calling
    · cases stands
      exact moved.unset computing (gated.unset mine)
    · obtain kept | ⟨also, -⟩ := moved.result
      · exact kept.trans (gated.unset there computing)
      · exact absurd (gated.alone mine there (by rw [also]; rfl) (by rw [computing]; rfl)) other
    · cases computing
  · rw [result]
    obtain ⟨rfl, rfl, _, stands⟩ | ⟨-, there⟩ | ⟨-, rfl, -⟩ := after.calling_cases rule calling
    · exact absurd stands (noCall _ _)
    · exact gated.unset there computing
    · cases computing

/-- A result that is written stays. -/
theorem result_kept {d : Document} (has : (m.cell id).result = some d) :
    (m'.cell id).result = some d := by
  rw [after.cell]
  obtain ⟨began, _, stage, _, rfl, rfl, moved⟩ | ⟨-, -, -, same⟩ := rule.protocol id
  · obtain kept | ⟨computing, -⟩ := moved.result
    · rw [kept, has]
    · rw [gated.unset ⟨began, here⟩ computing] at has
      cases has
  · rw [same, has]

theorem step : m'.Gated where
  held := gated.step_held here rule after
  unset := gated.step_unset here rule after

end Gated

/-- What the calls of a node know of its gate and its result.  Tasks below `first` are of
earlier runs. -/
structure Memo (first : TaskId) (m : Machine) : Prop where
  bound : first ≤ m.tasks.size
  held : ∀ {r k id stage}, m.Calling r k id stage → stage.phase.inside = true →
    (m.cell id).gate = some k
  holder : ∀ {id k}, (m.cell id).gate = some k →
    ∃ r stage, m.Calling r k id stage ∧ stage.phase.inside = true
  unset : ∀ {r k id stage}, m.Calling r k id stage → stage.phase = .computing →
    (m.cell id).result = none
  known : ∀ {r k id stage d}, first ≤ k → m.Calling r k id stage → stage.phase.result? = some d →
    (m.cell id).result = some d
  past : ∀ {r k id stage}, k < first → m.Calling r k id stage → ∃ d, stage = .done d

namespace Memo

variable {first : TaskId} (memo : m.Memo first) (here : m.tasks[t]? = some ⟨r, work⟩)
  (rule : Transition g m t r work work' e) (after : After m t r work' e m')
include memo

theorem gated : m.Gated := ⟨memo.held, memo.unset⟩

/-- Only one call of a node is inside its gate. -/
theorem alone {stage₂ : Stage} (one : m.Calling r t id stage) (two : m.Calling j k id stage₂)
    (inside : stage.phase.inside = true) (inside₂ : stage₂.phase.inside = true) : k = t :=
  memo.gated.alone one two inside inside₂

/-- A call that goes on is one of this run. -/
theorem recent {work' : Work} (here : m.tasks[t]? = some ⟨r, .call id began stage⟩)
    (rule : Transition g m t r (.call id began stage) work' e) : first ≤ t := by
  by_cases past : t < first
  · obtain ⟨d, rfl⟩ := memo.past past ⟨began, here⟩
    cases rule.not_done
  · exact Nat.le_of_not_lt past

include here rule after

theorem result_kept {d : Document} (has : (m.cell id).result = some d) :
    (m'.cell id).result = some d :=
  memo.gated.result_kept here rule after has

theorem step_known {d : Document} (recent : first ≤ k) (calling : m'.Calling j k id stage)
    (has : stage.phase.result? = some d) : (m'.cell id).result = some d := by
  obtain ⟨rfl, rfl, _, rfl⟩ | ⟨other, there⟩ | ⟨-, rfl, -⟩ := after.calling_cases rule calling
  · rw [after.cell]
    obtain ⟨began, _, before, _, rfl, stands, moved⟩ | ⟨-, noCall, -⟩ := rule.protocol id
    · cases stands
      exact moved.known has fun d => memo.known recent ⟨began, here⟩
    · exact absurd rfl (noCall _ _)
  · exact memo.result_kept here rule after (memo.known recent there has)
  · cases has

theorem step_past (past : k < first) (calling : m'.Calling j k id stage) :
    ∃ d, stage = .done d := by
  obtain ⟨rfl, rfl, _, rfl⟩ | ⟨other, there⟩ | ⟨new, -⟩ := after.calling_cases rule calling
  · obtain ⟨began, _, before, _, rfl, -⟩ | ⟨-, noCall, -⟩ := rule.protocol id
    · obtain ⟨d, rfl⟩ := memo.past past ⟨began, here⟩
      cases rule.not_done
    · exact absurd rfl (noCall _ _)
  · exact memo.past past there
  · exact absurd past (Nat.not_lt_of_le (Nat.le_trans memo.bound new))

/-- Every step keeps the invariant, wherever the callers of a node stand. -/
theorem step : m'.Memo first where
  bound := by
    rw [after.size]
    exact Nat.le_trans memo.bound (Nat.le_add_right _ _)
  held := (memo.gated.step here rule after).held
  holder := Held.step (fun _ _ => memo.holder) here rule after _ _
  unset := (memo.gated.step here rule after).unset
  known := memo.step_known here rule after
  past := memo.step_past here rule after

end Memo

/-- A node has a result, or one is being computed for it. -/
def Begun (m : Machine) (id : NodeId) : Prop :=
  (∃ d, (m.cell id).result = some d) ∨ ∃ r k stage, m.Calling r k id stage ∧ stage.phase = .computing

/-- What has begun stays so. -/
theorem Begun.step {first : TaskId} (begun : m.Begun id) (memo : m.Memo first)
    (here : m.tasks[t]? = some ⟨j, work⟩)
    (rule : Transition g m t j work work' e) (after : After m t j work' e m') : m'.Begun id := by
  obtain ⟨d, has⟩ | ⟨i, k, stage, calling, computing⟩ := begun
  · exact .inl ⟨d, memo.result_kept here rule after has⟩
  · obtain ⟨-, stays⟩ | ⟨rfl, rfl, n, began, stage', known, rfl, step, stands⟩ :=
      calling.moved here rule after
    · exact .inr ⟨i, k, stage, stays, computing⟩
    · obtain still | ⟨d, has⟩ := step.protocol.of_computing computing
      · exact .inr ⟨i, k, stage', stands, still⟩
      · exact .inl ⟨d, (after.cell _).symm ▸ has⟩

/-- When a run starts, every call is an old one, or it is asked for. -/
theorem calling_begin {execution : ExecutionId} {inputs : RunInputs} {requests : List Request}
    (calling : (m.begin g execution inputs requests).Calling r k id stage) :
    (k < m.nextTask ∧ m.Calling r k id stage) ∨ (m.nextTask ≤ k ∧ stage = .probe) := by
  obtain ⟨began, here⟩ := calling
  obtain ⟨old, there⟩ | ⟨recent, q, -, made⟩ := begun_task here
  · exact .inl ⟨old, began, there⟩
  · cases q with
    | result node => cases made; exact .inr ⟨recent, rfl⟩
    | launch | settle => cases made

/-- If no call is in progress, the old ones are done. -/
theorem Unoccupied.calling_begin (unoccupied : m.Unoccupied) {execution : ExecutionId}
    {inputs : RunInputs} {requests : List Request}
    (calling : (m.begin g execution inputs requests).Calling r k id stage) :
    (k < m.nextTask ∧ ∃ d, stage = .done d) ∨ (m.nextTask ≤ k ∧ stage = .probe) := by
  obtain ⟨old, there⟩ | new := Machine.calling_begin calling
  · exact .inl ⟨old, unoccupied.done r k id stage there⟩
  · exact .inr new

/-- A run that starts while no call is in progress starts with the invariant. -/
theorem Unoccupied.memo (unoccupied : m.Unoccupied) (execution : ExecutionId) (inputs : RunInputs)
    (requests : List Request) : (m.begin g execution inputs requests).Memo m.nextTask := by
  refine ⟨?_, ?_, ?_, ?_, ?_, ?_⟩
  · rw [size_begin]
    exact Nat.le_add_right _ _
  · intro r k id stage calling inside
    obtain ⟨-, d, rfl⟩ | ⟨-, rfl⟩ := unoccupied.calling_begin calling <;> cases inside
  · intro id k holds
    rw [cell_begin] at holds
    cases (unoccupied.free id).symm.trans holds
  · intro r k id stage calling computing
    obtain ⟨-, d, rfl⟩ | ⟨-, rfl⟩ := unoccupied.calling_begin calling <;> cases computing
  · intro r k id stage d recent calling has
    obtain ⟨old, -⟩ | ⟨-, rfl⟩ := unoccupied.calling_begin calling
    · exact absurd old (Nat.not_lt_of_le recent)
    · cases has
  · intro r k id stage past calling
    obtain ⟨-, done⟩ | ⟨recent, -⟩ := unoccupied.calling_begin calling
    · exact done
    · exact absurd past (Nat.not_lt_of_le recent)

end Machine
end Flowgraph
