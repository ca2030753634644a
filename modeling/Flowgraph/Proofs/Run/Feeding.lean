/- # Flowgraph.Proofs.Run.Feeding -- what a node has got from its upstreams

While a call asks the upstreams of its node, what it fetched so far stands beside
them one by one: nothing, a result that was there, or the task of a call
(`Fetched`).  When it goes on, every one of these tasks is done, so every upstream
that the node waits for has its result (`Fed`), and results stay.
-/
import Mathlib.Data.List.Forall2
import Flowgraph.Proofs.Run.Deeds
import Flowgraph.Proofs.Run.Memo

set_option autoImplicit false

namespace Flowgraph

namespace Machine

variable {g : Graph} {m m' : Machine} {t k first : TaskId} {r j : RunId} {n : Node} {id : NodeId}
  {began : Instant} {stage stage' : Stage} {work work' : Work} {e : Effect}

/-- What may be fetched from an upstream. -/
inductive Fetched (g : Graph) (first : TaskId) (m : Machine) : Upstream → Fetch → Prop
  | unknown {u} (unknown : g.node? u.node = none) : Fetched g first m u .absent
  | missed {u} (port : u.viaPort = true) : Fetched g first m u .absent
  | present {u d} (port : u.viaPort = true) (has : (m.cell u.node).result = some d) :
      Fetched g first m u (.present d)
  | awaited {u r k stage} (waits : u.viaPort = false) (recent : first ≤ k)
      (calling : m.Calling r k u.node stage) : Fetched g first m u (.awaited k)

/-- Every upstream that a node waits for has its result. -/
def Fed (g : Graph) (m : Machine) (n : Node) : Prop :=
  ∀ u ∈ n.upstream, u.viaPort = false → (g.node? u.node).isSome = true →
    ∃ d, (m.cell u.node).result = some d

/-- What a call of a node has from the upstreams at a stage. -/
def Intake (g : Graph) (first : TaskId) (m : Machine) (n : Node) : Stage → Prop
  | .gather fetched left =>
    ∃ asked, n.upstream = asked ++ left ∧ List.Forall₂ (Fetched g first m) asked fetched
  | .join fetched => List.Forall₂ (Fetched g first m) n.upstream fetched
  | .scope _ | .record _ _ | .run _ _ | .report _ | .blame _ | .store _ => Fed g m n
  | _ => True

/-- Every call knows what it asked and got, and no result was written without what it needs. -/
structure Feeding (g : Graph) (first : TaskId) (m : Machine) : Prop where
  calls : ∀ {r k id n stage}, m.Calling r k id stage → g.node? id = some n → Intake g first m n stage
  results : ∀ {id n d}, (m.cell id).result = some d → g.node? id = some n → Fed g m n

theorem Memo.done_of_isDone (memo : m.Memo first) (recent : first ≤ k)
    (calling : m.Calling r k id stage) (done : m.isDone k = true) :
    ∃ d, stage = .done d ∧ (m.cell id).result = some d := by
  obtain ⟨began, here⟩ := calling
  simp only [isDone, here] at done
  obtain ⟨d, rfl⟩ := Task.answered done
  exact ⟨d, rfl, memo.known recent ⟨began, here⟩ rfl⟩

/-- When everything that was fetched is done, all that a node waits for is there. -/
theorem Memo.fed_of_all (memo : m.Memo first) {asked : List Upstream} {fetched : List Fetch}
    (got : List.Forall₂ (Fetched g first m) asked fetched) (all : m.fetchedAll fetched = true) :
    ∀ u ∈ asked, u.viaPort = false → (g.node? u.node).isSome = true →
      ∃ d, (m.cell u.node).result = some d := by
  induction got with
  | nil => exact fun u none => absurd none (by simp)
  | @cons u f asked fetched one _ ih =>
      simp only [fetchedAll, List.all_cons, Bool.and_eq_true] at all
      intro v member waits known
      obtain rfl | later := List.mem_cons.1 member
      · cases one with
        | unknown unknown =>
            rw [unknown] at known
            cases known
        | missed port | present port =>
            rw [port] at waits
            cases waits
        | awaited _ recent calling =>
            obtain ⟨d, -, has⟩ := memo.done_of_isDone recent calling all.1
            exact ⟨d, has⟩
      · exact ih all.2 v later waits known

section Step

variable (memo : m.Memo first) (here : m.tasks[t]? = some ⟨r, work⟩)
  (rule : Transition g m t r work work' e) (after : After m t r work' e m')
include memo here rule after

theorem Fetched.step {u : Upstream} {f : Fetch} (one : Fetched g first m u f) :
    Fetched g first m' u f := by
  cases one with
  | unknown unknown => exact .unknown unknown
  | missed port => exact .missed port
  | present port has => exact .present port (memo.result_kept here rule after has)
  | awaited waits recent calling =>
      obtain ⟨_, stands⟩ := calling.still here rule after
      exact .awaited waits recent stands

theorem Fed.step (fed : Fed g m n) : Fed g m' n := by
  intro u linked waits known
  obtain ⟨d, has⟩ := fed u linked waits known
  exact ⟨d, memo.result_kept here rule after has⟩

theorem Intake.step (intake : Intake g first m n stage) : Intake g first m' n stage := by
  have grown : ∀ u f, Fetched g first m u f → Fetched g first m' u f :=
    fun _ _ one => one.step memo here rule after
  cases stage with
  | gather fetched left =>
      obtain ⟨asked, same, got⟩ := intake
      exact ⟨asked, same, got.imp grown⟩
  | join fetched => exact List.Forall₂.imp grown intake
  | scope | record | run | report | blame | store => exact Fed.step memo here rule after intake
  | _ => trivial

end Step

/-- Asking one more upstream. -/
theorem Intake.ask {u : Upstream} {f : Fetch} {fetched : List Fetch} {left : List Upstream}
    (intake : Intake g first m n (.gather fetched (u :: left))) (one : Fetched g first m u f) :
    Intake g first m n (.gather (fetched ++ [f]) left) := by
  obtain ⟨asked, same, got⟩ := intake
  refine ⟨asked ++ [u], by simpa using same, ?_⟩
  exact List.rel_append got (.cons one .nil)

theorem CallStep.intake (step : CallStep g m t r n began stage stage' e) (memo : m.Memo first)
    (here : m.tasks[t]? = some ⟨r, .call id began stage⟩)
    (rule : Transition g m t r (.call id began stage) work' e) (after : After m t r work' e m')
    (intake : Intake g first m n stage) : Intake g first m' n stage' := by
  have still : Intake g first m' n stage := intake.step memo here rule after
  cases step with
  | announce => exact ⟨[], rfl, .nil⟩
  | asked =>
      obtain ⟨asked, same, got⟩ := still
      rw [List.append_nil] at same
      show List.Forall₂ (Fetched g first m') n.upstream _
      rw [same]
      exact got
  | skip unknown => exact still.ask (.unknown unknown)
  | seen there port found =>
      exact still.ask (.present port (memo.result_kept here rule after found))
  | unseen there port missing => exact still.ask (.missed port)
  | @pull fetched u left there waits =>
      have new : m'.Calling r m.tasks.size u.node .probe := ⟨_, after.started here (i := 0) rfl⟩
      exact still.ask (.awaited waits memo.bound new)
  | join all => exact Fed.step memo here rule after (memo.fed_of_all intake all)
  | noScope | scope | unbound | invoke | finish | completed | failed | blame => exact still
  | work step => exact still
  | _ => trivial

theorem Feeding.step (feeding : m.Feeding g first) (memo : m.Memo first)
    (here : m.tasks[t]? = some ⟨r, work⟩) (rule : Transition g m t r work work' e)
    (after : After m t r work' e m') : m'.Feeding g first where
  calls := by
    intro j k id n stage calling known
    obtain ⟨rfl, rfl, began, rfl⟩ | ⟨-, there⟩ | ⟨-, rfl, -⟩ := after.calling_cases rule calling
    · have full := rule
      cases rule with
      | call known' step =>
          cases known.symm.trans known'
          exact step.intake memo here full after (feeding.calls ⟨_, here⟩ known)
    · exact (feeding.calls there known).step memo here rule after
    · trivial
  results := by
    intro id n d has known
    rw [after.cell] at has
    obtain same | ⟨d', stored, -⟩ := rule.result id
    · exact (feeding.results (same.symm.trans has) known).step memo here rule after
    · obtain ⟨-, began, began', rfl, rfl⟩ := rule.of_stored stored
      have fed : Fed g m n := feeding.calls ⟨_, here⟩ known
      exact fed.step memo here rule after

/-- The clock feeds nobody. -/
theorem Feeding.tick (feeding : m.Feeding g first) (now : Instant) :
    Feeding g first { m with now := now } where
  calls := by
    intro r k id n stage calling known
    have intake := feeding.calls calling known
    have same : ∀ u f, Fetched g first m u f → Fetched g first { m with now := now } u f := by
      intro u f one
      cases one with
      | unknown unknown => exact .unknown unknown
      | missed port => exact .missed port
      | present port has => exact .present port has
      | awaited waits recent calling => exact .awaited waits recent calling
    cases stage with
    | gather fetched left =>
        obtain ⟨asked, whole, got⟩ := intake
        exact ⟨asked, whole, got.imp same⟩
    | join fetched => exact List.Forall₂.imp same intake
    | scope | record | run | report | blame | store => exact intake
    | _ => trivial
  results := feeding.results

theorem Unoccupied.feeding (unoccupied : m.Unoccupied) (execution : ExecutionId)
    (inputs : RunInputs) (requests : List Request) :
    (m.begin g execution inputs requests).Feeding g m.nextTask where
  calls := by
    intro r k id n stage calling known
    obtain ⟨-, d, rfl⟩ | ⟨-, rfl⟩ := unoccupied.calling_begin calling <;> trivial
  results := by
    intro id n d has
    rw [cell_begin] at has
    cases has

end Machine
end Flowgraph
