/- # Flowgraph.Proofs.Run.Shapes -- the shape of results and of inputs

Every document that a call of a node holds on its way to a result is an envelope, from what it
fetches to what it answers (`Stage.Shaped`).  What it stores has an output if the node has been
told to have completed, and only an error if it has been told to have failed (`Node.Ended`).  This
holds along every session, for one call of a node at a time computes and tells.

The record of a failure goes another way than the telling: it is in the cell of the node, which
the start of a run resets.  It agrees with the result for what calls of the current run have stored
(`Recorded`).

What a call found at its upstreams stands beside them one by one (`Finds`): the answer of a call
that it waited for, or what was there when it looked.  A scope is bound with the merge of that
under `input`.
-/
import Flowgraph.Proofs.Graph.Wiring
import Flowgraph.Proofs.Run.Envelope
import Flowgraph.Proofs.Run.Lifecycle
import Flowgraph.Proofs.Run.Settling
import Flowgraph.Proofs.Run.Snapshot

set_option autoImplicit false

namespace Flowgraph

/-! ## Stages -/

namespace Node

/-- A document that can be the result of a node. -/
def IsResult (n : Node) (d : Document) : Prop := n.Completes d ∨ n.Fails d

/-- The result of a node agrees with what was last told of it. -/
def Ended (n : Node) (told : Option NodeFact) (d : Document) : Prop :=
  (∃ milliseconds, told = some (.completed milliseconds) ∧ n.Completes d) ∨
    ∃ message, told = some (.failed n.name message) ∧ n.Fails d

/-- The result of a node agrees with the error that is recorded of it, if there is one. -/
def Agrees (n : Node) : Option NodeError → Document → Prop
  | none, d => n.Completes d
  | some _, d => n.Fails d

variable {n : Node} {told : Option NodeFact} {d : Document}

theorem Ended.isResult (ended : n.Ended told d) : n.IsResult d := by
  rcases ended with ⟨_, -, completes⟩ | ⟨_, -, fails⟩
  · exact .inl completes
  · exact .inr fails

theorem IsResult.envelope (result : n.IsResult d) : d.Envelope := by
  rcases result with completes | fails
  · exact completes.envelope
  · exact fails.envelope

end Node

/-- What a call of a node holds at a stage, when this is what was last told of the node. -/
def Stage.Shaped (n : Node) (told : Option NodeFact) : Stage → Prop
  | .gather fetched _ | .join fetched => ∀ d, .present d ∈ fetched → d.Envelope
  | .scope received | .record received _ | .run received _ => received.Envelope
  | .report outcome => ∀ d, outcome = .ok d → n.Completes d
  | .blame e => told = some (.failed n.name e.message)
  | .store d => n.Ended told d
  | .publish d | .unmark d | .release d | .close d | .branch d _ | .yield d | .done d => n.IsResult d
  | _ => True

/-- What is told of a node matters to nobody but the call that computes. -/
theorem Stage.Shaped.retold {n : Node} {told told' : Option NodeFact} {stage : Stage}
    (shaped : stage.Shaped n told) (idle : stage.phase ≠ .computing) : stage.Shaped n told' := by
  cases stage with
  | blame | store => exact absurd rfl idle
  | _ => exact shaped

namespace Machine

variable {g : Graph} {m m' : Machine} {t k first : TaskId} {r j : RunId} {n : Node} {id : NodeId}
  {began : Instant} {stage stage' : Stage} {work work' : Work} {e : Effect} {d : Document}
  {now : Instant} {acts : List Act} {h : List Deed}

/-- What was last told of the life of a node. -/
def lastTold (m : Machine) (id : NodeId) : Option NodeFact :=
  (lifeOf id (m.events.map Event.fact)).getLast?

theorem After.lastTold (after : After m t r work' e m') (rule : Transition g m t r work work' e)
    (kept : m.Kept) (here : m.tasks[t]? = some ⟨r, work⟩) (id : NodeId) :
    m'.lastTold id = (lifeOf id e.facts).getLast?.or (m.lastTold id) := by
  obtain ⟨run, running⟩ := kept.running here
  have facts : (e.facts.map fun fact => (⟨run.execution, m.now, fact⟩ : Event)).map Event.fact =
      e.facts := by
    rw [List.map_map]
    exact List.map_id _
  rw [Machine.lastTold, Machine.lastTold, after.events rule running, List.map_append, facts,
    lifeOf_append, List.getLast?_append]

/-- Every call holds what has the shape of its stage, and every result agrees with what was told. -/
structure Shaped (g : Graph) (m : Machine) : Prop where
  calls : ∀ {r k id stage}, m.Calling r k id stage →
    stage = .probe ∨ ∃ n, g.node? id = some n ∧ stage.Shaped n (m.lastTold id)
  results : ∀ {id d}, (m.cell id).result = some d →
    ∃ n, g.node? id = some n ∧ n.Ended (m.lastTold id) d

namespace Shaped

variable (shaped : m.Shaped g)
include shaped

theorem answer (calling : m.Calling r k id (.done d)) : ∃ n, g.node? id = some n ∧ n.IsResult d := by
  rcases shaped.calls calling with probe | ⟨n, known, result⟩
  · cases probe
  · exact ⟨n, known, result⟩

/-- What was fetched is in envelopes when it is there. -/
theorem fetched {fetched : List Fetch} (present : ∀ d, .present d ∈ fetched → d.Envelope) :
    ∀ d ∈ m.fetchedResults fetched, d.Envelope := by
  intro d member
  obtain ⟨f, there, brings⟩ := List.mem_filterMap.1 member
  cases f with
  | absent => cases brings
  | present d' =>
      cases brings
      exact present d there
  | awaited c =>
      obtain ⟨⟨r, work⟩, here, gives⟩ := Option.bind_eq_some_iff.1 brings
      unfold Task.result? at gives
      split at gives
      · rename_i id began d' stands
        cases gives
        obtain ⟨n, -, result⟩ := shaped.answer (d := d) ⟨began, here.trans (by cases stands; rfl)⟩
        exact result.envelope
      · cases gives

/-- Each step of a call leads to what has the shape of the next stage. -/
theorem next (known : g.node? n.id = some n) (calling : m.Calling r t n.id stage)
    (step : CallStep g m t r n began stage stage' e) :
    stage'.Shaped n ((lifeOf n.id e.facts).getLast?.or (m.lastTold n.id)) := by
  have stored {d} (found : (m.cell n.id).result = some d) : n.IsResult d := by
    obtain ⟨n', known', ended⟩ := shaped.results found
    cases known.symm.trans known'
    exact ended.isResult
  have holds : stage.Shaped n (m.lastTold n.id) := by
    rcases shaped.calls calling with rfl | ⟨n', known', holds⟩
    · trivial
    · cases known.symm.trans known'
      exact holds
  cases step with
  | hit found | found found => exact stored found
  | announce => exact nofun
  | skip | unseen | pull =>
      intro d member
      rcases List.mem_append.1 member with before | new
      · exact holds d before
      · cases List.mem_singleton.1 new
  | seen _ _ found =>
      intro d member
      rcases List.mem_append.1 member with before | new
      · exact holds d before
      · cases List.mem_singleton.1 new
        obtain ⟨u, -, ended⟩ := shaped.results found
        exact ended.isResult.envelope
  | join => exact (mergeResults_envelope (shaped.fetched holds)).1
  | noScope | unbound => exact nofun
  | finish => exact fun d concluded => Node.completes_of_conclude holds concluded
  | @completed d =>
      rw [lifeOf_vital _ rfl]
      exact .inl ⟨_, rfl, holds d rfl⟩
  | failed =>
      rw [lifeOf_vital _ rfl]
      rfl
  | blame => exact .inr ⟨_, holds, Node.fails_failure n _ _⟩
  | store => exact Node.Ended.isResult holds
  | asked | scope | invoke | work | publish | unmark | release | close | branch | yield => exact holds
  | _ => trivial

section Step

variable (gated : m.Gated) (kept : m.Kept) (here : m.tasks[t]? = some ⟨r, work⟩)
  (rule : Transition g m t r work work' e) (after : After m t r work' e m')
include gated kept here rule after

theorem step_calls (calling : m'.Calling j k id stage) :
    stage = .probe ∨ ∃ n, g.node? id = some n ∧ stage.Shaped n (m'.lastTold id) := by
  rcases after.calling_cases rule calling with ⟨rfl, rfl, began, stands⟩ | ⟨other, there⟩ | ⟨-, new, -⟩
  · rcases rule.life_cases id with ⟨n, _, _, before, _, known, rfl, rfl, is, step⟩ | ⟨-, noCall, -⟩
    · cases is.symm.trans stands
      refine .inr ⟨n, known, ?_⟩
      rw [after.lastTold rule kept here]
      exact shaped.next known ⟨_, here⟩ step
    · exact absurd stands (noCall _ _)
  · rcases shaped.calls there with probe | ⟨n, known, holds⟩
    · exact .inl probe
    refine .inr ⟨n, known, ?_⟩
    rw [after.lastTold rule kept here]
    rcases rule.life_cases id with ⟨n', _, _, before, _, -, rfl, rfl, -, step⟩ | ⟨-, -, -, -, silent⟩
    · by_cases computing : before.phase = .computing
      · -- the gate lets nobody compute beside the call that tells
        refine holds.retold fun computes => other ?_
        exact gated.alone ⟨_, here⟩ there (by rw [computing]; rfl) (by rw [computes]; rfl)
      · obtain ⟨-, -, silent, -⟩ := step.untold computing
        rw [silent]
        exact holds
    · rw [silent]
      exact holds
  · exact .inl new

theorem step_results (has : (m'.cell id).result = some d) :
    ∃ n, g.node? id = some n ∧ n.Ended (m'.lastTold id) d := by
  rw [after.cell] at has
  rw [after.lastTold rule kept here]
  rcases rule.life_cases id with ⟨n, _, _, before, _, known, rfl, rfl, -, step⟩ |
    ⟨-, -, same, -, silent⟩
  · by_cases computing : before.phase = .computing
    · rcases rule.result n.id with same | ⟨d', stored, now⟩
      · rw [same, gated.unset ⟨_, here⟩ computing] at has
        cases has
      · cases now.symm.trans has
        obtain ⟨-, _, _, stands, -⟩ := rule.of_stored stored
        cases stands
        rcases shaped.calls ⟨_, here⟩ with probe | ⟨n', known', ended⟩
        · cases probe
        · cases step
          exact ⟨n', known', ended⟩
    · obtain ⟨same, -, silent, -⟩ := step.untold computing
      rw [silent]
      exact shaped.results (same.symm.trans has)
  · rw [silent]
    exact shaped.results (same.symm.trans has)

theorem step : m'.Shaped g where
  calls := shaped.step_calls gated kept here rule after
  results := shaped.step_results gated kept here rule after

end Step

theorem begin (execution : ExecutionId) (inputs : RunInputs) (requests : List Request) :
    (m.begin g execution inputs requests).Shaped g where
  calls := by
    intro r k id stage calling
    rcases calling_begin calling with ⟨-, there⟩ | ⟨-, new⟩
    · exact shaped.calls there
    · exact .inl new
  results := by
    intro id d has
    rw [cell_begin] at has
    cases has

end Shaped

theorem shaped_session (now : Instant) (acts : List Act) : (session g now acts).Shaped g := by
  refine history_induction g now (P := fun acts => (session g now acts).Shaped g) ?_ ?_ ?_ ?_ acts
  · refine ⟨?_, nofun⟩
    rintro _ _ _ _ ⟨_, here⟩
    simp [session, new] at here
  · intro acts execution inputs requests shaped
    rw [session_start]
    exact shaped.begin execution inputs requests
  · intro acts t r work work' e shaped here rule after
    exact shaped.step (gated_session acts) (kept_session now acts) here rule after
  · intro acts v now' shaped same
    rw [same]
    exact ⟨shaped.calls, shaped.results⟩

/-! ## What is recorded of a failure -/

/-- An error that is recorded comes with a result, or with a call that is about to store one; and
what the calls of the current run store, those from the task `first` on, agrees with it. -/
structure Recorded (g : Graph) (first : TaskId) (h : List Deed) (m : Machine) : Prop where
  blamed : ∀ {id}, (m.cell id).error.isSome = true →
    (m.cell id).result.isSome = true ∨ ∃ r k d, m.Calling r k id (.store d)
  storing : ∀ {r k id d}, first ≤ k → m.Calling r k id (.store d) →
    ∃ n, g.node? id = some n ∧ n.Agrees (m.cell id).error d
  stored : ∀ {id k d}, first ≤ k → .stored id k d ∈ h → (m.cell id).result = some d ∧
    ∃ n, g.node? id = some n ∧ n.Agrees (m.cell id).error d

namespace Recorded

variable (recorded : m.Recorded g first h) (gated : m.Gated)
include recorded

theorem concluded {cause : NodeError} (error : (m.cell id).error = some cause) : m.Concluded id :=
  (recorded.blamed (by rw [error]; rfl)).imp_left Option.isSome_iff_exists.1

include gated

/-- No error is recorded while a call is on its way to a result. -/
theorem unblamed (calling : m.Calling r k id stage) (computing : stage.phase = .computing)
    (early : ∀ d, stage ≠ .store d) : (m.cell id).error = none := by
  cases error : (m.cell id).error with
  | none => rfl
  | some cause =>
      exact absurd (recorded.concluded error) (gated.not_concluded calling computing early)

variable (shaped : m.Shaped g) (here : m.tasks[t]? = some ⟨r, work⟩)
  (rule : Transition g m t r work work' e) (after : After m t r work' e m')
include here rule after

omit gated in
theorem step_blamed (error : (m'.cell id).error.isSome = true) :
    (m'.cell id).result.isSome = true ∨ ∃ r k d, m'.Calling r k id (.store d) := by
  obtain ⟨cause, error⟩ := Option.isSome_iff_exists.1 error
  have concluded := after.concluded here rule (fun _ => recorded.concluded) error
  exact concluded.imp_left Option.isSome_iff_exists.2

include shaped in
theorem step_storing (recent : first ≤ k) (storing : m'.Calling j k id (.store d)) :
    ∃ n, g.node? id = some n ∧ n.Agrees (m'.cell id).error d := by
  rcases after.calling_cases rule storing with ⟨rfl, rfl, _, stands⟩ | ⟨other, there⟩ | ⟨-, new, -⟩
  · rw [after.cell]
    rcases rule.life_cases id with ⟨n, _, _, before, _, known, rfl, rfl, is, step⟩ | ⟨-, noCall, -⟩
    · cases is.symm.trans stands
      refine ⟨n, known, ?_⟩
      cases step with
      | completed =>
          rcases shaped.calls ⟨_, here⟩ with probe | ⟨n', known', completes⟩
          · cases probe
          · cases known.symm.trans known'
            show n.Agrees (m.cell n.id).error d
            rw [recorded.unblamed gated ⟨_, here⟩ rfl nofun]
            exact completes d rfl
      | @blame cause =>
          have error : (onCell n.id (fun c => { c with error := some cause }) n.id
            (m.cell n.id)).error = some cause := by simp
          rw [error]
          exact Node.fails_failure n cause m.now
    · exact absurd stands (noCall _ _)
  · rw [gated.error_kept here rule after there rfl other]
    exact recorded.storing recent there
  · cases new

theorem step_stored (recent : first ≤ k) (stored : .stored id k d ∈ h ++ e.deeds) :
    (m'.cell id).result = some d ∧ ∃ n, g.node? id = some n ∧ n.Agrees (m'.cell id).error d := by
  rcases List.mem_append.1 stored with before | new
  · obtain ⟨has, agrees⟩ := recorded.stored recent before
    refine ⟨gated.result_kept here rule after has, ?_⟩
    rw [after.cell]
    rcases rule.error id with same | ⟨n, _, _, cause, -, rfl, -⟩
    · rwa [same]
    · cases has.symm.trans (gated.unset ⟨_, here⟩ rfl)
  · obtain ⟨rfl, _, _, rfl, rfl⟩ := rule.of_stored new
    have agrees := recorded.storing recent ⟨_, here⟩
    rw [after.cell]
    cases rule with
    | call known step =>
        cases Graph.id_of_node? known
        cases step
        simpa using agrees

include shaped in
theorem step : m'.Recorded g first (h ++ e.deeds) where
  blamed := recorded.step_blamed here rule after
  storing := recorded.step_storing gated shaped here rule after
  stored := recorded.step_stored gated here rule after

end Recorded

theorem recorded_begin (past : Machine) (execution : ExecutionId) (inputs : RunInputs)
    (requests : List Request) :
    (past.begin g execution inputs requests).Recorded g past.nextTask [] where
  blamed := by
    intro id error
    rw [cell_begin] at error
    cases error
  storing := by
    intro r k id d recent storing
    rcases calling_begin storing with ⟨old, -⟩ | ⟨-, new⟩
    · exact absurd recent (Nat.not_le_of_lt old)
    · cases new
  stored := nofun

/-! ## What a call found at its upstreams -/

/-- A call that has its answer keeps it. -/
theorem answered_acts (answered : m.Calling r k id (.done d)) (acts : List Act) :
    (acts.foldl (act g) m).Calling r k id (.done d) := by
  refine acts_induction (P := fun m => m.Calling r k id (.done d)) ?_ ?_ ?_ answered acts
  · rintro m execution inputs requests ⟨began, here⟩
    exact ⟨began, tasks_begin_old here⟩
  · intro m t r' work work' e m' answered here rule after
    rcases answered.moved here rule after with ⟨-, still⟩ | ⟨-, -, _, _, _, -, -, step, -⟩
    · exact still
    · cases step
  · intro m now answered
    exact answered

theorem calling_acts (calling : m.Calling r k id stage) (acts : List Act) :
    ∃ stage', (acts.foldl (act g) m).Calling r k id stage' := by
  refine acts_induction (P := fun m => ∃ stage, m.Calling r k id stage) ?_ ?_ ?_ ⟨stage, calling⟩ acts
  · rintro m execution inputs requests ⟨stage, began, here⟩
    exact ⟨stage, began, tasks_begin_old here⟩
  · rintro m t r' work work' e m' ⟨stage, calling⟩ here rule after
    exact calling.still here rule after
  · intro m now calling
    exact calling

/-- What the call `k` of a node found at an upstream: the answer of a call in the same run if the
node waits for the upstream, and otherwise its result at the moment when the call looked, if there
was one. -/
inductive Finds (g : Graph) (now : Instant) (acts : List Act) (r : RunId) (k : TaskId) (id : NodeId)
    (u : Upstream) : Option Document → Prop
  | answered {c : TaskId} {d : Document} (waits : u.viaPort = false)
      (answer : (session g now acts).Calling r c u.node (.done d)) :
      Finds g now acts r k id u (some d)
  | looked {before : List Act} {fetched : List Fetch} {left : List Upstream}
      (port : u.viaPort = true) (early : before ++ [.move (.step k)] <+: acts)
      (asks : (session g now before).Calling r k id (.gather fetched (u :: left))) :
      Finds g now acts r k id u ((session g now before).cell u.node).result

/-- What the call `k` fetched from an upstream: what it found, or a call that will answer. -/
inductive Asked (g : Graph) (now : Instant) (acts : List Act) (r : RunId) (k : TaskId) (id : NodeId)
    (u : Upstream) : Fetch → Prop
  | absent (finds : Finds g now acts r k id u none) : Asked g now acts r k id u .absent
  | present {d : Document} (finds : Finds g now acts r k id u (some d)) :
      Asked g now acts r k id u (.present d)
  | awaited {c : TaskId} {stage : Stage} (waits : u.viaPort = false)
      (calling : (session g now acts).Calling r c u.node stage) :
      Asked g now acts r k id u (.awaited c)

/-- A call received the merge of what it found at its upstreams. -/
def Received (g : Graph) (now : Instant) (acts : List Act) (r : RunId) (k : TaskId) (n : Node)
    (received : Document) : Prop :=
  ∃ found, List.Forall₂ (Finds g now acts r k n.id) n.upstream found ∧
    received = mergeResults found.reduceOption

/-- Where what a call holds at a stage comes from. -/
def Sourced (g : Graph) (now : Instant) (acts : List Act) (r : RunId) (k : TaskId) (n : Node) :
    Stage → Prop
  | .gather fetched left => ∃ asked, n.upstream = asked ++ left ∧
    List.Forall₂ (Asked g now acts r k n.id) asked fetched
  | .join fetched => List.Forall₂ (Asked g now acts r k n.id) n.upstream fetched
  | .scope received | .record received _ => Received g now acts r k n received
  | _ => True

section Later

variable (last : Act) {u : Upstream}

theorem Finds.later {found : Option Document} (finds : Finds g now acts r k id u found) :
    Finds g now (acts ++ [last]) r k id u found := by
  cases finds with
  | @answered c d waits answer =>
      have kept : (session g now (acts ++ [last])).Calling r c u.node (.done d) := by
        rw [session_append]
        exact answered_acts answer _
      exact .answered waits kept
  | looked port early asks => exact .looked port (early.trans (List.prefix_append ..)) asks

theorem Asked.later {f : Fetch} (asked : Asked g now acts r k id u f) :
    Asked g now (acts ++ [last]) r k id u f := by
  cases asked with
  | absent finds => exact .absent (finds.later last)
  | present finds => exact .present (finds.later last)
  | awaited waits calling =>
      obtain ⟨_, stands⟩ := calling_acts (g := g) calling [last]
      rw [← session_append] at stands
      exact .awaited waits stands

theorem Received.later {received : Document} (got : Received g now acts r k n received) :
    Received g now (acts ++ [last]) r k n received := by
  obtain ⟨found, finds, same⟩ := got
  exact ⟨found, finds.imp fun _ _ one => one.later last, same⟩

theorem Sourced.later (sourced : Sourced g now acts r k n stage) :
    Sourced g now (acts ++ [last]) r k n stage := by
  cases stage with
  | gather fetched left =>
      obtain ⟨asked, same, got⟩ := sourced
      exact ⟨asked, same, got.imp fun _ _ one => one.later last⟩
  | join fetched => exact List.Forall₂.imp (fun _ _ one => one.later last) sourced
  | scope | record => exact Received.later last sourced
  | _ => trivial

end Later

/-- Asking one more upstream. -/
theorem Sourced.ask {u : Upstream} {f : Fetch} {fetched : List Fetch} {left : List Upstream}
    (sourced : Sourced g now acts r k n (.gather fetched (u :: left)))
    (one : Asked g now acts r k n.id u f) :
    Sourced g now acts r k n (.gather (fetched ++ [f]) left) := by
  obtain ⟨asked, same, got⟩ := sourced
  exact ⟨asked ++ [u], by simpa using same, List.rel_append got (.cons one .nil)⟩

/-- When all that was asked is there, it is what was found. -/
theorem finds_all {asked : List Upstream} {fetched : List Fetch}
    (got : List.Forall₂ (Asked g now acts r k id) asked fetched)
    (all : (session g now acts).fetchedAll fetched = true) :
    List.Forall₂ (Finds g now acts r k id) asked (fetched.map (session g now acts).brought) := by
  induction got with
  | nil => exact .nil
  | cons one _ ih =>
      simp only [fetchedAll, List.all_cons, Bool.and_eq_true] at all
      refine .cons ?_ (ih all.2)
      cases one with
      | absent finds | present finds => exact finds
      | @awaited c stage waits calling =>
          have done := all.1
          obtain ⟨began, here⟩ := calling
          simp only [isDone, here] at done
          obtain ⟨d, rfl⟩ := Task.answered done
          have given : (session g now acts).brought (.awaited c) = some d := by
            rw [brought, resultOf?, here]
            rfl
          rw [given]
          exact .answered waits ⟨began, here⟩

theorem CallStep.sourced (step : CallStep g (session g now acts) t r n began stage stage' e)
    (here : (session g now acts).tasks[t]? = some ⟨r, .call n.id began stage⟩)
    (after : After (session g now acts) t r work' e (session g now (acts ++ [.move (.step t)])))
    (known : ∀ u ∈ n.upstream, (g.node? u.node).isSome = true)
    (sourced : Sourced g now acts r t n stage) :
    Sourced g now (acts ++ [.move (.step t)]) r t n stage' := by
  have still : Sourced g now (acts ++ [.move (.step t)]) r t n stage := sourced.later _
  cases step with
  | announce => exact ⟨[], rfl, .nil⟩
  | asked =>
      obtain ⟨asked, same, got⟩ := still
      rw [List.append_nil] at same
      show List.Forall₂ _ n.upstream _
      rw [same]
      exact got
  | @skip fetched u left unknown =>
      obtain ⟨asked, same, -⟩ := sourced
      have there := known u (by rw [same]; simp)
      rw [unknown] at there
      cases there
  | seen _ port found =>
      have looked := Finds.looked port (List.prefix_refl _) ⟨began, here⟩
      rw [found] at looked
      exact still.ask (.present looked)
  | unseen _ port missing =>
      have looked := Finds.looked port (List.prefix_refl _) ⟨began, here⟩
      rw [missing] at looked
      exact still.ask (.absent looked)
  | pull _ waits => exact still.ask (.awaited waits ⟨_, after.started here (i := 0) rfl⟩)
  | join all => exact Received.later _ ⟨_, finds_all sourced all, by rw [fetchedResults_eq]⟩
  | scope => exact still
  | _ => trivial

theorem sourced_session {cs : List Connection} (wired : Wired cs g.nodes) (acts : List Act) :
    ∀ {r k n stage}, (session g now acts).Calling r k n.id stage → g.node? n.id = some n →
      Sourced g now acts r k n stage := by
  refine history_induction g now (P := fun acts => ∀ {r k n stage},
    (session g now acts).Calling r k n.id stage → g.node? n.id = some n →
      Sourced g now acts r k n stage) ?_ ?_ ?_ ?_ acts
  · rintro r k n stage ⟨_, here⟩
    simp [session, new] at here
  · intro acts execution inputs requests before r k n stage calling known
    rw [session_start] at calling
    rcases calling_begin calling with ⟨-, there⟩ | ⟨-, rfl⟩
    · exact (before there known).later _
    · trivial
  · intro acts t r' work work' e before here rule after r k n stage calling known
    rcases after.calling_cases rule calling with ⟨rfl, rfl, _, stands⟩ | ⟨-, there⟩ | ⟨-, rfl, -⟩
    · rcases rule.life_cases n.id with ⟨n', _, _, _, _, known', -, rfl, is, step⟩ | ⟨-, noCall, -⟩
      · cases known.symm.trans known'
        cases is.symm.trans stands
        refine step.sourced here after (fun u linked => ?_) (before ⟨_, here⟩ known)
        obtain ⟨s, there, -⟩ := wired.upstream_known (Graph.mem_of_node? known) linked
        rw [there]
        rfl
      · exact absurd stands (noCall _ _)
    · exact (before there known).later _
    · trivial
  · intro acts v now' before same r k n stage calling known
    rw [same] at calling
    exact (before calling known).later _

/-! ## Results and inputs -/

/-- What was found is in envelopes. -/
theorem Finds.envelope {u : Upstream} (finds : Finds g now acts r k id u (some d)) : d.Envelope := by
  generalize same : some d = found at finds
  cases finds with
  | answered _ answer =>
      cases same
      obtain ⟨n, -, result⟩ := (shaped_session now acts).answer answer
      exact result.envelope
  | looked =>
      obtain ⟨n, -, ended⟩ := (shaped_session now _).results same.symm
      exact ended.isResult.envelope

/-- A node is bound against a scope that has under `input` what its call found at the upstreams. -/
theorem input_of_binding {cs : List Connection} (wired : Wired cs g.nodes) {received scope : Document}
    (binding : (session g now acts).Calling r k n.id (.record received scope))
    (known : g.node? n.id = some n) :
    ∃ found, List.Forall₂ (Finds g now acts r k n.id) n.upstream found ∧
      scope.get? "input" = some (inputOf found.reduceOption) ∧
      (inputOf found.reduceOption).isObject = true := by
  obtain ⟨found, finds, rfl⟩ : Received g now acts r k n received :=
    sourced_session wired acts binding known
  obtain ⟨run, seen, -, seeded, taken⟩ := (grounded_session now acts).bound binding
  obtain ⟨members, -, root, -⟩ := seeded.root
  have envelopes : ∀ d ∈ found.reduceOption, d.Envelope := by
    intro d member
    obtain ⟨⟨i, small⟩, here⟩ := List.mem_iff_get.1 (List.reduceOption_mem_iff.1 member)
    have one := finds.get (finds.length_eq ▸ small) small
    rw [here] at one
    exact one.envelope
  exact ⟨found, finds, inputScope_inputOf root envelopes taken, isObject_inputOf envelopes⟩

theorem session_run (past : List Act) (execution : ExecutionId) (inputs : RunInputs)
    (requests : List Request) (schedule : List Move) :
    session g now (past ++ .start execution inputs requests :: schedule.map .move) =
      ((session g now past).begin g execution inputs requests).exec g schedule := by
  rw [session_append, List.foldl_cons, List.foldl_map]
  rfl

/-- What the calls of the current run have stored agrees with what is recorded. -/
theorem recorded_run (past : List Act) (execution : ExecutionId) (inputs : RunInputs)
    (requests : List Request) (schedule : List Move) :
    let start := (session g now past).begin g execution inputs requests
    (start.exec g schedule).Recorded g (session g now past).nextTask (start.history g schedule) := by
  intro start
  suffices held : (start.exec g schedule).Gated ∧ (start.exec g schedule).Kept ∧
      (start.exec g schedule).Shaped g ∧
      (start.exec g schedule).Recorded g (session g now past).nextTask (start.history g schedule)
    from held.2.2.2
  refine run_induction (P := fun h m => m.Gated ∧ m.Kept ∧ m.Shaped g ∧
    m.Recorded g (session g now past).nextTask h) schedule ?_ ?_ ?_
  · rintro h m t r work work' e m' ⟨gated, kept, shaped, recorded⟩ here rule after
    exact ⟨gated.step here rule after, kept.step here rule after,
      shaped.step gated kept here rule after, recorded.step gated shaped here rule after⟩
  · rintro h m now' - ⟨gated, kept, shaped, recorded⟩
    exact ⟨⟨gated.held, gated.unset⟩, ⟨kept.running, kept.fanOuts⟩, ⟨shaped.calls, shaped.results⟩,
      ⟨recorded.blamed, recorded.storing, recorded.stored⟩⟩
  · exact ⟨(gated_session past).begin execution inputs requests,
      (kept_session now past).begin execution inputs requests,
      (shaped_session now past).begin execution inputs requests, recorded_begin _ _ _ _⟩

/-- **Results and inputs keep their shape.**  Take any session on a built graph.  Every result that
is there agrees with what was last told of its node: with an output, and nothing else unless the
node merges what it received, if the node completed; with an error and nothing else if it failed.
So it does with the status of the node, if a call of the current run has stored it.  And a node is
bound against a scope that has an object under `input`: the outputs of what the call found at the
upstreams, merged in the order of the connections, and the last of the errors. -/
theorem results_and_inputs_keep_their_shape {w : Workflow} {registry : Registry}
    {settings : Settings} (built : Graph.build w registry settings = .ok g)
    (now : Instant) (acts : List Act) :
    let m := session g now acts
    (∀ n d, g.node? n.id = some n → (m.cell n.id).result = some d → n.Ended (m.lastTold n.id) d) ∧
    (∀ past execution inputs requests schedule,
      acts = past ++ .start execution inputs requests :: schedule.map .move →
      let before := session g now past
      ∀ n k d, g.node? n.id = some n → before.nextTask ≤ k →
        .stored n.id k d ∈ (before.begin g execution inputs requests).history g schedule →
        (m.cell n.id).result = some d ∧
          (((m.cell n.id).status = .completed ∧ n.Completes d) ∨
            ((m.cell n.id).status = .failed ∧ n.Fails d))) ∧
    (∀ r k n received scope, g.node? n.id = some n → m.Calling r k n.id (.record received scope) →
      n.upstream.map Upstream.node = sourcesOf w.connections n.id ∧
      ∃ found, List.Forall₂ (Finds g now acts r k n.id) n.upstream found ∧
        scope.get? "input" = some (inputOf found.reduceOption) ∧
        (inputOf found.reduceOption).isObject = true) := by
  intro m
  have wired := build_wired built
  refine ⟨?_, ?_, ?_⟩
  · intro n d known has
    obtain ⟨n', known', ended⟩ := (shaped_session now acts).results has
    cases known.symm.trans known'
    exact ended
  · rintro past execution inputs requests schedule rfl before n k d known recent stored
    obtain ⟨has, n', known', agrees⟩ :=
      (recorded_run past execution inputs requests schedule).stored recent stored
    rw [← session_run] at has agrees
    cases known.symm.trans known'
    refine ⟨has, ?_⟩
    cases error : (m.cell n.id).error with
    | none =>
        rw [error] at agrees
        exact .inl ⟨by simp [Cell.status, has, error, m], agrees⟩
    | some cause =>
        rw [error] at agrees
        exact .inr ⟨by simp [Cell.status, has, error, m], agrees⟩
  · intro r k n received scope known binding
    exact ⟨wired.upstream n (Graph.mem_of_node? known), input_of_binding wired binding known⟩

end Machine

/-! ## The shapes of the meeting -/

/-- What a call received and the scope that it binds against, if it does so next, with its run and
its node. -/
def Task.binding? : Task → Option ((RunId × NodeId) × Document × Document)
  | ⟨r, .call id _ (.record received scope)⟩ => some ((r, id), received, scope)
  | _ => none

namespace Machine

open Sample

theorem calling_of_binding {m : Machine} {k : TaskId} {r : RunId} {id : NodeId}
    {received scope : Document}
    (there : m.tasks[k]?.bind Task.binding? = some ((r, id), received, scope)) :
    m.Calling r k id (.record received scope) := by
  obtain ⟨task, here, binding⟩ := Option.bind_eq_some_iff.1 there
  unfold Task.binding? at binding
  split at binding
  · cases binding
    exact ⟨_, here⟩
  · cases binding

/-- The third node of the meeting is asked for, and waits for the others. -/
def meetingMoves : List Move :=
  strides [(9, 0), (20, 1), (7, 2), (1, 5), (20, 2), (20, 3), (2, 0)]

def meetingActs : List Act :=
  .start ⟨7⟩ meetingConditions.inputs [.result ⟨3⟩] :: meetingMoves.map .move

/-- When the third node of the meeting is about to be bound, the second has failed with a failure
for a result, and the third is given what the others returned, and that failure. -/
theorem meeting_shapes :
    Graph.build meeting notes .standard = .ok meetingGraph ∧
    (∃ n d, meetingGraph.node? ⟨2⟩ = some n ∧ n.Fails d ∧
      ((session meetingGraph epoch meetingActs).cell ⟨2⟩).result = some d ∧
      ((session meetingGraph epoch meetingActs).cell ⟨2⟩).status = .failed) ∧
    ∃ n received scope found, meetingGraph.node? ⟨3⟩ = some n ∧
      (session meetingGraph epoch meetingActs).Calling 0 0 ⟨3⟩ (.record received scope) ∧
      List.Forall₂ (Finds meetingGraph epoch meetingActs 0 0 ⟨3⟩) n.upstream found ∧
      scope.get? "input" = some (inputOf found.reduceOption) ∧
      scope.get? "input" = some (.obj [("p", .bool true), ("x", .bool true),
        ("error", Value.failure (NodeError.executionFailed "no").message (⟨2⟩ : NodeId).toText none
          epoch.toOffset)]) := by
  have built : Graph.build meeting notes .standard = .ok meetingGraph := eq_ok_get _
  obtain ⟨-, statuses, inputs⟩ := results_and_inputs_keep_their_shape built epoch meetingActs
  refine ⟨built, ?_, ?_⟩
  · have there : (meetingGraph.node? ⟨2⟩).isSome = true := by decide +kernel
    obtain ⟨n, known⟩ := Option.isSome_iff_exists.1 there
    have name : n.id = ⟨2⟩ := Graph.id_of_node? known
    have failed : ((session meetingGraph epoch meetingActs).cell n.id).status = .failed := by
      rw [name]
      decide +kernel
    have some : (((new epoch).begin meetingGraph ⟨7⟩ meetingConditions.inputs
        [.result ⟨3⟩]).history meetingGraph meetingMoves).any (Deed.stores n.id) = true := by
      rw [name]
      decide +kernel
    obtain ⟨deed, done, stores⟩ := List.any_eq_true.1 some
    cases deed with
    | stored id k d =>
        cases eq_of_beq stores
        obtain ⟨has, ⟨completed, -⟩ | ⟨-, fails⟩⟩ := statuses [] ⟨7⟩ meetingConditions.inputs
          [.result ⟨3⟩] meetingMoves rfl n k d (name.symm ▸ known) (Nat.zero_le _) done
        · cases completed.symm.trans failed
        · rw [name] at has failed
          exact ⟨n, d, known, fails, has, failed⟩
    | _ => cases stores
  · have there : (meetingGraph.node? ⟨3⟩).isSome = true := by decide +kernel
    obtain ⟨n, known⟩ := Option.isSome_iff_exists.1 there
    have name : n.id = ⟨3⟩ := Graph.id_of_node? known
    have binds : ((session meetingGraph epoch meetingActs).tasks[0]?.bind Task.binding?).map
        (fun b => (b.1, b.2.2.get? "input")) = some ((0, ⟨3⟩), some (.obj [("p", .bool true),
          ("x", .bool true), ("error", Value.failure (NodeError.executionFailed "no").message
            (⟨2⟩ : NodeId).toText none epoch.toOffset)])) := by
      decide +kernel
    obtain ⟨⟨_, received, scope⟩, there, same⟩ := Option.map_eq_some_iff.1 binds
    obtain ⟨rfl, input⟩ := Prod.mk.inj same
    have calling := calling_of_binding there
    obtain ⟨-, found, finds, given, -⟩ := inputs 0 0 n received scope (name.symm ▸ known)
      (name.symm ▸ calling)
    rw [name] at finds
    exact ⟨n, received, scope, found, known, calling, finds, given, input⟩

end Machine
end Flowgraph
