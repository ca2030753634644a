/- # Flowgraph.Proofs.Run.Lifecycle -- what is told of a node while its result is computed

Three kinds of node facts make up the life of a node: it started, it completed, it
failed.  `Node.Told` lists what can have been told of a node whose result nobody is
computing, together with its result and its error: nothing at all; that it started and
completed; that it started and failed, and then the error is kept and the result is the
failure that names it.  While a call computes the result, its stage says how far the
telling has come (`Stage.Told`).

Only one call computes the result of a node, and only that call tells of its life
(`Transition.life_cases`).  So the two statements hold all along a run (`Telling`).
-/
import Flowgraph.Proofs.Run.Tidy

set_option autoImplicit false

namespace Flowgraph

/-! ## Lives -/

/-- Whether a fact says that the computation of a node begins, or how it ends. -/
def NodeFact.isVital : NodeFact → Bool
  | .started _ | .completed _ | .failed _ _ => true
  | .portFired _ _ | .notice _ => false

/-- What facts tell of the life of a node, in order. -/
def lifeOf (id : NodeId) (facts : List Fact) : List NodeFact :=
  facts.filterMap fun
    | .node k fact => if k = id ∧ fact.isVital then some fact else none
    | .run _ => none

theorem lifeOf_append (id : NodeId) (facts more : List Fact) :
    lifeOf id (facts ++ more) = lifeOf id facts ++ lifeOf id more :=
  List.filterMap_append

theorem lifeOf_vital (id : NodeId) {fact : NodeFact} (vital : fact.isVital = true) :
    lifeOf id [.node id fact] = [fact] := by
  simp [lifeOf, vital]

theorem lifeOf_ne {id k : NodeId} (other : k ≠ id) (fact : NodeFact) :
    lifeOf id [.node k fact] = [] := by
  simp [lifeOf, other]

/-- What can have been told of a node that nobody is computing, with its result and its error. -/
inductive Node.Told (n : Node) : Option Document → Option NodeError → List NodeFact → Prop
  | nothing : Told n none none []
  | completed {d milliseconds} :
      Told n (some d) none [.started n.function.signature.key, .completed milliseconds]
  | failed {e time} :
      Told n (some (n.failure e time)) (some e)
        [.started n.function.signature.key, .failed n.name e.message]

/-- What has been told of a node by the stage at which a call is computing its result. -/
def Stage.Told (n : Node) : Stage → Option NodeError → List NodeFact → Prop
  | .mark, error, life | .announce, error, life => error = none ∧ life = []
  | .blame e, error, life =>
    error = none ∧ life = [.started n.function.signature.key, .failed n.name e.message]
  | .store d, error, life => n.Told (some d) error life
  | _, error, life => error = none ∧ life = [.started n.function.signature.key]

namespace Machine

variable {g : Graph} {m m' : Machine} {t k first : TaskId} {r j : RunId} {n : Node} {id : NodeId}
  {began : Instant} {stage stage' : Stage} {x x' : Execution} {work work' : Work} {e : Effect}
  {life : List NodeFact}

/-! ## One step -/

/-- What a program reports is not of the life of its node. -/
theorem ExecutionStep.lifeless (step : ExecutionStep m r n x x' e) (id : NodeId) :
    lifeOf id e.facts = [] := by
  cases step with
  | notify | reported | route => simp [lifeOf, NodeFact.isVital]
  | _ => rfl

/-- A call that computes tells what its next stage has told, or has stored what it told of. -/
theorem CallStep.told (step : CallStep g m t r n began stage stage' e)
    (computing : stage.phase = .computing) (told : stage.Told n (m.cell n.id).error life) :
    let c := e.cell n.id (m.cell n.id)
    (stage'.phase = .computing ∧ stage'.Told n c.error (life ++ lifeOf n.id e.facts)) ∨
      (stage'.phase ≠ .computing ∧ n.Told c.result c.error (life ++ lifeOf n.id e.facts)) := by
  intro c
  cases step with
  | hit | miss | enter | found | fresh | publish | unmark | release | close | branch | yield =>
      cases computing
  | mark =>
      obtain ⟨clean, rfl⟩ := told
      exact .inl ⟨rfl, by simpa [c] using clean, rfl⟩
  | unbound | invoke =>
      obtain ⟨clean, rfl⟩ := told
      exact .inl ⟨rfl, by simpa [c] using clean, rfl⟩
  | work step =>
      obtain ⟨clean, rfl⟩ := told
      exact .inl ⟨rfl, (step.error_kept _).trans clean, by rw [step.lifeless, List.append_nil]⟩
  | announce | failed =>
      obtain ⟨clean, rfl⟩ := told
      exact .inl ⟨rfl, clean, by rw [lifeOf_vital _ rfl]; rfl⟩
  | @completed d =>
      obtain ⟨clean, rfl⟩ := told
      have kept : c.error = none := clean
      refine .inl ⟨rfl, ?_⟩
      rw [lifeOf_vital _ rfl, kept]
      exact Node.Told.completed
  | @blame cause =>
      obtain ⟨-, rfl⟩ := told
      have blamed : c.error = some cause := by simp [c]
      refine .inl ⟨rfl, ?_⟩
      rw [blamed]
      exact Node.Told.failed
  | store =>
      have stored : n.Told _ _ life := told
      exact .inr ⟨nofun, by simpa [c, lifeOf] using stored⟩
  | _ =>
      obtain ⟨clean, rfl⟩ := told
      exact .inl ⟨rfl, clean, rfl⟩

/-- A call that does not compute tells nothing, and begins to compute only what nobody told of. -/
theorem CallStep.untold (step : CallStep g m t r n began stage stage' e)
    (idle : stage.phase ≠ .computing) :
    let c := e.cell n.id (m.cell n.id)
    c.result = (m.cell n.id).result ∧ c.error = (m.cell n.id).error ∧ lifeOf n.id e.facts = [] ∧
      (stage'.phase = .computing → stage = .recheck ∧ stage' = .mark ∧ c.result = none) := by
  intro c
  cases step with
  | hit | miss | found | branch | publish => exact ⟨rfl, rfl, rfl, nofun⟩
  | enter | unmark | release | close | yield =>
      exact ⟨by simp [c], by simp [c], rfl, nofun⟩
  | fresh missing => exact ⟨rfl, rfl, rfl, fun _ => ⟨rfl, rfl, missing⟩⟩
  | _ => exact absurd rfl idle

/-- Whatever is not a step of a call of the node tells nothing of it. -/
theorem Transition.life_cases (rule : Transition g m t r work work' e) (id : NodeId) :
    (∃ n began began' stage stage', g.node? id = some n ∧ n.id = id ∧
      work = .call id began stage ∧ work' = .call id began' stage' ∧
      CallStep g m t r n began stage stage' e) ∨
    ((∀ began stage, work ≠ .call id began stage) ∧ (∀ began stage, work' ≠ .call id began stage) ∧
      (e.cell id (m.cell id)).result = (m.cell id).result ∧
      (e.cell id (m.cell id)).error = (m.cell id).error ∧ lifeOf id e.facts = []) := by
  cases rule with
  | @call node n began stage stage' e known step =>
      by_cases mine : node = id
      · subst mine
        exact .inl ⟨n, _, _, _, _, known, Graph.id_of_node? known, rfl, rfl, step⟩
      · have other : id ≠ n.id := fun same => mine ((Graph.id_of_node? known).symm.trans same.symm)
        refine .inr ⟨?_, ?_, ?_, ?_, ?_⟩
        · rintro _ _ ⟨⟩
          exact mine rfl
        · rintro _ _ ⟨⟩
          exact mine rfl
        · rw [step.other _ other]
        · rw [step.other _ other]
        · cases step with
          | work step => exact step.lifeless id
          | announce | completed | failed => exact lifeOf_ne (Ne.symm other) _
          | _ => rfl
  | aside known step =>
      exact .inr ⟨by simp, by simp, (step.cell_kept _).2, step.error_kept _, step.lifeless id⟩
  | _ => exact .inr ⟨by simp, by simp, rfl, rfl, rfl⟩

/-! ## The invariant -/

/-- What has been told of a node matches its records, or the stage of the call that computes. -/
structure Telling (n : Node) (life : List NodeFact) (m : Machine) : Prop where
  resting : (∀ {r k stage}, m.Calling r k n.id stage → stage.phase ≠ .computing) →
    n.Told (m.cell n.id).result (m.cell n.id).error life
  working : ∀ {r k stage}, m.Calling r k n.id stage → stage.phase = .computing →
    stage.Told n (m.cell n.id).error life

namespace Telling

variable (telling : m.Telling n life) (memo : m.Memo first) (here : m.tasks[t]? = some ⟨j, work⟩)
  (rule : Transition g m t j work work' e) (after : After m t j work' e m')
include telling memo here rule after

omit memo in
/-- A step that neither writes the records nor comes from a call that computes keeps it. -/
theorem step_idle (idle : ∀ began stage, work = .call n.id began stage → stage.phase ≠ .computing)
    (result : (e.cell n.id (m.cell n.id)).result = (m.cell n.id).result)
    (error : (e.cell n.id (m.cell n.id)).error = (m.cell n.id).error)
    (fresh : ∀ began stage, work' = .call n.id began stage → stage.phase = .computing →
      stage.Told n (m.cell n.id).error life) : m'.Telling n life where
  resting := by
    intro none
    rw [after.cell, result, error]
    refine telling.resting fun {i k stage} calling computing => ?_
    have other : k ≠ t := by
      rintro rfl
      obtain ⟨began, there⟩ := calling
      cases here.symm.trans there
      exact idle _ _ rfl computing
    exact none (calling.kept after other) computing
  working := by
    intro i k stage calling computing
    rw [after.cell, error]
    obtain ⟨rfl, rfl, began, stands⟩ | ⟨-, there⟩ | ⟨-, rfl, -⟩ := after.calling_cases rule calling
    · exact fresh began stage stands computing
    · exact telling.working there computing
    · cases computing

/-- A call that computes takes what it tells along, or leaves it behind with the result. -/
theorem step_working {began began' : Instant} {stage stage' : Stage}
    (step : CallStep g m t j n began stage stage' e) (was : work = .call n.id began stage)
    (is : work' = .call n.id began' stage') (computing : stage.phase = .computing) :
    m'.Telling n (life ++ lifeOf n.id e.facts) := by
  subst was is
  have mine : m.Calling j t n.id stage := ⟨began, here⟩
  have told := step.told computing (telling.working mine computing)
  rw [← after.cell] at told
  refine ⟨fun none => ?_, fun {i k stage₂} calling computes => ?_⟩
  · obtain ⟨still, -⟩ | ⟨-, told⟩ := told
    · exact absurd still (none ⟨began', after.here⟩)
    · exact told
  · obtain ⟨rfl, rfl, _, stands⟩ | ⟨other, there⟩ | ⟨-, rfl, -⟩ := after.calling_cases rule calling
    · cases stands
      obtain ⟨-, told⟩ | ⟨through, -⟩ := told
      · exact told
      · exact absurd computes through
    · -- the gate lets nobody compute beside this call
      have same := memo.alone mine there (by rw [computing]; rfl) (by rw [computes]; rfl)
      exact absurd same other
    · cases computes

omit here rule after in
/-- While a call looks for a result inside the gate nobody computes one. -/
theorem of_checking {k : TaskId} (checking : m.Calling r k n.id .recheck) :
    n.Told (m.cell n.id).result (m.cell n.id).error life := by
  refine telling.resting fun {i k₂ stage} calling computing => ?_
  cases memo.alone checking calling rfl (by rw [computing]; rfl)
  obtain ⟨-, -, rfl⟩ := checking.unique calling
  cases computing

/-- Every step keeps it, with what the step tells. -/
theorem step (known : g.node? n.id = some n) : m'.Telling n (life ++ lifeOf n.id e.facts) := by
  obtain ⟨n', began, began', stage, stage', known', -, was, is, step⟩ |
    ⟨noCall, noCall', result, error, silent⟩ := rule.life_cases n.id
  · cases known.symm.trans known'
    by_cases computing : stage.phase = .computing
    · exact telling.step_working memo here rule after step was is computing
    · obtain ⟨result, error, silent, fresh⟩ := step.untold computing
      subst was is
      rw [silent, List.append_nil]
      refine telling.step_idle here rule after ?_ result error ?_
      · rintro _ _ ⟨⟩
        exact computing
      · rintro _ _ ⟨⟩ computes
        obtain ⟨rfl, rfl, missing⟩ := fresh computes
        have told := telling.of_checking memo ⟨began, here⟩
        rw [← result, missing] at told
        generalize (m.cell n.id).error = kept at told ⊢
        cases told
        exact ⟨rfl, rfl⟩
  · rw [silent, List.append_nil]
    exact telling.step_idle here rule after (fun _ _ same => absurd same (noCall _ _)) result error
      fun _ _ same => absurd same (noCall' _ _)

end Telling

/-- Nothing has been told of a node when a run starts on which nobody computes. -/
theorem Unoccupied.telling (unoccupied : m.Unoccupied) (execution : ExecutionId)
    (inputs : RunInputs) (requests : List Request) :
    (m.begin g execution inputs requests).Telling n [] where
  resting _ := by
    rw [cell_begin]
    exact .nothing
  working := by
    intro r k stage calling computing
    obtain ⟨-, d, rfl⟩ | ⟨-, rfl⟩ := unoccupied.calling_begin calling <;> cases computing

/-! ## The events of a run -/

/-- What a step tells: nothing, something about a node, or that the run has started. -/
theorem Transition.facts_cases (rule : Transition g m t r work work' e) :
    e.facts = [] ∨ (∃ id fact, e.facts = [.node id fact]) ∨
    (e.facts = [.run (.started g.id g.entries)] ∧
      ∃ permits, work = .launch permits .announce ∧ work' = .launch permits .spawn) := by
  have execution {n x x'} (step : ExecutionStep m r n x x' e) :
      e.facts = [] ∨ ∃ id fact, e.facts = [.node id fact] := by
    cases step with
    | notify | reported | route => exact .inr ⟨_, _, rfl⟩
    | _ => exact .inl rfl
  cases rule with
  | call known step =>
      cases step with
      | work step => exact (execution step).imp_right .inl
      | announce | completed | failed => exact .inr (.inl ⟨_, _, rfl⟩)
      | _ => exact .inl rfl
  | aside known step => exact (execution step).imp_right .inl
  | opened => exact .inr (.inr ⟨rfl, _, rfl, rfl⟩)
  | _ => exact .inl rfl

/-- A step adds what it tells to the events, at its time and in the name of its run. -/
theorem After.events (after : After m t r work' e m') (rule : Transition g m t r work work' e)
    {run : RunRecord} (running : m.run? r = some run) :
    m'.events = m.events ++ e.facts.map fun fact => ⟨run.execution, m.now, fact⟩ := by
  have order : (e.facts.map fun fact => (⟨run.execution, m.now, fact⟩ : Event)).reverse =
      e.facts.map fun fact => ⟨run.execution, m.now, fact⟩ := by
    obtain none | ⟨_, _, one⟩ | ⟨one, -⟩ := rule.facts_cases <;> simp [*]
  simp only [Machine.events, after.log, running, List.reverse_append, order]

/-- The events since a run was started: none before its launch has announced it, and then that
the run has started, with events of nodes behind it. -/
inductive Opened (g : Graph) (execution : ExecutionId) (first : TaskId) (r : RunId) (m : Machine) :
    List Event → Prop
  | closed (launch : m.LaunchAt r first .announce) (alone : m.tasks.size = first + 1) :
      Opened g execution first r m []
  | opened {time during} (launch : ¬ m.LaunchAt r first .announce)
      (nodes : ∀ event ∈ during, event.execution = execution ∧
        ∃ id fact, event.fact = .node id fact) :
      Opened g execution first r m (⟨execution, time, .run (.started g.id g.entries)⟩ :: during)

section Steps

variable {execution : ExecutionId} {before since : List Event} {h : List Deed} {run : RunRecord}
  (traced : m.Traced first r h) (underway : m.Underway first r) (confined : m.Confined g first r h)
  (here : m.tasks[t]? = some ⟨j, work⟩) (rule : Transition g m t j work work' e)
  (after : After m t j work' e m')
include traced underway confined here rule after

theorem Opened.step (opened : Opened g execution first r m since) :
    Opened g execution first r m'
      (since ++ e.facts.map fun fact => ⟨execution, m.now, fact⟩) := by
  cases opened with
  | closed launch alone =>
      -- the launch is the only task there is
      have small : t < first + 1 := alone ▸ lt_size_of_tasks here
      obtain rfl : t = first := Nat.le_antisymm (Nat.le_of_lt_succ small) (traced.recent here rule)
      obtain ⟨permits, there⟩ := launch
      cases here.symm.trans there
      cases rule with
      | opened =>
          refine .opened (fun stands => ?_) nofun
          cases stands.unique ⟨permits, after.here⟩
  | opened launch nodes =>
      have still : ¬ m'.LaunchAt r first .announce := by
        intro stands
        obtain ⟨-, old⟩ | ⟨rfl, stage, permits, rfl, rfl⟩ :=
          underway.launch_cases here rule after stands
        · exact launch old
        · cases rule
      rw [List.cons_append]
      refine .opened still fun event member => ?_
      obtain old | new := List.mem_append.1 member
      · exact nodes event old
      · obtain ⟨fact, told, rfl⟩ := List.mem_map.1 new
        refine ⟨rfl, ?_⟩
        obtain none | ⟨id, fact', one⟩ | ⟨-, permits, rfl, -⟩ := rule.facts_cases
        · rw [none] at told
          cases told
        · rw [one] at told
          exact ⟨id, fact', List.mem_singleton.1 told⟩
        · obtain ⟨rfl, rfl⟩ := underway.is_first confined here rule rfl
          exact absurd ⟨permits, here⟩ launch

end Steps

/-- What is kept of the events of a run: they begin with the start of the run, and what they
tell of the life of each node matches its records. -/
structure Chronicle (g : Graph) (execution : ExecutionId) (before : List Event) (first : TaskId)
    (r : RunId) (m : Machine) : Prop where
  running : ∃ run, m.run? r = some run ∧ run.execution = execution
  events : ∃ since, m.events = before ++ since ∧ Opened g execution first r m since ∧
    ∀ n, g.node? n.id = some n → m.Telling n (lifeOf n.id (since.map Event.fact))

theorem Chronicle.step {execution : ExecutionId} {before : List Event} {h : List Deed}
    (chronicle : m.Chronicle g execution before first r) (traced : m.Traced first r h)
    (memo : m.Memo first) (underway : m.Underway first r) (confined : m.Confined g first r h)
    (here : m.tasks[t]? = some ⟨j, work⟩) (rule : Transition g m t j work work' e)
    (after : After m t j work' e m') : m'.Chronicle g execution before first r := by
  obtain ⟨⟨run, running, named⟩, since, events, opened, telling⟩ := chronicle
  obtain rfl := traced.current here rule
  have running' : m'.run? j = some (e.run run) := by rw [after.run, if_pos rfl, running]; rfl
  refine ⟨⟨e.run run, running', (rule.execution run).trans named⟩, _, ?_,
    opened.step traced underway confined here rule after, fun n known => ?_⟩
  · rw [after.events rule running, events, named, List.append_assoc]
  · have told := (telling n known).step memo here rule after known
    rwa [List.map_append, lifeOf_append, List.map_map, show Event.fact ∘ (fun fact =>
      (⟨execution, m.now, fact⟩ : Event)) = id from rfl, List.map_id]

theorem Chronicle.tick {execution : ExecutionId} {before : List Event}
    (chronicle : m.Chronicle g execution before first r) (now : Instant) :
    Chronicle g execution before first r { m with now := now } := by
  obtain ⟨running, since, events, opened, telling⟩ := chronicle
  refine ⟨running, since, events, ?_, fun n known => { telling n known with }⟩
  cases opened with
  | closed launch alone => exact .closed launch alone
  | opened launch nodes => exact .opened launch nodes

/-- A run that is launched begins without events. -/
theorem Unoccupied.chronicle (unoccupied : m.Unoccupied) (execution : ExecutionId)
    (inputs : RunInputs) : (m.launched g execution inputs).Chronicle g execution m.events m.nextTask
      m.nextRun where
  running := ⟨_, run?_begin g m execution inputs [.launch], rfl⟩
  events := ⟨[], (List.append_nil _).symm, .closed launched_launchAt (size_begin ..),
    fun _ _ => unoccupied.telling execution inputs [.launch]⟩

end Machine
end Flowgraph
