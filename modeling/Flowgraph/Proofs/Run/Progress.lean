/- # Flowgraph.Proofs.Run.Progress -- a run without cycles never waits for itself

When some task of a run is not done, some task can take a step, unless there is a
cycle of links that wait.  A call that cannot go on waits for the gate of its node
or for the calls of upstreams.  So along the links that wait every call is done
(`stuck_calls`), and with the calls everything that waits for them: fan-out tasks,
entries, the task that waits for all, and the launch.

What makes waiting sound is `Engaged`: whatever is waited for is there, and the
permits that are missing from a launch are held by entries that run.
-/
import Mathlib.Data.Fintype.EquivFin
import Mathlib.Logic.Relation
import Mathlib.Order.WellFounded
import Flowgraph.Graph.Cycle
import Flowgraph.Proofs.Run.Executed
import Flowgraph.Proofs.Run.Permits

set_option autoImplicit false

namespace Flowgraph

/-! ## Waiting without cycles -/

namespace Graph

variable {g : Graph}

/-- No node waits for itself, by however many links that wait. -/
def Acyclic (g : Graph) : Prop := ∀ id, ¬ Relation.TransGen (fun a b => g.waits a b = true) id id

theorem waits_of_linked {id : NodeId} {n : Node} {u : Upstream} (known : g.node? id = some n)
    (linked : u ∈ n.upstream) (waits : u.viaPort = false) : g.waits id u.node = true := by
  have there : u ∈ n.upstream.filter fun u => !u.viaPort := List.mem_filter.2 ⟨linked, by simp [waits]⟩
  rw [Graph.waits, known]
  exact decide_eq_true (List.mem_map.2 ⟨u, there, rfl⟩)

theorem mem_of_waits {id source : NodeId} (waits : g.waits id source = true) :
    id ∈ g.nodes.map Node.id := by
  unfold Graph.waits at waits
  split at waits
  · rename_i n known
    exact List.mem_map.2 ⟨n, mem_of_node? known, id_of_node? known⟩
  · cases waits

/-- There is no cycle when every node ranks above those that it waits for. -/
theorem acyclic_of_rank (rank : NodeId → Nat)
    (above : ∀ n ∈ g.nodes, ∀ source ∈ n.dataInputs, rank source < rank n.id) : g.Acyclic := by
  have lower : ∀ a b, g.waits a b = true → rank b < rank a := by
    intro a b waits
    unfold Graph.waits at waits
    split at waits
    · rename_i n known
      rw [← id_of_node? known]
      exact above n (mem_of_node? known) b (of_decide_eq_true waits)
    · cases waits
  have below : ∀ {a b}, Relation.TransGen (fun a b => g.waits a b = true) a b → rank b < rank a := by
    intro a b chain
    induction chain with
    | single waits => exact lower _ _ waits
    | tail _ waits ih => exact Nat.lt_trans (lower _ _ waits) ih
  intro id cycle
  exact Nat.lt_irrefl _ (below cycle)

/-- A node waits for itself, by however many links that wait. -/
def OnCycle (g : Graph) (id : NodeId) : Prop :=
  Relation.TransGen (fun a b => g.waits a b = true) id id

/-- Among nodes that lie on no cycle, what holds of a node when it holds of all that it waits
for holds of every one. -/
theorem waits_induction {Q P : NodeId → Prop} (clear : ∀ id, Q id → ¬ g.OnCycle id)
    (step : ∀ id, Q id → (∀ source, g.waits id source = true → Q source → P source) → P id)
    (id : NodeId) (within : Q id) : P id := by
  let before (b a : {id // id ∈ g.nodes.map Node.id ∧ Q id}) : Prop :=
    Relation.TransGen (fun a b => g.waits a b = true) a.1 b.1
  have finite : Finite {id // id ∈ g.nodes.map Node.id ∧ Q id} :=
    Set.Finite.subset (List.finite_toSet (g.nodes.map Node.id)) fun _ both => both.1
  have irreflexive : Std.Irrefl before := ⟨fun a => clear a.1 a.2.2⟩
  have transitive : IsTrans _ before := ⟨fun _ _ _ first second => second.trans first⟩
  have wellFounded : WellFounded before := Finite.wellFounded_of_trans_of_irrefl before
  have inside : ∀ a : {id // id ∈ g.nodes.map Node.id ∧ Q id}, P a.1 := by
    intro a
    induction a using wellFounded.induction with
    | _ a ih =>
        refine step a.1 a.2.2 fun source waits within => ?_
        by_cases known : source ∈ g.nodes.map Node.id
        · exact ih ⟨source, known, within⟩ (.single waits)
        · exact step source within fun _ further => absurd (mem_of_waits further) known
  by_cases known : id ∈ g.nodes.map Node.id
  · exact inside ⟨id, known, within⟩
  · exact step id within fun _ waits => absurd (mem_of_waits waits) known

end Graph

namespace Machine

variable {g : Graph} {m m' : Machine} {t k first : TaskId} {r j : RunId} {id : NodeId}
  {stage : Stage} {work work' : Work} {e : Effect} {h : List Deed}

/-! ## What is waited for is there -/

/-- Work waits for what it waited for before, or for a call that it has just started. -/
theorem Transition.awaits_old (rule : Transition g m t r work work' e) (awaits : work'.Awaits k) :
    work.Awaits k ∨ ∃ i id, k = m.tasks.size + i ∧ e.spawned[i]? = some (m.freshCall r id) := by
  have started : ∀ {ids : List NodeId}, k ∈ List.range' m.tasks.size ids.length →
      ∃ i id, k = m.tasks.size + i ∧ (ids.map (m.freshCall r))[i]? = some (m.freshCall r id) := by
    intro ids member
    obtain ⟨i, small, rfl⟩ := List.mem_range'.1 member
    refine ⟨i, ids[i], by rw [Nat.one_mul], ?_⟩
    rw [List.getElem?_map, List.getElem?_eq_getElem small]
    rfl
  cases rule with
  | call known step =>
      cases step with
      | asked => exact .inl awaits
      | skip | seen | unseen =>
          obtain old | new := List.mem_append.1 awaits
          · exact .inl old
          · cases List.mem_singleton.1 new
      | pull =>
          obtain old | new := List.mem_append.1 awaits
          · exact .inl old
          · cases List.mem_singleton.1 new
            exact .inr ⟨0, _, rfl, rfl⟩
      | announce => cases awaits
      | _ => exact awaits.elim
  | round => exact .inr (started awaits)
  | rested => cases awaits
  | permit =>
      cases awaits
      exact .inr ⟨0, _, rfl, rfl⟩
  | _ => exact awaits.elim

/-- What is started waits for nothing yet. -/
theorem Transition.spawned_awaits (rule : Transition g m t r work work' e) {index : Nat}
    {task : Task} (new : e.spawned[index]? = some task) : ¬ task.work.Awaits k := by
  cases rule.spawnedAt new <;> simp [freshCall, Work.Awaits]

/-- Whatever the run `r` waits for is there to be waited for, and no permit is lost. -/
structure Engaged (g : Graph) (first : TaskId) (r : RunId) (m : Machine) : Prop where
  awaited : ∀ {w k : TaskId} {task : Task}, first ≤ w → m.tasks[w]? = some task →
    task.work.Awaits k → first ≤ k ∧ ∃ j id stage, m.Calling j k id stage
  launches : ∀ {k j launch id stage}, first ≤ k →
    m.tasks[k]? = some ⟨j, .entry launch id stage⟩ → launch = first
  joining : ∀ {ts}, m.LaunchAt r first (.join ts) → ∀ k ∈ ts,
    first ≤ k ∧ ∃ j launch id stage, m.tasks[k]? = some ⟨j, .entry launch id stage⟩
  tracked : ∀ {run}, m.run? r = some run → ∀ f ∈ run.fanOut, ∃ id, m.Fans first f id
  batches : ∀ {s j batch}, first ≤ s → m.tasks[s]? = some ⟨j, .settle (.join batch)⟩ →
    ∀ f ∈ batch, ∃ id, m.Fans first f id
  permits : m.Balanced g first

namespace Engaged

variable (engaged : m.Engaged g first r) (underway : m.Underway first r)
  (confined : m.Confined g first r h) (here : m.tasks[t]? = some ⟨j, work⟩)
  (rule : Transition g m t j work work' e) (after : After m t j work' e m')
include engaged confined here rule after

theorem step_awaited {w : TaskId} {task : Task} (recent : first ≤ w)
    (there : m'.tasks[w]? = some task) (awaits : task.work.Awaits k) :
    first ≤ k ∧ ∃ j id stage, m'.Calling j k id stage := by
  have before : ∀ {task : Task}, m.tasks[w]? = some task → task.work.Awaits k →
      first ≤ k ∧ ∃ j id stage, m'.Calling j k id stage := by
    intro task there awaits
    obtain ⟨later, i, id, stage, calling⟩ := engaged.awaited recent there awaits
    exact ⟨later, i, id, calling.still here rule after⟩
  have plain : task.work.isLaunch = false := by
    generalize task.work = work at awaits
    cases work <;> first | rfl | exact awaits.elim
  obtain ⟨rfl, rfl⟩ | ⟨-, old⟩ | ⟨-, new⟩ := after.plain_cases plain there
  · obtain old | ⟨i, id, rfl, new⟩ := rule.awaits_old awaits
    · exact before here old
    · exact ⟨Nat.le_trans confined.bound (Nat.le_add_right _ _), j, id, .probe, _,
        after.started here new⟩
  · exact before old awaits
  · exact absurd awaits (rule.spawned_awaits new)

omit engaged confined in
/-- An entry stays an entry of its launch. -/
theorem entry_still {i : RunId} {launch : TaskId} {stage : EntryStage}
    (there : m.tasks[k]? = some ⟨i, .entry launch id stage⟩) :
    ∃ stage', m'.tasks[k]? = some ⟨i, .entry launch id stage'⟩ := by
  by_cases mine : k = t
  · subst mine
    cases here.symm.trans there
    cases rule <;> exact ⟨_, after.here⟩
  · exact ⟨stage, after.kept mine rfl there⟩

theorem step_tracked {run : RunRecord} (running : m'.run? r = some run) :
    ∀ f ∈ run.fanOut, ∃ id, m'.Fans first f id := by
  intro f member
  obtain ⟨old, running, tracked⟩ | ⟨rfl, i, id, rounds, new⟩ :=
    after.tracked_cases here rule running member
  · obtain ⟨id, fans⟩ := engaged.tracked running f tracked
    exact ⟨id, fans.step here rule after⟩
  · exact ⟨id, confined.bound, i, rounds, [], new⟩

theorem step_batches {s : TaskId} {i : RunId} {batch : List TaskId} (recent : first ≤ s)
    (there : m'.tasks[s]? = some ⟨i, .settle (.join batch)⟩) :
    ∀ f ∈ batch, ∃ id, m'.Fans first f id := by
  have kept : ∀ {f}, (∃ id, m.Fans first f id) → ∃ id, m'.Fans first f id :=
    fun ⟨id, fans⟩ => ⟨id, fans.step here rule after⟩
  intro f member
  obtain ⟨rfl, same⟩ | ⟨-, old⟩ | ⟨-, new⟩ := after.plain_cases rfl there
  · cases same
    obtain harmless | ⟨-, rfl⟩ := confined.current here rule
    · cases rule with
      | take => exact harmless.elim
    · cases rule with
      | take running => exact kept (engaged.tracked running f member)
  · exact kept (engaged.batches recent old f member)
  · cases rule.spawnedAt new

include underway

theorem step_launches {i : RunId} {launch : TaskId} {stage : EntryStage} (recent : first ≤ k)
    (there : m'.tasks[k]? = some ⟨i, .entry launch id stage⟩) : launch = first := by
  obtain ⟨rfl, same⟩ | ⟨-, old⟩ | ⟨-, new⟩ := after.plain_cases rfl there
  · cases same
    cases rule <;> exact engaged.launches recent here
  · exact engaged.launches recent old
  · obtain ⟨rfl, permits, spawns, -⟩ := rule.of_entry new
    exact (underway.is_first confined here rule spawns).1

theorem step_joining {ts : List TaskId} (stands : m'.LaunchAt r first (.join ts)) :
    ∀ k ∈ ts, first ≤ k ∧ ∃ j launch id stage, m'.tasks[k]? = some ⟨j, .entry launch id stage⟩ := by
  intro k member
  have before : m.LaunchAt r first (.join ts) →
      first ≤ k ∧ ∃ j launch id stage, m'.tasks[k]? = some ⟨j, .entry launch id stage⟩ := by
    intro joining
    obtain ⟨recent, i, launch, id, stage, there⟩ := engaged.joining joining k member
    exact ⟨recent, i, launch, id, entry_still here rule after there⟩
  obtain ⟨-, old⟩ | ⟨rfl, stage, permits, rfl, rfl⟩ := underway.launch_cases here rule after stands
  · exact before old
  · cases rule with
    | entries =>
        obtain ⟨i, small, rfl⟩ := List.mem_range'.1 member
        rw [Nat.one_mul]
        exact ⟨Nat.le_trans confined.bound (Nat.le_add_right _ _), _, _, _, _,
          after.started_map here rfl small⟩

/-- Every step keeps what is waited for in place. -/
theorem step : m'.Engaged g first r where
  awaited := engaged.step_awaited confined here rule after
  launches := engaged.step_launches underway confined here rule after
  joining := engaged.step_joining underway confined here rule after
  tracked := engaged.step_tracked confined here rule after
  batches := engaged.step_batches confined here rule after
  permits := engaged.permits.step here rule after

end Engaged

theorem AtRest.engaged {execution : ExecutionId} {inputs : RunInputs} (rest : m.AtRest g) :
    (m.launched g execution inputs).Engaged g m.nextTask m.nextRun := by
  refine ⟨?_, ?_, ?_, ?_, ?_, ?_⟩
  · intro w k task recent here awaits
    cases (launched_only recent here).2
    exact awaits.elim
  · intro k j launch id stage recent here
    cases (launched_only recent here).2
  · rintro ts ⟨permits, here⟩
    cases (launched_only (Nat.le_refl _) here).2
  · intro run running f member
    cases (run?_begin g m execution inputs [.launch]).symm.trans running
    cases member
  · intro s j batch recent here
    cases (launched_only recent here).2
  · obtain ⟨permits, here⟩ : (m.launched g execution inputs).LaunchAt m.nextRun m.nextTask .announce :=
      launched_launchAt
    cases (launched_only (Nat.le_refl _) here).2
    exact rest.balanced here

/-! ## Where tasks are stuck -/

section Stuck

variable {n : Node} {run : RunRecord} {began : Instant}

/-- A program is never stuck, unless it is in the middle of a fire that came too late. -/
theorem execution_stuck {x : Execution} (running : m.run? r = some run) (prompt : x.Prompt)
    (stuck : m.stepExecution r n x = none) : ∃ outcome, x = .active (.finish outcome) := by
  cases x with
  | active p =>
      cases p with
      | finish outcome => exact ⟨outcome, rfl⟩
      | publish | publishOutput | readShared => simp [stepExecution, running] at stuck
      | fire port next => exact absurd stuck stepExecution_fire_ne_none
      | notify | readClock | pause | leave => cases stuck
  | fired port queued next =>
      cases prompt
      cases stuck
  | routed ts next => exact prompt.elim

/-- A call is stuck when it is done, before the gate, or before the calls of upstreams. -/
theorem call_stuck (here : m.tasks[t]? = some ⟨r, .call id began stage⟩)
    (known : g.node? id = some n) (running : m.run? r = some run)
    (prompt : (Work.call id began stage).Prompt) (stuck : m.step g t = none) :
    (∃ d, stage = .done d) ∨ (stage = .enter ∧ ∃ k, (m.cell id).gate = some k) ∨
      ∃ fetched, stage = .join fetched ∧ m.fetchedAll fetched = false := by
  have stopped : m.stepCall g t r n began stage = none := by simpa [step, here, known] using stuck
  cases Graph.id_of_node? known
  cases stage with
  | done d => exact .inl ⟨d, rfl⟩
  | enter =>
      simp only [stepCall] at stopped
      split at stopped
      · rename_i k held
        exact .inr (.inl ⟨rfl, k, held⟩)
      · cases stopped
  | join fetched =>
      refine .inr (.inr ⟨fetched, rfl, ?_⟩)
      cases all : m.fetchedAll fetched with
      | false => rfl
      | true => simp [stepCall, all] at stopped
  | probe | recheck =>
      simp only [stepCall] at stopped
      split at stopped <;> cases stopped
  | gather fetched left => cases left <;> cases stopped
  | scope | record => simp [stepCall, running] at stopped
  | run received x =>
      obtain ⟨outcome, rfl⟩ | goesOn := x.ended_or_running
      · cases stopped
      · rw [stepCall_run goesOn, Option.map_eq_none_iff] at stopped
        obtain ⟨outcome, ended⟩ := execution_stuck running prompt stopped
        exact absurd ended (goesOn outcome)
  | report outcome => cases outcome <;> cases stopped
  | _ => cases stopped

theorem fanOut_stuck {rounds : List (List NodeId)} {waiting : List TaskId}
    (here : m.tasks[t]? = some ⟨r, .fanOut id rounds waiting⟩) (stuck : m.step g t = none)
    (all : m.allDone waiting = true) : m.isDone t = true := by
  have stopped : m.stepFanOut r rounds waiting = none := by simpa [step, here] using stuck
  cases waiting with
  | nil =>
      cases rounds with
      | nil => simp [isDone, here, Task.isDone]
      | cons => cases stopped
  | cons w rest => simp [stepFanOut, all] at stopped

theorem entry_stuck {launch : TaskId} {stage : EntryStage}
    (here : m.tasks[t]? = some ⟨r, .entry launch id stage⟩) (stuck : m.step g t = none) :
    stage = .done ∨ (stage = .waiting ∧ m.permits launch = 0) ∨
      ∃ call, stage = .running call ∧ m.isDone call = false := by
  have stopped : m.stepEntry r launch id stage = none := by simpa [step, here] using stuck
  cases stage with
  | done => exact .inl rfl
  | waiting =>
      simp only [stepEntry] at stopped
      split at stopped
      · rename_i none
        exact .inr (.inl ⟨rfl, none⟩)
      · cases stopped
  | running call =>
      refine .inr (.inr ⟨call, rfl, ?_⟩)
      cases done : m.isDone call with
      | false => rfl
      | true => simp [stepEntry, done] at stopped

theorem settle_stuck {stage : SettleStage} (here : m.tasks[t]? = some ⟨r, .settle stage⟩)
    (running : m.run? r = some run) (stuck : m.step g t = none) :
    stage = .done ∨ ∃ batch, stage = .join batch ∧ m.allDone batch = false := by
  have stopped : m.stepSettle r stage = none := by simpa [step, here] using stuck
  cases stage with
  | done => exact .inl rfl
  | take =>
      simp only [stepSettle, running, Option.map_some] at stopped
      cases stopped
  | join batch =>
      refine .inr ⟨batch, rfl, ?_⟩
      cases all : m.allDone batch with
      | false => rfl
      | true => simp [stepSettle, all] at stopped

theorem launch_stuck {permits : Nat} {stage : LaunchStage}
    (here : m.tasks[t]? = some ⟨r, .launch permits stage⟩) (stuck : m.step g t = none) :
    stage = .done ∨ (∃ ts, stage = .join ts ∧ m.allDone ts = false) ∨
      ∃ s, stage = .settle s ∧ m.isDone s = false := by
  have stopped : m.stepLaunch g t r stage = none := by simpa [step, here] using stuck
  cases stage with
  | done => exact .inl rfl
  | announce | spawn => cases stopped
  | join ts =>
      refine .inr (.inl ⟨ts, rfl, ?_⟩)
      cases all : m.allDone ts with
      | false => rfl
      | true => simp [stepLaunch, all] at stopped
  | settle s =>
      refine .inr (.inr ⟨s, rfl, ?_⟩)
      cases done : m.isDone s with
      | false => rfl
      | true => simp [stepLaunch, done] at stopped

end Stuck

/-! ## Nobody waits for ever -/

/-- A call goes on from its upstreams when those that it waits for are done. -/
theorem fetchedAll_of_done {asked : List Upstream} {fetched : List Fetch}
    (got : List.Forall₂ (Fetched g first m) asked fetched)
    (done : ∀ u ∈ asked, u.viaPort = false → ∀ {r k stage}, first ≤ k → m.Calling r k u.node stage →
      m.isDone k = true) : m.fetchedAll fetched = true := by
  induction got with
  | nil => rfl
  | @cons u f asked fetched one _ ih =>
      have later := ih fun v member => done v (List.mem_cons_of_mem _ member)
      rw [fetchedAll] at later ⊢
      rw [List.all_cons, later, Bool.and_true]
      cases one with
      | awaited waits recent calling => exact done u List.mem_cons_self waits recent calling
      | _ => rfl

/-- Where every call is done or halts before a gate or before the calls of upstreams, and no
node that is called lies on a cycle, every call is done. -/
theorem Memo.calls_done (memo : m.Memo first) (feeding : m.Feeding g first)
    (clear : ∀ {j k id stage}, first ≤ k → m.Calling j k id stage → ¬ g.OnCycle id)
    (known : ∀ {j k id stage}, first ≤ k → m.Calling j k id stage → (g.node? id).isSome = true)
    (halted : ∀ {j k id stage}, first ≤ k → m.Calling j k id stage → (∃ d, stage = .done d) ∨
      (stage = .enter ∧ ∃ k, (m.cell id).gate = some k) ∨
      ∃ fetched, stage = .join fetched ∧ m.fetchedAll fetched = false)
    (id : NodeId) {j : RunId} {k : TaskId} {stage : Stage} (recent : first ≤ k)
    (calling : m.Calling j k id stage) : ∃ d, stage = .done d := by
  let Called (id : NodeId) : Prop := ∃ j k stage, first ≤ k ∧ m.Calling j k id stage
  refine Graph.waits_induction (Q := Called)
    (P := fun id => ∀ {j k stage}, first ≤ k → m.Calling j k id stage → ∃ d, stage = .done d)
    (fun id ⟨_, _, _, recent, calling⟩ => clear recent calling) (fun id _ ih => ?_) id
    ⟨j, k, stage, recent, calling⟩ recent calling
  -- a call that is not done is before the gate: those it waits for are done
  have open_ : ∀ {j k stage}, first ≤ k → m.Calling j k id stage → (∃ d, stage = .done d) ∨
      (stage = .enter ∧ ∃ k, (m.cell id).gate = some k) := by
    intro j k stage recent calling
    obtain done | gate | ⟨fetched, rfl, waits⟩ := halted recent calling
    · exact .inl done
    · exact .inr gate
    · obtain ⟨n, there⟩ := Option.isSome_iff_exists.1 (known recent calling)
      have intake : List.Forall₂ (Fetched g first m) n.upstream fetched :=
        feeding.calls calling there
      have all := fetchedAll_of_done intake fun u linked waits j k stage recent calling => by
        obtain ⟨d, rfl⟩ := ih u.node (Graph.waits_of_linked there linked waits)
          ⟨j, k, stage, recent, calling⟩ recent calling
        obtain ⟨_, stands⟩ := calling
        simp [isDone, stands, Task.isDone]
      cases waits.symm.trans all
  intro j k stage recent calling
  obtain done | ⟨-, holder, held⟩ := open_ recent calling
  · exact done
  · obtain ⟨i, inner, holding, inside⟩ := memo.holder held
    by_cases past : holder < first
    · obtain ⟨d, rfl⟩ := memo.past past holding
      cases inside
    · obtain ⟨d, rfl⟩ | ⟨rfl, -⟩ := open_ (Nat.le_of_not_lt past) holding <;> cases inside

section Over

variable {cs : List Connection} (wired : Wired cs g.nodes) (tended : m.Tended g first r h)
  (stuck : ∀ t, m.step g t = none)
include tended stuck

include wired in
/-- When no node that is called lies on a cycle, every call is done. -/
theorem stuck_calls (clear : ∀ {j k id stage}, first ≤ k → m.Calling j k id stage → ¬ g.OnCycle id)
    (id : NodeId) {j : RunId} {k : TaskId} {stage : Stage} (recent : first ≤ k)
    (calling : m.Calling j k id stage) : ∃ d, stage = .done d := by
  obtain ⟨run, running⟩ := tended.underway.running
  have due : ∀ {j k id stage}, first ≤ k → m.Calling j k id stage →
      j = r ∧ ∃ n, g.node? id = some n := by
    rintro j k id stage recent ⟨began, here⟩
    obtain ⟨old, -⟩ | harmless | ⟨-, rfl, due⟩ := tended.confined.tasks here
    · exact absurd old (Nat.not_lt_of_le recent)
    · exact harmless.elim
    · exact ⟨rfl, due.1.known wired⟩
  refine tended.memo.calls_done tended.feeding clear ?_ ?_ id recent calling
  · intro j k id stage recent calling
    exact Option.isSome_iff_exists.2 (due recent calling).2
  · intro j k id stage recent calling
    obtain ⟨rfl, n, known⟩ := due recent calling
    obtain ⟨began, here⟩ := calling
    exact call_stuck here known running (tended.attended.prompt here) (stuck k)

variable (engaged : m.Engaged g first r) (calls : ∀ id {j k stage}, first ≤ k →
  m.Calling j k id stage → ∃ d, stage = .done d)
include engaged calls

omit tended stuck in
theorem awaited_done {w : TaskId} {task : Task} (recent : first ≤ w)
    (here : m.tasks[w]? = some task) (awaits : task.work.Awaits k) : m.isDone k = true := by
  obtain ⟨later, j, id, stage, calling⟩ := engaged.awaited recent here awaits
  obtain ⟨d, rfl⟩ := calls id later calling
  obtain ⟨began, there⟩ := calling
  simp [isDone, there, Task.isDone]

omit tended in
theorem stuck_fanOuts {f : TaskId} (fans : m.Fans first f id) : m.isDone f = true := by
  obtain ⟨recent, j, rounds, waiting, here⟩ := fans
  refine fanOut_stuck here (stuck f) (List.all_eq_true.2 fun k member => ?_)
  exact awaited_done engaged calls recent here member

theorem stuck_permits : m.permits first = g.maxEntries := by
  have none : m.holdersOf first = 0 := by
    refine holdersOf_eq_zero fun k j id call here => ?_
    obtain ⟨-, done⟩ | harmless | ⟨recent, -⟩ := tended.confined.tasks here
    · cases done
    · exact harmless.elim
    · have done : m.isDone call = true := awaited_done engaged calls recent here rfl
      obtain wrong | ⟨wrong, -⟩ | ⟨c, same, undone⟩ := entry_stuck here (stuck k)
      · cases wrong
      · cases wrong
      · cases same
        cases undone.symm.trans done
  obtain ⟨_, n, _, there, balance⟩ := engaged.permits
  rw [permits_of_launchAt there, ← balance, none, Nat.add_zero]

/-- When no task can take a step, the launch is over. -/
theorem stuck_launch (positive : 0 < g.maxEntries) : m.LaunchAt r first .done := by
  obtain ⟨run, running⟩ := tended.underway.running
  have entries : ∀ {k j launch id stage}, first ≤ k →
      m.tasks[k]? = some ⟨j, .entry launch id stage⟩ → m.isDone k = true := by
    intro k j launch id stage recent here
    obtain rfl | ⟨-, none⟩ | ⟨call, rfl, undone⟩ := entry_stuck here (stuck k)
    · simp [isDone, here, Task.isDone]
    · rw [engaged.launches recent here, stuck_permits tended stuck engaged calls] at none
      exact absurd none (Nat.ne_of_gt positive)
    · cases undone.symm.trans (awaited_done engaged calls recent here rfl)
  obtain ⟨stage, permits, here⟩ := tended.underway.launch
  obtain rfl | ⟨ts, rfl, undone⟩ | ⟨s, rfl, undone⟩ := launch_stuck here (stuck first)
  · exact ⟨permits, here⟩
  · have all : m.allDone ts = true := by
      refine List.all_eq_true.2 fun k member => ?_
      obtain ⟨recent, j, launch, id, stage, there⟩ := engaged.joining ⟨permits, here⟩ k member
      exact entries recent there
    cases undone.symm.trans all
  · obtain ⟨j, stage, there⟩ := tended.underway.settling ⟨permits, here⟩
    have settled : m.isDone s = true := by
      obtain ⟨-, done⟩ | harmless | ⟨recent, rfl, -⟩ := tended.confined.tasks there
      · simpa [isDone, there] using done
      · exact harmless.elim
      · obtain rfl | ⟨batch, rfl, undone⟩ := settle_stuck there running (stuck s)
        · simp [isDone, there, Task.isDone]
        · have all : m.allDone batch = true := by
            refine List.all_eq_true.2 fun f member => ?_
            obtain ⟨id, fans⟩ := engaged.batches recent there f member
            exact stuck_fanOuts stuck engaged calls fans
          cases undone.symm.trans all
    cases undone.symm.trans settled

end Over

/-- **Nobody waits for ever.**  A run without cycles of links that wait and with all fires
on time has returned when no task can take a step. -/
theorem AtRest.returned {cs : List Connection} {execution : ExecutionId} {inputs : RunInputs}
    {schedule : List Move} (rest : m.AtRest g) (wired : Wired cs g.nodes) (acyclic : g.Acyclic)
    (positive : 0 < g.maxEntries)
    (onTime : OnTime ((m.launched g execution inputs).history g schedule))
    (stuck : ∀ t, ((m.launched g execution inputs).exec g schedule).step g t = none) :
    ((m.launched g execution inputs).exec g schedule).isDone m.nextTask = true := by
  have kept : ((m.launched g execution inputs).exec g schedule).Tended g m.nextTask m.nextRun
        ((m.launched g execution inputs).history g schedule) ∧
      ((m.launched g execution inputs).exec g schedule).Engaged g m.nextTask m.nextRun := by
    refine run_induction (P := fun h m' => OnTime h →
      m'.Tended g m.nextTask m.nextRun h ∧ m'.Engaged g m.nextTask m.nextRun)
      schedule ?_ ?_ (fun _ => ⟨rest.tended_launched, rest.engaged⟩) onTime
    · intro h m' t j work work' e m'' before here rule after onTime
      obtain ⟨tended, engaged⟩ := before onTime.of_append.1
      exact ⟨tended.step onTime.of_append.2 here rule after,
        engaged.step tended.underway tended.confined here rule after⟩
    · intro h m' now _ before onTime
      obtain ⟨tended, engaged⟩ := before onTime
      exact ⟨tended.tick now, { engaged with }⟩
  obtain ⟨tended, engaged⟩ := kept
  obtain ⟨permits, here⟩ := stuck_launch tended stuck engaged
    (stuck_calls wired tended stuck fun _ _ => acyclic _) positive
  simp [isDone, here, Task.isDone]

end Machine
end Flowgraph
