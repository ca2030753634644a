/- # Flowgraph.Proofs.Run.Descent -- every step brings a run nearer to its end

A program ends on every path, but no number bounds its length, since what it does next
depends on what it reads.  So work is ranked by ordinals: first the phase it is in, then
what its program can still do, then a count of the stages that are left.  A step replaces
its task by tasks that all rank below it (`Transition.rank_lt`), with two exceptions.
Beginning to compute a result starts afresh, which a node does once; and the task that
waits for everything begins again whenever it has taken fan-out tasks off the run's list,
so each task on the list counts too.  The measure falls with every step
(`Traced.descends`), in the lexicographic order of the number of nodes that have not begun
and of the multiset of ranks.
-/
import Mathlib.Data.Multiset.DershowitzManna
import Mathlib.Data.Prod.Lex
import Mathlib.Data.Set.Card
import Mathlib.SetTheory.Ordinal.Rank
import Flowgraph.Proofs.Run.Tidy

set_option autoImplicit false

namespace Flowgraph

/-! ## Ranks -/

namespace Program

/-- A program goes on as another, or leaves it behind. -/
inductive Within : Program → Program → Prop
  | publish {key value next} (answer) : Within (next answer) (.publish key value next)
  | publishOutput {name value next} (answer) : Within (next answer) (.publishOutput name value next)
  | readShared {next} (d) : Within (next d) (.readShared next)
  | notify {notice next} : Within next (.notify notice next)
  | fire {port next} (answer) : Within (next answer) (.fire port next)
  | readClock {next} (t) : Within (next t) (.readClock next)
  | pause {milliseconds next} : Within next (.pause milliseconds next)
  | leave {work next} : Within next (.leave work next)
  | left {work next} : Within work (.leave work next)

theorem acc_within (p : Program) : Acc Within p := by
  induction p with
  | finish outcome => exact ⟨_, fun _ within => by cases within⟩
  | publish _ _ next ih | publishOutput _ _ next ih | readShared next ih | fire _ next ih
  | readClock next ih => exact ⟨_, fun _ within => by cases within; exact ih _⟩
  | notify _ next ih | pause _ next ih => exact ⟨_, fun _ within => by cases within; exact ih⟩
  | leave work next left ih =>
      refine ⟨_, fun _ within => ?_⟩
      cases within with
      | leave => exact ih
      | left => exact left

instance : IsWellFounded Program Within := ⟨⟨acc_within⟩⟩

/-- How far a program is from its end at most. -/
noncomputable def rank (p : Program) : Ordinal.{0} := IsWellFounded.rank Within p

theorem Within.rank_lt {p q : Program} (within : Within p q) : p.rank < q.rank :=
  IsWellFounded.rank_lt_of_rel within

end Program

/-- A phase, what a program can still do, and a count of stages, in this order. -/
abbrev Rank := Nat ×ₗ Ordinal.{0} ×ₗ Nat

namespace Rank

def of (phase : Nat) (program : Ordinal.{0}) (count : Nat) : Rank :=
  toLex (phase, toLex (program, count))

variable {phase phase' : Nat} {program program' : Ordinal.{0}} {count count' : Nat}

theorem lt_of_phase (less : phase < phase') : of phase program count < of phase' program' count' :=
  Prod.Lex.toLex_lt_toLex.2 (.inl less)

theorem lt_of_program (less : program < program') :
    of phase program count < of phase program' count' :=
  Prod.Lex.toLex_lt_toLex.2 (.inr ⟨rfl, Prod.Lex.toLex_lt_toLex.2 (.inl less)⟩)

theorem lt_of_count (less : count < count') : of phase program count < of phase program count' :=
  Prod.Lex.toLex_lt_toLex.2 (.inr ⟨rfl, Prod.Lex.toLex_lt_toLex.2 (.inr ⟨rfl, less⟩)⟩)

/-- What a fan-out task counts that nobody waits for yet. -/
def tracked : Rank := of 0 0 3

end Rank

noncomputable def Execution.rank : Execution → Rank
  | .active p => .of 1 p.rank 0
  | .fired _ _ next => .of 1 (next (.ok ())).rank 2
  | .routed _ next => .of 1 (next (.ok ())).rank 1

noncomputable def Stage.rank : Stage → Rank
  | .mark => .of 3 0 1
  | .announce => .of 3 0 0
  | .gather _ left => .of 2 0 (3 + left.length)
  | .join _ => .of 2 0 2
  | .scope _ => .of 2 0 1
  | .record _ _ => .of 2 0 0
  | .run _ x => x.rank
  | .report _ => .of 0 1 7
  | .blame _ => .of 0 1 6
  | .store _ => .of 0 1 5
  | .publish _ => .of 0 1 4
  | .unmark _ => .of 0 1 3
  | .release _ => .of 0 1 2
  | .close _ => .of 0 1 1
  | .branch _ _ => .of 0 1 0
  | .probe => .of 0 0 4
  | .enter => .of 0 0 3
  | .recheck => .of 0 0 2
  | .yield _ => .of 0 0 1
  | .done _ => .of 0 0 0

noncomputable def Work.rank : Work → Rank
  | .call _ _ stage => stage.rank
  | .aside _ x => x.rank
  | .fanOut _ rounds waiting => .of 0 0 (5 + 2 * rounds.length + if waiting = [] then 0 else 1)
  | .entry _ _ .waiting => .of 0 0 6
  | .entry _ _ (.running _) => .of 0 0 5
  | .entry _ _ .done => .of 0 0 0
  | .launch _ .announce => .of 0 0 9
  | .launch _ .spawn => .of 0 0 8
  | .launch _ (.join _) => .of 0 0 7
  | .launch _ (.settle _) => .of 0 0 6
  | .launch _ .done => .of 0 0 0
  | .settle .take => .of 0 0 1
  | .settle (.join _) => .of 0 0 2
  | .settle .done => .of 0 0 0

/-- Permits count for nothing. -/
theorem Task.rank_granted (grant : Option (TaskId × Nat)) (k : TaskId) (task : Task) :
    (task.granted grant k).work.rank = task.work.rank :=
  view_granted (fun task => task.work.rank) (fun _ _ _ stage => by cases stage <;> rfl) grant k task

namespace Machine

variable {g : Graph} {m m' : Machine} {t k first : TaskId} {r j : RunId} {n : Node} {id : NodeId}
  {x x' : Execution} {work work' : Work} {e : Effect} {h : List Deed}

/-! ## Tasks -/

theorem ExecutionStep.rank_lt (step : ExecutionStep m r n x x' e) :
    x'.rank < x.rank ∧ ∀ task ∈ e.spawned, task.work.rank < x.rank := by
  have none : ∀ {a : Rank}, ∀ task ∈ ([] : List Task), task.work.rank < a :=
    fun _ new => absurd new (by simp)
  cases step with
  | publish => exact ⟨Rank.lt_of_program (Program.Within.publish _).rank_lt, none⟩
  | publishOutput => exact ⟨Rank.lt_of_program (Program.Within.publishOutput _).rank_lt, none⟩
  | readShared => exact ⟨Rank.lt_of_program (Program.Within.readShared _).rank_lt, none⟩
  | notify => exact ⟨Rank.lt_of_program Program.Within.notify.rank_lt, none⟩
  | portless | undeclared => exact ⟨Rank.lt_of_program (Program.Within.fire _).rank_lt, none⟩
  | late | queue => exact ⟨Rank.lt_of_program (Program.Within.fire _).rank_lt, none⟩
  | readClock => exact ⟨Rank.lt_of_program (Program.Within.readClock _).rank_lt, none⟩
  | pause => exact ⟨Rank.lt_of_program Program.Within.pause.rank_lt, none⟩
  | leave =>
      refine ⟨Rank.lt_of_program Program.Within.leave.rank_lt, fun task new => ?_⟩
      cases List.mem_singleton.1 new
      exact Rank.lt_of_program Program.Within.left.rank_lt
  | reported => exact ⟨Rank.lt_of_count (by decide), none⟩
  | route =>
      refine ⟨Rank.lt_of_count (by decide), fun task new => ?_⟩
      obtain ⟨_, -, rfl⟩ := List.mem_map.1 new
      exact Rank.lt_of_phase (by decide)
  | arrive => exact ⟨Rank.lt_of_count (by decide), none⟩

/-- A step leads to work of lower rank, but where a result begins to be computed, and where the
task that waits for everything takes what there is. -/
theorem Transition.rank_lt (rule : Transition g m t r work work' e) :
    (work'.rank < work.rank ∧ ∀ task ∈ e.spawned, task.work.rank < work.rank) ∨
    (∃ n began began', g.node? n.id = some n ∧ (m.cell n.id).result = none ∧
      work = .call n.id began .recheck ∧ work' = .call n.id began' .mark) ∨
    (work = .settle .take ∧ e.spawned = [] ∧ ∃ run, m.run? r = some run ∧ run.fanOut ≠ [] ∧
      work' = .settle (.join run.fanOut) ∧ (e.run run).fanOut = []) := by
  have none : ∀ {a : Rank}, ∀ task ∈ ([] : List Task), task.work.rank < a :=
    fun _ new => absurd new (by simp)
  cases rule with
  | call known step =>
      cases Graph.id_of_node? known
      cases step with
      | fresh missing => exact .inr (.inl ⟨_, _, _, known, missing, rfl, rfl⟩)
      | work step => exact .inl step.rank_lt
      | pull =>
          refine .inl ⟨Rank.lt_of_count (by simp), fun task new => ?_⟩
          cases List.mem_singleton.1 new
          exact Rank.lt_of_phase (by decide)
      | branch =>
          refine .inl ⟨Rank.lt_of_program one_pos, fun task new => ?_⟩
          cases List.mem_singleton.1 new
          exact Rank.lt_of_program one_pos
      | announce | noScope | unbound | invoke =>
          exact .inl ⟨Rank.lt_of_phase (by decide), none⟩
      | finish => exact .inl ⟨Rank.lt_of_phase (by decide), none⟩
      | skip | seen | unseen | asked => exact .inl ⟨Rank.lt_of_count (by simp), none⟩
      | _ => exact .inl ⟨Rank.lt_of_count (by decide), none⟩
  | aside known step => exact .inl step.rank_lt
  | @round _ targets rest =>
      refine .inl ⟨Rank.lt_of_count ?_, fun task new => ?_⟩
      · rw [List.length_cons]
        split <;> split <;> omega
      · obtain ⟨_, -, rfl⟩ := List.mem_map.1 new
        exact Rank.lt_of_count (by omega)
  | rested => exact .inl ⟨Rank.lt_of_count (by simp), none⟩
  | permit =>
      refine .inl ⟨Rank.lt_of_count (by decide), fun task new => ?_⟩
      cases List.mem_singleton.1 new
      exact Rank.lt_of_count (by decide)
  | entries =>
      refine .inl ⟨Rank.lt_of_count (by decide), fun task new => ?_⟩
      obtain ⟨_, -, rfl⟩ := List.mem_map.1 new
      exact Rank.lt_of_count (by decide)
  | joined =>
      refine .inl ⟨Rank.lt_of_count (by decide), fun task new => ?_⟩
      cases List.mem_singleton.1 new
      exact Rank.lt_of_count (by decide)
  | take running left => exact .inr (.inr ⟨rfl, rfl, _, running, left, rfl, rfl⟩)
  | _ => exact .inl ⟨Rank.lt_of_count (by decide), none⟩

/-- The ranks of all tasks. -/
noncomputable def ranks (m : Machine) : Multiset Rank :=
  m.tasks.toList.map fun task => task.work.rank

theorem coe_eraseIdx_add {α : Type*} (xs : List α) (small : t < xs.length) :
    (xs.eraseIdx t : Multiset α) + {xs[t]} = xs := by
  rw [← Multiset.coe_singleton, Multiset.coe_add, Multiset.coe_eq_coe]
  exact (List.perm_append_singleton _ _).trans (List.getElem_cons_eraseIdx_perm small)

/-- A step replaces the rank of its task. -/
theorem After.ranks (after : After m t r work' e m') (here : m.tasks[t]? = some ⟨r, work⟩) :
    ∃ others : Multiset Rank, m.ranks = others + {work.rank} ∧
      m'.ranks = others + {work'.rank} + e.spawned.map fun task => task.work.rank := by
  have whole := after.map_tasks (fun task => task.work.rank) Task.rank_granted here
  obtain ⟨small, mine⟩ := getElem_map_tasks (fun task => task.work.rank) here
  have before := coe_eraseIdx_add _ small
  have now := coe_eraseIdx_add ((m.tasks.toList.map fun task => task.work.rank).set t work'.rank)
    (by simpa using small)
  rw [mine] at before
  rw [List.eraseIdx_set_eq, List.getElem_set_self] at now
  exact ⟨_, before.symm, by rw [Machine.ranks, whole, ← Multiset.coe_add, ← now]⟩

/-! ## What is left to do -/

/-- How many fan-out tasks of a run nobody waits for yet. -/
def trackedTasks (m : Machine) (r : RunId) : Nat :=
  ((m.run? r).map fun run => run.fanOut.length).getD 0

/-- What a run still has to do besides beginning to compute results. -/
noncomputable def remaining (m : Machine) (r : RunId) : Multiset Rank :=
  m.ranks + Multiset.replicate (m.trackedTasks r) Rank.tracked

/-- Less is left when what was done is replaced by what ranks below it, and tracked tasks are no
more than before or rank below it too. -/
theorem remaining_lt {others new : Multiset Rank} {done : Rank} {before now : Nat}
    (below : ∀ rank ∈ new, rank < done) (fewer : now ≤ before ∨ Rank.tracked < done) :
    Multiset.IsDershowitzMannaLT (others + new + Multiset.replicate now Rank.tracked)
      (others + {done} + Multiset.replicate before Rank.tracked) := by
  obtain less | more := Nat.le_total now before
  · obtain ⟨gone, rfl⟩ := Nat.exists_eq_add_of_le less
    refine ⟨others + Multiset.replicate now Rank.tracked, new,
      {done} + Multiset.replicate gone Rank.tracked, by simp, add_right_comm _ _ _, ?_,
      fun rank member => ⟨done, by simp, below rank member⟩⟩
    rw [Multiset.replicate_add, ← add_assoc, ← add_assoc, add_right_comm others]
  · obtain ⟨came, rfl⟩ := Nat.exists_eq_add_of_le more
    refine ⟨others + Multiset.replicate before Rank.tracked,
      new + Multiset.replicate came Rank.tracked, {done}, by simp, ?_, add_right_comm _ _ _,
      fun rank member => ⟨done, by simp, ?_⟩⟩
    · rw [Multiset.replicate_add, ← add_assoc, ← add_assoc, add_right_comm others]
    · obtain old | tracked := Multiset.mem_add.1 member
      · exact below rank old
      · obtain ⟨some, rfl⟩ := Multiset.mem_replicate.1 tracked
        exact fewer.resolve_left (by omega)

/-- The nodes of the graph that have not begun. -/
def unbegun (g : Graph) (m : Machine) : Set NodeId := {id | id ∈ g.nodes.map Node.id ∧ ¬ m.Begun id}

theorem finite_unbegun (g : Graph) (m : Machine) : (m.unbegun g).Finite :=
  (List.finite_toSet (g.nodes.map Node.id)).subset fun _ both => both.1

section Step

variable (memo : m.Memo first) (here : m.tasks[t]? = some ⟨j, work⟩)
  (rule : Transition g m t j work work' e) (after : After m t j work' e m')
include memo here rule after

theorem unbegun_subset : m'.unbegun g ⊆ m.unbegun g :=
  fun _ ⟨known, waits⟩ => ⟨known, fun begun => waits (begun.step memo here rule after)⟩

/-- A node begins once. -/
theorem ncard_unbegun_lt {began began' : Instant} (known : g.node? n.id = some n)
    (missing : (m.cell n.id).result = none) (before : work = .call n.id began .recheck)
    (now : work' = .call n.id began' .mark) : (m'.unbegun g).ncard < (m.unbegun g).ncard := by
  subst before now
  refine Set.ncard_lt_ncard ?_ (finite_unbegun g m)
  refine (Set.ssubset_iff_of_subset (unbegun_subset memo here rule after)).2
    ⟨n.id, ⟨List.mem_map.2 ⟨n, Graph.mem_of_node? known, rfl⟩, ?_⟩, ?_⟩
  · rintro (⟨d, has⟩ | ⟨i, k, stage, calling, computing⟩)
    · cases missing.symm.trans has
    · have checking : m.Calling j t n.id .recheck := ⟨_, here⟩
      cases memo.alone checking calling rfl (by rw [computing]; rfl)
      cases (checking.unique calling).2.2
      cases computing
  · exact fun waits => waits.2 (.inr ⟨j, t, .mark, ⟨_, after.here⟩, rfl⟩)

end Step

/-- What is left: first the nodes that have not begun, then everything else. -/
noncomputable def left (g : Graph) (m : Machine) (r : RunId) : Nat × Multiset Rank :=
  ((m.unbegun g).ncard, m.remaining r)

/-- Less is left. -/
def Less : Nat × Multiset Rank → Nat × Multiset Rank → Prop :=
  Prod.Lex (· < ·) Multiset.IsDershowitzMannaLT

instance : IsWellFounded (Nat × Multiset Rank) Less :=
  ⟨WellFounded.prod_lex Nat.lt_wfRel.wf Multiset.wellFounded_isDershowitzMannaLT⟩

/-- A step leaves no more tracked tasks than there were, unless it starts a fan-out task. -/
theorem After.trackedTasks (after : After m t r work' e m')
    (rule : Transition g m t r work work' e) :
    m'.trackedTasks r ≤ m.trackedTasks r ∨ ∃ task ∈ e.spawned, Rank.tracked < task.work.rank := by
  rw [Machine.trackedTasks, Machine.trackedTasks, after.run, if_pos rfl]
  cases m.run? r with
  | none => exact .inl (Nat.le_refl _)
  | some run =>
      obtain same | ⟨-, i, id, rounds, new⟩ | ⟨cleared, -⟩ := rule.tracked run
      · exact .inl (by simp [same])
      · exact .inr ⟨_, List.mem_of_getElem? new, Rank.lt_of_count (by omega)⟩
      · exact .inl (by simp [cleared])

/-- **Every step brings the run nearer to its end.** -/
theorem Traced.descends (traced : m.Traced first r h) (memo : m.Memo first)
    (here : m.tasks[t]? = some ⟨j, work⟩) (rule : Transition g m t j work work' e)
    (after : After m t j work' e m') : Less (m'.left g r) (m.left g r) := by
  obtain rfl := traced.current here rule
  have fewer : (m'.unbegun g).ncard ≤ (m.unbegun g).ncard :=
    Set.ncard_le_ncard (unbegun_subset memo here rule after) (finite_unbegun g m)
  obtain ⟨others, before, now⟩ := after.ranks here
  obtain ⟨lower, spawned⟩ | ⟨n, began, began', known, missing, was, is⟩ |
    ⟨rfl, none, run, running, some, rfl, cleared⟩ := rule.rank_lt
  · refine Prod.Lex.right' _ fewer ?_
    rw [remaining, remaining, before, now, add_assoc others]
    refine remaining_lt (fun rank member => ?_) ?_
    · obtain same | new := Multiset.mem_add.1 member
      · rwa [Multiset.mem_singleton.1 same]
      · obtain ⟨task, there, rfl⟩ := List.mem_map.1 (Multiset.mem_coe.1 new)
        exact spawned task there
    · obtain fewer | ⟨task, there, above⟩ := after.trackedTasks rule
      · exact .inl fewer
      · exact .inr (above.trans (spawned task there))
  · exact Prod.Lex.left _ _ (ncard_unbegun_lt memo here rule after known missing was is)
  · -- what is taken off the list makes up for beginning again
    refine Prod.Lex.right' _ fewer ⟨others, {(Work.settle (.join run.fanOut)).rank},
      {(Work.settle .take).rank} + Multiset.replicate (m.trackedTasks j) Rank.tracked,
      ?_, ?_, ?_, ?_⟩
    · simp
    · rw [remaining, now, none, Machine.trackedTasks, after.run, if_pos rfl, running]
      simp [cleared]
    · rw [remaining, before, add_assoc]
    · intro rank member
      rw [Multiset.mem_singleton.1 member]
      refine ⟨Rank.tracked, Multiset.mem_add.2 (.inr (Multiset.mem_replicate.2 ⟨?_, rfl⟩)),
        Rank.lt_of_count (by decide)⟩
      simp [Machine.trackedTasks, running, some]

end Machine
end Flowgraph
