/- # Flowgraph.Proofs.Graph.Search -- what a depth-first search finds

A search has seen nodes that it has left and nodes that it is still to leave; whatever
follows a node that it has seen, it has seen too or is about to visit (`Explored`).  Every
step keeps that, and takes one off the steps that are left: a visit of a new node adds the
nodes behind it to what is to be done, and they were counted for that node from the start
(`cost`).  So a search that is given its bound ends with nothing left to do, and finds what
can be reached from the roots (`mem_postOrder`), each node once (`nodup_postOrder`).
-/
import Mathlib.Logic.Relation
import Flowgraph.Graph.Cycle

set_option autoImplicit false

namespace Flowgraph

namespace Search

variable {α : Type} {next : α → List α} {nodes roots seen left : List α} {tasks : List (Task α)}
  {x : α}

/-! ## Where a search stands -/

/-- A node can be reached from another. -/
def Reaches (next : α → List α) : α → α → Prop := Relation.ReflTransGen fun a b => b ∈ next a

/-- The nodes that are still to be left, the next one first. -/
def pending (tasks : List (Task α)) : List α :=
  tasks.filterMap fun
    | .leave x => some x
    | .visit _ => none

@[simp] theorem pending_leave (x : α) (tasks : List (Task α)) :
    pending (.leave x :: tasks) = x :: pending tasks := rfl

@[simp] theorem pending_visit (x : α) (tasks : List (Task α)) :
    pending (.visit x :: tasks) = pending tasks := rfl

@[simp] theorem pending_visits (xs : List α) (tasks : List (Task α)) :
    pending (xs.map .visit ++ tasks) = pending tasks := by
  induction xs with
  | nil => rfl
  | cons x xs ih => exact ih

theorem pending_map_visit (xs : List α) : pending (xs.map .visit) = [] := by
  simp [pending]

/-- The nodes that were seen have been left or will be, and what follows them is seen or visited
next.  All that is seen or visited can be reached from the roots. -/
structure Explored (next : α → List α) (roots : List α) (tasks : List (Task α))
    (seen left : List α) : Prop where
  seen_iff : ∀ x, x ∈ seen ↔ x ∈ left ++ pending tasks
  once : (left ++ pending tasks).Nodup
  rooted : ∀ r ∈ roots, r ∈ seen ∨ .visit r ∈ tasks
  followed : ∀ x ∈ seen, ∀ y ∈ next x, y ∈ seen ∨ .visit y ∈ tasks
  reached : ∀ x, x ∈ seen ∨ .visit x ∈ tasks → ∃ r ∈ roots, Reaches next r x

theorem explored_start (next : α → List α) (roots : List α) :
    Explored next roots (roots.map .visit) [] [] where
  seen_iff x := by rw [pending_map_visit, List.append_nil]
  once := by rw [pending_map_visit]; exact List.nodup_nil
  rooted r member := .inr (List.mem_map_of_mem member)
  followed x none := by cases none
  reached x known := by
    obtain none | visited := known
    · cases none
    · obtain ⟨r, member, same⟩ := List.mem_map.1 visited
      cases same
      exact ⟨x, member, .refl⟩

namespace Explored

theorem leave (explored : Explored next roots (.leave x :: tasks) seen left) :
    Explored next roots tasks seen (left ++ [x]) where
  seen_iff y := by simpa using explored.seen_iff y
  once := by simpa using explored.once
  rooted r member := by simpa using explored.rooted r member
  followed y old z after := by simpa using explored.followed y old z after
  reached y known := explored.reached y (known.imp_right (List.mem_cons_of_mem _))

/-- A node that was seen before needs no visit. -/
theorem skip (explored : Explored next roots (.visit x :: tasks) seen left) (known : x ∈ seen) :
    Explored next roots tasks seen left := by
  have still : ∀ {y}, y ∈ seen ∨ .visit y ∈ Task.visit x :: tasks → y ∈ seen ∨ .visit y ∈ tasks := by
    intro y due
    obtain old | due := due
    · exact .inl old
    · obtain same | later := List.mem_cons.1 due
      · cases same
        exact .inl known
      · exact .inr later
  exact
    { seen_iff := explored.seen_iff
      once := explored.once
      rooted := fun r member => still (explored.rooted r member)
      followed := fun y old z after => still (explored.followed y old z after)
      reached := fun y known => explored.reached y (known.imp_right (List.mem_cons_of_mem _)) }

/-- A visit of a new node goes on to all that follows it before it leaves the node. -/
theorem visit (explored : Explored next roots (.visit x :: tasks) seen left) (new : x ∉ seen) :
    Explored next roots ((next x).map .visit ++ .leave x :: tasks) (x :: seen) left := by
  have still : ∀ {y}, y ∈ seen ∨ .visit y ∈ Task.visit x :: tasks →
      y ∈ x :: seen ∨ .visit y ∈ (next x).map Task.visit ++ .leave x :: tasks := by
    intro y due
    obtain old | due := due
    · exact .inl (List.mem_cons_of_mem _ old)
    · obtain same | later := List.mem_cons.1 due
      · cases same
        exact .inl List.mem_cons_self
      · exact .inr (List.mem_append_right _ (List.mem_cons_of_mem _ later))
  have unlisted : x ∉ left ++ pending tasks := fun listed => new ((explored.seen_iff x).2 listed)
  have same : (left ++ x :: pending tasks).Perm (x :: (left ++ pending tasks)) :=
    List.perm_middle
  refine
    { seen_iff := fun y => ?_
      once := ?_
      rooted := fun r member => still (explored.rooted r member)
      followed := fun y known z after => ?_
      reached := fun y known => ?_ }
  · rw [pending_visits, pending_leave, same.mem_iff, List.mem_cons, List.mem_cons,
      explored.seen_iff y, pending_visit]
  · rw [pending_visits, pending_leave, same.nodup_iff]
    exact List.nodup_cons.2 ⟨unlisted, explored.once⟩
  · obtain same | old := List.mem_cons.1 known
    · subst same
      exact .inr (List.mem_append_left _ (List.mem_map_of_mem after))
    · exact still (explored.followed y old z after)
  · have root : ∃ r ∈ roots, Reaches next r x := explored.reached x (.inr List.mem_cons_self)
    obtain known | due := known
    · obtain same | old := List.mem_cons.1 known
      · exact same ▸ root
      · exact explored.reached y (.inl old)
    · obtain behind | due := List.mem_append.1 due
      · obtain ⟨z, after, same⟩ := List.mem_map.1 behind
        cases same
        obtain ⟨r, member, reaches⟩ := root
        exact ⟨r, member, reaches.tail after⟩
      · obtain same | later := List.mem_cons.1 due
        · cases same
        · exact explored.reached y (.inr (List.mem_cons_of_mem _ later))

/-- When nothing is left to do, what was left is what can be reached. -/
theorem mem_left (explored : Explored next roots [] seen left) (x : α) :
    x ∈ left ↔ ∃ r ∈ roots, Reaches next r x := by
  have left_iff : ∀ y, y ∈ left ↔ y ∈ seen := fun y => by simpa [pending] using (explored.seen_iff y).symm
  rw [left_iff]
  constructor
  · exact fun known => explored.reached x (.inl known)
  · rintro ⟨r, member, reaches⟩
    induction reaches with
    | refl => exact (explored.rooted r member).resolve_right List.not_mem_nil
    | tail _ after known => exact (explored.followed _ known _ after).resolve_right List.not_mem_nil

end Explored

/-! ## How long it takes -/

variable [DecidableEq α]

/-- The steps that the nodes not seen yet will take: to leave each, and to visit what follows it. -/
def cost (next : α → List α) (nodes seen : List α) : Nat :=
  nodes.foldr (fun x n => (if x ∈ seen then 0 else (next x).length + 1) + n) 0

theorem bound_eq (next : α → List α) (nodes roots : List α) :
    bound next nodes roots = cost next nodes [] + (roots.length + 1) := by
  induction nodes with
  | nil => simp [bound, cost]
  | cons x rest ih =>
      simp only [bound, cost, List.not_mem_nil, if_false, List.foldr_cons] at ih ⊢
      omega

/-- Nothing costs more when one node more has been seen. -/
theorem cost_cons_le (next : α → List α) (nodes seen : List α) (x : α) :
    cost next nodes (x :: seen) ≤ cost next nodes seen := by
  induction nodes with
  | nil => exact Nat.le_refl _
  | cons y rest ih =>
      refine Nat.add_le_add ?_ ih
      by_cases old : y ∈ seen
      · rw [if_pos (List.mem_cons_of_mem _ old)]
        exact Nat.zero_le _
      · rw [if_neg old]
        split <;> omega

variable (next) in
/-- A visit uses up what was counted for its node. -/
theorem cost_visit (known : x ∈ nodes) (new : x ∉ seen) :
    (next x).length + 1 + cost next nodes (x :: seen) ≤ cost next nodes seen := by
  induction nodes with
  | nil => cases known
  | cons y rest ih =>
      simp only [cost, List.foldr_cons] at ih ⊢
      by_cases same : y = x
      · subst same
        have later := cost_cons_le next rest seen y
        simp only [cost] at later
        rw [if_pos List.mem_cons_self, if_neg new]
        omega
      · have later := ih ((List.mem_cons.1 known).resolve_left (Ne.symm same))
        have alike : y ∈ x :: seen ↔ y ∈ seen := by simp [same]
        simp only [alike]
        omega

/-- A search that has enough steps ends with nothing left to do. -/
theorem Explored.walk (closed : ∀ x ∈ nodes, ∀ y ∈ next x, y ∈ nodes) (steps : Nat)
    {tasks : List (Task α)} {seen left : List α} (known : ∀ x, .visit x ∈ tasks → x ∈ nodes)
    (enough : tasks.length + cost next nodes seen ≤ steps)
    (explored : Explored next roots tasks seen left) :
    ∃ seen', Explored next roots [] seen' (walk next steps tasks seen left) := by
  induction steps generalizing tasks seen left with
  | zero =>
      obtain rfl : tasks = [] := List.length_eq_zero_iff.1 (by omega)
      exact ⟨seen, explored⟩
  | succ steps ih =>
      cases tasks with
      | nil => exact ⟨seen, explored⟩
      | cons task tasks =>
          have later : ∀ x, .visit x ∈ tasks → x ∈ nodes :=
            fun x due => known x (List.mem_cons_of_mem _ due)
          rw [List.length_cons] at enough
          cases task with
          | leave x => exact ih later (by omega) explored.leave
          | visit x =>
              rw [Search.walk]
              split
              · rename_i old
                exact ih later (by omega) (explored.skip old)
              · rename_i new
                have here : x ∈ nodes := known x List.mem_cons_self
                have counted := cost_visit next here new
                refine ih (fun y due => ?_) ?_ (explored.visit new)
                · obtain behind | due := List.mem_append.1 due
                  · obtain ⟨z, after, same⟩ := List.mem_map.1 behind
                    cases same
                    exact closed x here y after
                  · exact later y ((List.mem_cons.1 due).resolve_left nofun)
                · simp only [List.length_append, List.length_map, List.length_cons]
                  omega

/-! ## What it finds -/

section Found

variable (closed : ∀ x ∈ nodes, ∀ y ∈ next x, y ∈ nodes) (within : ∀ r ∈ roots, r ∈ nodes)
include closed within

theorem explored_postOrder : ∃ seen, Explored next roots [] seen (postOrder next nodes roots) := by
  refine Explored.walk closed _ (fun x due => ?_) ?_ (explored_start next roots)
  · obtain ⟨r, member, same⟩ := List.mem_map.1 due
    cases same
    exact within x member
  · rw [bound_eq, List.length_map]
    omega

/-- **A search finds what can be reached from its roots.** -/
theorem mem_postOrder (x : α) :
    x ∈ postOrder next nodes roots ↔ ∃ r ∈ roots, Reaches next r x := by
  obtain ⟨seen, explored⟩ := explored_postOrder closed within
  exact explored.mem_left x

theorem nodup_postOrder : (postOrder next nodes roots).Nodup := by
  obtain ⟨seen, explored⟩ := explored_postOrder closed within
  simpa [pending] using explored.once

end Found

end Search
end Flowgraph
