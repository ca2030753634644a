/- # Flowgraph.Proofs.Json.Depth -- how deep a tree is

`Tree.depth` is the number of containers that stand inside each other.  A tree that has a value in
some room has it in every room that its depth fits in, and in no other.
-/
import Flowgraph.Json.Tree

set_option autoImplicit false

namespace Flowgraph.Json

namespace Tree

mutual

/-- How many containers stand inside each other. -/
def depth : Tree → Nat
  | .null => 0
  | .bool _ => 0
  | .num _ => 0
  | .str _ => 0
  | .arr items => depthItems items + 1
  | .obj members => depthMembers members + 1

def depthItems : List Tree → Nat
  | [] => 0
  | t :: ts => max (depth t) (depthItems ts)

def depthMembers : List (Text × Tree) → Nat
  | [] => 0
  | (_, t) :: ts => max (depth t) (depthMembers ts)

end

theorem depthItems_le_iff {ts : List Tree} {n : Nat} :
    depthItems ts ≤ n ↔ ∀ t ∈ ts, t.depth ≤ n := by
  induction ts with
  | nil => simp [depthItems]
  | cons t ts ih => rw [depthItems, Nat.max_le, ih, List.forall_mem_cons]

theorem depthMembers_le_iff {ms : List (Text × Tree)} {n : Nat} :
    depthMembers ms ≤ n ↔ ∀ t ∈ ms.map Prod.snd, t.depth ≤ n := by
  induction ms with
  | nil => simp [depthMembers]
  | cons m ms ih => rw [depthMembers, Nat.max_le, ih, List.map_cons, List.forall_mem_cons]

/-! ## Values -/

mutual

theorem depth_le_of_value? : ∀ (t : Tree) (room : Nat) (v : Value), t.value? room = some v →
    t.depth ≤ room
  | .null, _, _, _ | .bool _, _, _, _ | .num _, _, _, _ | .str _, _, _, _ => Nat.zero_le _
  | .arr items, room, v, valued => by
      simp only [value?, Option.ite_none_left_eq_some] at valued
      obtain ⟨vs, each, -⟩ := Option.map_eq_some_iff.1 valued.2
      have deep := depthItems_le_of_values? items (room - 1) vs each
      rw [depth]
      omega
  | .obj members, room, v, valued => by
      simp only [value?, Option.ite_none_left_eq_some] at valued
      obtain ⟨ms, each, -⟩ := Option.map_eq_some_iff.1 valued.2
      have deep := depthMembers_le_of_members? members (room - 1) ms each
      rw [depth]
      omega

theorem depthItems_le_of_values? : ∀ (ts : List Tree) (room : Nat) (vs : List Value),
    values? room ts = some vs → depthItems ts ≤ room
  | [], _, _, _ => Nat.zero_le _
  | t :: ts, room, vs, valued => by
      simp only [values?] at valued
      split at valued
      · rename_i v vs' one later
        rw [depthItems, Nat.max_le]
        exact ⟨depth_le_of_value? t room v one, depthItems_le_of_values? ts room vs' later⟩
      · cases valued

theorem depthMembers_le_of_members? : ∀ (ms : List (Text × Tree)) (room : Nat)
    (vs : List (String × Value)), members? room ms = some vs → depthMembers ms ≤ room
  | [], _, _, _ => Nat.zero_le _
  | (k, t) :: ms, room, vs, valued => by
      simp only [members?] at valued
      split at valued
      · rename_i k' v vs' one later
        rw [depthMembers, Nat.max_le]
        exact ⟨depth_le_of_value? t room v one, depthMembers_le_of_members? ms room vs' later⟩
      · cases valued

end

mutual

/-- **A tree has the same value in every room that it fits in.** -/
theorem value?_of_depth_le : ∀ (t : Tree) {room room' : Nat} {v : Value}, t.value? room = some v →
    t.depth ≤ room' → t.value? room' = some v
  | .null, _, _, _, valued, _ | .bool _, _, _, _, valued, _ | .num _, _, _, _, valued, _
  | .str _, _, _, _, valued, _ => valued
  | .arr items, room, room', v, valued, deep => by
      rw [depth] at deep
      simp only [value?, Option.ite_none_left_eq_some] at valued ⊢
      obtain ⟨vs, each, rfl⟩ := Option.map_eq_some_iff.1 valued.2
      have fits : depthItems items ≤ room' - 1 := by omega
      have each := values?_of_depth_le items each fits
      exact ⟨by omega, by rw [each]; rfl⟩
  | .obj members, room, room', v, valued, deep => by
      rw [depth] at deep
      simp only [value?, Option.ite_none_left_eq_some] at valued ⊢
      obtain ⟨ms, each, rfl⟩ := Option.map_eq_some_iff.1 valued.2
      have fits : depthMembers members ≤ room' - 1 := by omega
      have each := members?_of_depth_le members each fits
      exact ⟨by omega, by rw [each]; rfl⟩

theorem values?_of_depth_le : ∀ (ts : List Tree) {room room' : Nat} {vs : List Value},
    values? room ts = some vs → depthItems ts ≤ room' → values? room' ts = some vs
  | [], _, _, _, valued, _ => valued
  | t :: ts, room, room', vs, valued, deep => by
      rw [depthItems, Nat.max_le] at deep
      simp only [values?] at valued ⊢
      split at valued
      · rename_i v vs' one later
        rw [value?_of_depth_le t one deep.1, values?_of_depth_le ts later deep.2]
        exact valued
      · cases valued

theorem members?_of_depth_le : ∀ (ms : List (Text × Tree)) {room room' : Nat}
    {vs : List (String × Value)}, members? room ms = some vs → depthMembers ms ≤ room' →
      members? room' ms = some vs
  | [], _, _, _, valued, _ => valued
  | (k, t) :: ms, room, room', vs, valued, deep => by
      rw [depthMembers, Nat.max_le] at deep
      simp only [members?] at valued ⊢
      split at valued
      · rename_i k' v vs' one later
        rw [value?_of_depth_le t one deep.1, members?_of_depth_le ms later deep.2]
        exact valued
      · cases valued

end

end Tree
end Flowgraph.Json
