/- # Flowgraph.Proofs.Document.Writing -- what a write leaves where it was

A write at a path is read back at that path (`Value.at?_assign_self`), whatever it
had to make or replace on the way.  Of what else the value held it keeps everything
that is apart from the path (`Path.Apart`), with one exception: a write that goes on
by a key from a place where an array is puts an object in place of the array, and all
that the array held is gone (`Value.Displaces`, `Value.at?_assign_apart`).

Two segments lead to the same member of an object when their key texts are the same,
so it is by key texts that paths are compared.
-/
import Flowgraph.Document.Basic

set_option autoImplicit false

namespace Flowgraph

/-! ## Members -/

namespace Members

variable {key k : String} {v : Value}

@[simp] theorem get?_put_self (ms : Members) : get? key (put key v ms) = some v := by
  induction ms with
  | nil => simp [put, get?]
  | cons e rest ih =>
      obtain ⟨k, w⟩ := e
      by_cases here : k = key <;> simp [put, get?, here, ih]

theorem get?_put_ne (other : k ≠ key) (ms : Members) : get? k (put key v ms) = get? k ms := by
  induction ms with
  | nil => simp [put, get?, Ne.symm other]
  | cons e rest ih =>
      obtain ⟨j, w⟩ := e
      by_cases here : j = key
      · subst here
        simp [put, get?, Ne.symm other]
      · rw [put, if_neg here, get?, get?, ih]

theorem put_of_get? {ms : Members} (there : get? key ms = some v) : put key v ms = ms := by
  induction ms with
  | nil => cases there
  | cons e rest ih =>
      obtain ⟨k, old⟩ := e
      by_cases here : k = key
      · rw [get?, if_pos here] at there
        cases there
        simp [put, here]
      · rw [get?, if_neg here] at there
        rw [put, if_neg here, ih there]

theorem put_put {w : Value} (ms : Members) : put key w (put key v ms) = put key w ms := by
  induction ms with
  | nil => simp [put]
  | cons e rest ih =>
      obtain ⟨k, old⟩ := e
      by_cases here : k = key <;> simp [put, here, ih]

/-- A key that is there keeps its place, and one that is not comes last. -/
theorem keys_put (ms : Members) :
    keys (put key v ms) = if key ∈ keys ms then keys ms else keys ms ++ [key] := by
  induction ms with
  | nil => rfl
  | cons e rest ih =>
      obtain ⟨j, old⟩ := e
      have keys_cons (w : Value) (more : Members) : keys ((j, w) :: more) = j :: keys more := rfl
      by_cases here : j = key
      · subst here
        rw [put, if_pos rfl, keys_cons, keys_cons, if_pos List.mem_cons_self]
      · rw [put, if_neg here, keys_cons, keys_cons, ih]
        simp only [List.mem_cons, Ne.symm here, false_or]
        split <;> rfl

theorem mem_keys_put {ms : Members} : k ∈ keys (put key v ms) ↔ k = key ∨ k ∈ keys ms := by
  rw [keys_put]
  split
  · rename_i there
    exact ⟨.inr, fun either => either.elim (fun same => same ▸ there) id⟩
  · rw [List.mem_append, List.mem_singleton, or_comm]

theorem nodup_keys_put {ms : Members} (distinct : (keys ms).Nodup) : (keys (put key v ms)).Nodup := by
  rw [keys_put]
  split
  · exact distinct
  · rename_i fresh
    refine List.nodup_append.2 ⟨distinct, by simp, fun j old j' new => ?_⟩
    obtain rfl := List.mem_singleton.1 new
    exact fun same => fresh (same ▸ old)

end Members

/-! ## Paths -/

namespace Path

/-- The texts by which a path addresses the members of objects. -/
def texts (p : Path) : List String := p.map Segment.keyText

/-- None of two paths goes on from where the other ends. -/
def Apart (p q : Path) : Prop := ¬ p.texts <+: q.texts ∧ ¬ q.texts <+: p.texts

instance (p q : Path) : Decidable (Apart p q) := inferInstanceAs (Decidable (_ ∧ _))

theorem Apart.tail {s t : Segment} {p q : Path} (apart : Apart (s :: p) (t :: q))
    (same : s.keyText = t.keyText) : Apart p q := by
  simpa [Apart, texts, List.cons_prefix_cons, same] using apart

theorem Apart.left_ne_nil {p q : Path} (apart : Apart p q) : p ≠ [] := by
  rintro rfl
  exact apart.1 List.nil_prefix

theorem Apart.right_ne_nil {p q : Path} (apart : Apart p q) : q ≠ [] := by
  rintro rfl
  exact apart.2 List.nil_prefix

end Path

/-! ## Writing -/

namespace Value

/-- A write along `q` replaces an array that `p` leads through: where the array is, it goes on by
a key. -/
def Displaces (root : Value) (q p : Path) : Prop :=
  ∃ way way' key rest rest' items, q = way' ++ .key key :: rest' ∧ p = way ++ rest ∧
    Path.texts way = Path.texts way' ∧ root.at? way = some (.arr items)

theorem Displaces.step {v w : Value} {s t : Segment} {p q : Path} (found : v.child? t = some w)
    (same : s.keyText = t.keyText) (displaces : w.Displaces q p) : v.Displaces (s :: q) (t :: p) := by
  obtain ⟨way, way', key, rest, rest', items, rfl, rfl, alike, array⟩ := displaces
  refine ⟨t :: way, s :: way', key, rest, rest', items, rfl, rfl, ?_, ?_⟩
  · simpa [Path.texts, same] using alike
  · rw [at?, found]
    exact array

theorem displaces_here (items : List Value) (key : String) (p q : Path) :
    (Value.arr items).Displaces (.key key :: q) p :=
  ⟨[], [], key, p, q, items, rfl, rfl, rfl, rfl⟩

theorem assign_obj (ms : Members) (s : Segment) (rest : Path) (new : Value) :
    (Value.obj ms).assign (s :: rest) new =
      .obj (Members.put s.keyText (((Members.get? s.keyText ms).getD .null).assign rest new) ms) := by
  cases s <;> rfl

theorem getElem?_padded_set (items : List Value) (n m : Nat) (v : Value) :
    ((padded items (n + 1)).set n v)[m]? =
      if m = n then some v else if m < items.length then items[m]? else
        if m < n then some .null else none := by
  have long : n < (padded items (n + 1)).length := by simp [padded]; omega
  by_cases here : m = n
  · subst here
    rw [List.getElem?_set_self long, if_pos rfl]
  · rw [List.getElem?_set_ne (Ne.symm here), if_neg here, padded]
    by_cases old : m < items.length
    · rw [List.getElem?_append_left old, if_pos old]
    · rw [List.getElem?_append_right (by omega), List.getElem?_replicate, if_neg old]
      congr 1
      simp only [eq_iff_iff]
      omega

theorem at?_append (v : Value) (p q : Path) : v.at? (p ++ q) = (v.at? p).bind (·.at? q) := by
  induction p generalizing v with
  | nil => rfl
  | cons s rest ih =>
      rw [List.cons_append, at?, at?]
      cases v.child? s with
      | none => rfl
      | some w => exact ih w

/-- What is written is read back. -/
theorem at?_assign_self (v : Value) (p : Path) (new : Value) : (v.assign p new).at? p = some new := by
  induction p generalizing v with
  | nil => simp [assign, at?]
  | cons s rest ih =>
      cases v with
      | obj ms => simp [assign_obj, at?, child?, ih]
      | arr items =>
          cases s with
          | key k => simp [assign, at?, child?, Segment.keyText, Members.get?, ih]
          | index n => simp [assign, at?, child?, getElem?_padded_set, ih]
      | _ => cases s <;> simp [assign, at?, child?, Segment.keyText, Members.get?, ih]

/-- What is apart from a write stays, unless the write displaces an array on the way to it. -/
theorem at?_assign_apart {v found : Value} {p q : Path} (new : Value) (here : v.at? p = some found)
    (apart : Path.Apart q p) (kept : ¬ v.Displaces q p) : (v.assign q new).at? p = some found := by
  induction q generalizing v p with
  | nil => exact absurd rfl apart.left_ne_nil
  | cons s rest ih =>
      obtain - | ⟨t, more⟩ := p
      · exact absurd rfl apart.right_ne_nil
      rw [at?] at here
      cases down : v.child? t with
      | none => simp [down] at here
      | some w =>
          simp only [down] at here
          have below (same : s.keyText = t.keyText) : (w.assign rest new).at? more = some found :=
            ih here (apart.tail same) fun displaces => kept (displaces.step down same)
          cases v with
          | obj ms =>
              rw [assign_obj, at?, child?]
              rw [child?] at down
              by_cases same : s.keyText = t.keyText
              · rw [same, Members.get?_put_self, down]
                exact below same
              · rw [Members.get?_put_ne (Ne.symm same), down]
                exact here
          | arr items =>
              cases s with
              | key k => exact absurd (displaces_here items k (t :: more) rest) kept
              | index n =>
                  cases t with
                  | key k => cases down
                  | index m =>
                      rw [child?] at down
                      have inside : m < items.length := (List.getElem?_eq_some_iff.1 down).1
                      rw [assign, at?, child?, getElem?_padded_set]
                      by_cases same : m = n
                      · subst same
                        simp only [if_true, down]
                        exact below rfl
                      · simp only [same, inside, if_true, if_false, down]
                        exact here
          | _ => cases t <;> cases down

/-! ## Merging -/

theorem get?_mergeMembers {key : String} {old ms : Members} (other : key ∉ Members.keys ms) :
    Members.get? key (mergeMembers old ms) = Members.get? key old := by
  induction ms generalizing old with
  | nil => rw [mergeMembers]
  | cons e rest ih =>
      obtain ⟨k, v⟩ := e
      simp only [Members.keys, List.map_cons, List.mem_cons, not_or] at other
      obtain ⟨here, later⟩ := other
      rw [mergeMembers]
      split
      · rw [ih later, Members.get?_put_ne here]
      · rw [ih later, Members.get?_put_ne here]

/-- A merge of members leaves the other members of an object. -/
theorem at?_merge_obj {v found : Value} {s : Segment} {rest : Path} {ms : Members}
    (here : v.at? (s :: rest) = some found) (other : s.keyText ∉ Members.keys ms)
    (kept : ∀ items, v ≠ .arr items) : (v.merge (.obj ms)).at? (s :: rest) = some found := by
  cases v with
  | obj old =>
      rw [merge, at?, child?, get?_mergeMembers other]
      exact here
  | arr items => exact absurd rfl (kept items)
  | _ => cases s <;> cases here

end Value
end Flowgraph
