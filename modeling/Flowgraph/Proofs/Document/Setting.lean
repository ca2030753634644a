/- # Flowgraph.Proofs.Document.Setting -- what a document holds after a write

A write at `p ++ q` is a write at `p` of what `q` makes of the value there
(`Value.assign_append`), so all that can be said about a write is said about one container:
the one where the path of a reader parts from the path of the writer.  There a place that the
writer does not go through is what it was, unless it lies between the items the array had
and the item written, where nulls now stand (`Value.child?_putChild_ne`).
-/
import Flowgraph.Proofs.Document.Writing

set_option autoImplicit false

namespace Flowgraph

namespace Value

variable {v w : Value} {s t : Segment}

/-! ## One container -/

/-- The items of an array; no other value has any. -/
def items : Value → List Value
  | .arr items => items
  | _ => []

/-- The container that a write through a segment makes of a value, with what it puts there. -/
def putChild : Value → Segment → Value → Value
  | .obj ms, s, w => .obj (Members.put s.keyText w ms)
  | v, .index n, w => .arr ((padded v.items (n + 1)).set n w)
  | _, .key k, w => .obj [(k, w)]

/-- A segment leads behind the items that a value has and before the item another segment leads
to: a write through that one appends a null there. -/
def Fills (v : Value) (s t : Segment) : Prop :=
  ∃ n m, s = .index n ∧ t = .index m ∧ (∀ ms, v ≠ .obj ms) ∧ v.items.length ≤ m ∧ m < n

/-- Every write starts with a write into one container. -/
theorem assign_cons (v : Value) (s : Segment) (rest : Path) (new : Value) :
    v.assign (s :: rest) new = v.putChild s (((v.child? s).getD .null).assign rest new) := by
  have fresh (n : Nat) (w : Value) :
      Value.arr (List.replicate n .null ++ [w]) = .arr ((padded [] (n + 1)).set n w) := by
    simp [padded, List.replicate_succ']
  cases v with
  | obj ms => exact assign_obj ms s rest new
  | arr items => cases s <;> rfl
  | _ =>
      cases s with
      | key k => rfl
      | index n => exact fresh n _

theorem child?_putChild_self (v : Value) (s : Segment) (w : Value) :
    (v.putChild s w).child? s = some w := by
  cases v with
  | obj ms => exact Members.get?_put_self ms
  | _ => cases s <;> simp [putChild, child?, getElem?_padded_set, Segment.keyText, Members.get?]

theorem putChild_putChild (v : Value) (s : Segment) (w new : Value) :
    (v.putChild s w).putChild s new = v.putChild s new := by
  have grown (xs : List Value) (n : Nat) :
      (padded ((padded xs (n + 1)).set n w) (n + 1)).set n new = (padded xs (n + 1)).set n new := by
    have long : n + 1 ≤ xs.length + (n + 1 - xs.length) := by omega
    simp [padded, Nat.sub_eq_zero_of_le long]
  cases v with
  | obj ms => simp [putChild, Members.put_put]
  | _ => cases s <;> simp [putChild, items, grown, Members.put, Segment.keyText]

theorem child?_index (array : ∀ ms, v ≠ .obj ms) (n : Nat) : v.child? (.index n) = v.items[n]? := by
  cases v with
  | obj ms => exact absurd rfl (array ms)
  | _ => rfl

theorem child?_key (array : ∀ ms, v ≠ .obj ms) (k : String) : v.child? (.key k) = none := by
  cases v with
  | obj ms => exact absurd rfl (array ms)
  | _ => rfl

theorem putChild_index (array : ∀ ms, v ≠ .obj ms) (n : Nat) (w : Value) :
    v.putChild (.index n) w = .arr ((padded v.items (n + 1)).set n w) := by
  cases v with
  | obj ms => exact absurd rfl (array ms)
  | _ => rfl

/-- The nulls that a write through an index appends. -/
theorem child?_putChild_filled (fills : v.Fills s t) : (v.putChild s w).child? t = some .null := by
  obtain ⟨n, m, rfl, rfl, array, past, before⟩ := fills
  rw [putChild_index array, child?, getElem?_padded_set, if_neg (by omega), if_neg (by omega),
    if_pos before]

/-- The other places that a write does not go through. -/
theorem child?_putChild_ne (other : s.keyText ≠ t.keyText)
    (kept : ∀ items, v = .arr items → ∃ n, s = .index n) (clear : ¬ v.Fills s t) :
    (v.putChild s w).child? t = v.child? t := by
  by_cases object : ∃ ms, v = .obj ms
  · obtain ⟨ms, rfl⟩ := object
    exact Members.get?_put_ne (Ne.symm other) ms
  · have array (ms : Members) : v ≠ .obj ms := fun is => object ⟨ms, is⟩
    cases s with
    | key k =>
        cases v with
        | obj ms => exact absurd rfl (array ms)
        | arr xs =>
            obtain ⟨n, index⟩ := kept xs rfl
            cases index
        | _ => exact if_neg other
    | index n =>
        rw [putChild_index array]
        cases t with
        | key k => exact (child?_key array k).symm
        | index m =>
            have apart : m ≠ n := fun same => other (by rw [same])
            rw [child?_index array, child?, getElem?_padded_set, if_neg apart]
            split
            · rfl
            · have after : ¬ m < n := fun before =>
                clear ⟨n, m, rfl, rfl, array, by omega, before⟩
              rw [if_neg after, List.getElem?_eq_none (by omega)]

/-! ## Writing at a path -/

variable {root new : Value} {way rest more : Path}

/-- What a write finds at the end of a way: null where nothing is. -/
def slot (root : Value) (way : Path) : Value := (root.at? way).getD .null

theorem at?_cons (v : Value) (s : Segment) (rest : Path) :
    v.at? (s :: rest) = (v.child? s).bind (·.at? rest) := by
  rw [at?]
  cases v.child? s <;> rfl

theorem slot_cons (v : Value) (s : Segment) (rest : Path) :
    v.slot (s :: rest) = ((v.child? s).getD .null).slot rest := by
  rw [slot, at?_cons]
  cases v.child? s with
  | none => cases rest <;> rfl
  | some w => rfl

/-- A write goes into what the first part of its way leads to. -/
theorem assign_append (v : Value) (p q : Path) (new : Value) :
    v.assign (p ++ q) new = v.assign p ((v.slot p).assign q new) := by
  induction p generalizing v with
  | nil => rfl
  | cons s rest ih => rw [List.cons_append, assign_cons, assign_cons, ih, slot_cons]

/-- What a reader finds who parts from some way, whether or not anything is there. -/
theorem at?_append_cons (root : Value) (way : Path) (t : Segment) (more : Path) :
    root.at? (way ++ t :: more) = ((root.slot way).child? t).bind (·.at? more) := by
  rw [at?_append, slot]
  cases root.at? way with
  | none => rfl
  | some v => exact at?_cons v t more

/-- What a reader finds who parts from the way of a write, after it. -/
theorem at?_assign_parting (root : Value) (way : Path) (s t : Segment) (rest more : Path)
    (new : Value) :
    (root.assign (way ++ s :: rest) new).at? (way ++ t :: more) =
      (((root.slot way).putChild s (((root.slot way).child? s).getD .null |>.assign rest new)).child?
        t).bind (·.at? more) := by
  rw [at?_append_cons, assign_append, slot, at?_assign_self, assign_cons]
  rfl

theorem at?_assign_filled (fills : (root.slot way).Fills s t) :
    (root.assign (way ++ s :: rest) new).at? (way ++ t :: more) = Value.null.at? more := by
  rw [at?_assign_parting, child?_putChild_filled fills]
  rfl

/-- What can be read is not behind the items of an array. -/
theorem not_fills_of_at? {found : Value} (here : root.at? (way ++ t :: more) = some found) :
    ¬ (root.slot way).Fills s t := by
  rintro ⟨n, m, rfl, rfl, array, past, -⟩
  rw [at?_append_cons, child?_index array, List.getElem?_eq_none past] at here
  cases here

theorem at?_assign_ne (other : s.keyText ≠ t.keyText)
    (kept : ∀ items, root.at? way = some (.arr items) → ∃ n, s = .index n)
    (clear : ¬ (root.slot way).Fills s t) :
    (root.assign (way ++ s :: rest) new).at? (way ++ t :: more) = root.at? (way ++ t :: more) := by
  have array : ∀ items, root.slot way = .arr items → ∃ n, s = .index n := by
    intro items here
    cases found : root.at? way with
    | none => simp [slot, found] at here
    | some v => exact kept items (by simpa [slot, found] using here)
  rw [at?_assign_parting, child?_putChild_ne other array clear, ← at?_append_cons]

/-- The object that a write goes through keeps its members in their order. -/
theorem at?_assign_obj {ms : Members} (here : root.at? way = some (.obj ms)) :
    ∃ ms', (root.assign (way ++ s :: rest) new).at? way = some (.obj ms') ∧
      Members.keys ms' =
        if s.keyText ∈ Members.keys ms then Members.keys ms else Members.keys ms ++ [s.keyText] := by
  have found : root.slot way = .obj ms := by rw [slot, here]; rfl
  rw [assign_append, at?_assign_self, found, assign_obj]
  exact ⟨_, rfl, Members.keys_put ms⟩

end Value

/-! ## Writing into a document -/

namespace Document

variable {d d' : Document} {path : String} {new : Value} {p : Path}

theorem set_eq_ok : d.set path new = .ok d' ↔
    ∃ p, Path.parse path = .ok p ∧ Value.gap? (some d.root) p = none ∧
      d' = ⟨d.root.assign p new⟩ := by
  rw [set]
  cases Path.parse path with
  | error e => simp
  | ok p => cases gap : Value.gap? (some d.root) p <;> simp [gap, eq_comm]

theorem get?_of_parse (parsed : Path.parse path = .ok p) : d.get? path = d.root.at? p := by
  rw [get?, parsed]

end Document

/-- A write is read back at its path, and nothing else moves.  A path that parts from the written
one at a segment with another key text, in anything but an array that the written path goes on
from by a key, leads to what it led to before; only the places between the items an array had,
none if the write made it, and the item written now hold null.  An object that was there keeps its
members in their order, and if one is new, it comes last; there is a new one in an object on the
written path only. -/
theorem writes_move_nothing_else {d d' : Document} {path : String} {new : Value}
    (written : d.set path new = .ok d') :
    ∃ p, Path.parse path = .ok p ∧ d'.get? path = some new ∧
      (∀ other way s t rest more, p = way ++ s :: rest → Path.parse other = .ok (way ++ t :: more) →
        s.keyText ≠ t.keyText →
        (∀ items, d.root.at? way = some (.arr items) → ∃ n, s = .index n) →
        ((d.root.slot way).Fills s t → d'.get? other = Value.null.at? more) ∧
        (¬ (d.root.slot way).Fills s t → d'.get? other = d.get? other)) ∧
      ∀ q ms, d.root.at? q = some (.obj ms) →
        (∀ s rest, p = q ++ s :: rest →
          ∃ ms', d'.root.at? q = some (.obj ms') ∧ Members.keys ms' =
            if s.keyText ∈ Members.keys ms then Members.keys ms
            else Members.keys ms ++ [s.keyText]) ∧
        (∀ way s t rest more, p = way ++ s :: rest → q = way ++ t :: more → s.keyText ≠ t.keyText →
          (∀ items, d.root.at? way = some (.arr items) → ∃ n, s = .index n) →
          d'.root.at? q = some (.obj ms)) := by
  obtain ⟨p, parsed, -, rfl⟩ := Document.set_eq_ok.1 written
  refine ⟨p, parsed, ?_, ?_, ?_⟩
  · rw [Document.get?_of_parse parsed, Value.at?_assign_self]
  · intro other way s t rest more split read apart kept
    subst split
    rw [Document.get?_of_parse read, Document.get?_of_parse read]
    exact ⟨Value.at?_assign_filled, Value.at?_assign_ne apart kept⟩
  · intro q ms here
    constructor
    · intro s rest split
      subst split
      exact Value.at?_assign_obj here
    · intro way s t rest more split parts apart kept
      subst split parts
      rw [Value.at?_assign_ne apart kept (Value.not_fills_of_at? here), here]

/-- A write that makes an array with nulls before the item, in a member that comes last. -/
theorem writes_move_nothing_else_in_table :
    let before : Document := ⟨.obj [("z", .bool true), ("a", .null)]⟩
    let after : Document := ⟨.obj [("z", .bool true), ("a", .null),
      ("n", .arr [.null, .null, .obj [("k", .str "v")]])]⟩
    before.set "n.2.k" (.str "v") = .ok after ∧ after.get? "n.2.k" = some (.str "v") ∧
      after.get? "n[1]" = some .null ∧ after.get? "z" = before.get? "z" ∧
      ∃ ms, after.root = .obj ms ∧ Members.keys ms = ["z", "a", "n"] := by
  intro before after
  have written : before.set "n.2.k" (.str "v") = .ok after := by rfl
  have parsed : Path.parse "n.2.k" = .ok [.key "n", .index 2, .key "k"] := by rfl
  obtain ⟨p, parsed', back, others, members⟩ := writes_move_nothing_else written
  obtain rfl : p = [.key "n", .index 2, .key "k"] := by
    rw [parsed] at parsed'
    exact (Except.ok.inj parsed').symm
  refine ⟨written, back, ?_, ?_, ?_⟩
  · refine (others "n[1]" [.key "n"] (.index 2) (.index 1) [.key "k"] [] rfl rfl
      (by decide +kernel) (fun _ _ => ⟨2, rfl⟩)).1 ?_
    have fresh : before.root.slot [.key "n"] = .null := rfl
    exact ⟨2, 1, rfl, rfl, by simp [fresh], by decide, by decide⟩
  · refine (others "z" [] (.key "n") (.key "z") _ [] rfl rfl (by decide +kernel)
      nofun).2 ?_
    rintro ⟨n, m, index, -⟩
    cases index
  · obtain ⟨ms, here, keys⟩ := (members [] _ rfl).1 (.key "n") _ rfl
    exact ⟨ms, Option.some.inj here, keys⟩

end Flowgraph
