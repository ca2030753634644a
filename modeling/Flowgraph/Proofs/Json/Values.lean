/- # Flowgraph.Proofs.Json.Values -- values are read back

The form of a value says the tree of the value (`tree?_form`), and this tree has the value
as long as no object in it repeats a key and there is room for its containers
(`Tree.value?_ofValue`).  Strings, integers and the three words are read back whatever they
are.  Doubles are not: a long significand is read with a rounding step of its own, so it is
assumed of each double that its own text says it (`FloatReadsBack`).

A form *has a value* in some room if what it says has one there (`Form.Valued`).
-/
import Flowgraph.Json.Printer
import Flowgraph.Json.Record
import Flowgraph.Proofs.Json.Layout
import Flowgraph.Proofs.Json.Numerals

set_option autoImplicit false

namespace Flowgraph

open Json

/-- The text of a double, if it has one, is read as the double. -/
def FloatReadsBack (x : Float) : Prop :=
  ∀ cs, floatText? x = some cs →
    ∃ finite, (readTree cs).bind Decoder.number = some (.float x finite)

theorem FloatReadsBack.of_text {x : Float} {finite : x.isFinite = true}
    (back : (floatText? x).bind (fun cs => (readTree cs).bind Decoder.number) =
      some (.float x finite)) : FloatReadsBack x := by
  intro cs text
  rw [text, Option.bind_some] at back
  exact ⟨finite, back⟩

theorem FloatReadsBack.tree {x : Float} (back : FloatReadsBack x) {cs : List Char}
    (text : floatText? x = some cs) :
    ∃ finite, readTree cs = some (.num (some (.float x finite))) := by
  obtain ⟨finite, number⟩ := back cs text
  obtain ⟨t, tree, decoded⟩ := Option.bind_eq_some_iff.1 number
  refine ⟨finite, tree.trans ?_⟩
  cases t with
  | num n =>
      cases decoded
      rfl
  | _ => cases decoded

namespace Members

theorem put_fresh {key : String} {ms : Members} (v : Value) (fresh : key ∉ ms.keys) :
    ms.put key v = ms ++ [(key, v)] := by
  induction ms with
  | nil => rfl
  | cons m ms ih =>
      rw [keys, List.map_cons, List.mem_cons, not_or] at fresh
      rw [put, if_neg (Ne.symm fresh.1), ih fresh.2]
      rfl

/-- Members without a repeated key are what they are written one after the other. -/
theorem ofList_nodup {pairs : List (String × Value)} (distinct : (pairs.map Prod.fst).Nodup) :
    ofList pairs = pairs := by
  have grown : ∀ (later done : List (String × Value)), ((done ++ later).map Prod.fst).Nodup →
      later.foldl (fun ms p => put p.1 p.2 ms) done = done ++ later := by
    intro later
    induction later with
    | nil => simp
    | cons p later ih =>
        intro done distinct
        -- nothing is overwritten, since no key that is written was there
        have fresh : p.1 ∉ keys done := by
          rw [List.map_append, List.map_cons, List.nodup_append] at distinct
          exact fun member => distinct.2.2 p.1 member p.1 List.mem_cons_self rfl
        rw [List.foldl_cons, put_fresh p.2 fresh, ih]
        · simp
        · simpa using distinct
  exact grown pairs [] distinct

end Members

namespace Value

mutual

/-- Every double inside is read back from its text. -/
def FloatsReadBack : Value → Prop
  | .null => True
  | .bool _ => True
  | .num (.int _ _) => True
  | .num (.float x _) => FloatReadsBack x
  | .str _ => True
  | .arr items => FloatsReadBackItems items
  | .obj members => FloatsReadBackMembers members

def FloatsReadBackItems : List Value → Prop
  | [] => True
  | v :: vs => FloatsReadBack v ∧ FloatsReadBackItems vs

def FloatsReadBackMembers : List (String × Value) → Prop
  | [] => True
  | (_, v) :: ms => FloatsReadBack v ∧ FloatsReadBackMembers ms

end

end Value

namespace Json

/-! ## What the form of a value says -/

namespace Form

@[simp] theorem tree?_null : null.tree? = some .null := rfl

@[simp] theorem tree?_bool (b : Bool) : (bool b).tree? = some (.bool b) := by cases b <;> rfl

@[simp] theorem tree?_str (s : String) : (str s).tree? = some (.str (some s)) := readTree_quoted s

end Form

mutual

theorem tree?_form : ∀ v : Value, v.FloatsReadBack → (form v).tree? = some (Tree.ofValue v)
  | .null, _ => rfl
  | .bool b, _ => Form.tree?_bool b
  | .num (.int n bounds), _ => Number.readTree_intText bounds
  | .num (.float x finite), reads => by
      have text : floatText? x = some (Number.float x finite).text := if_pos finite
      obtain ⟨_, there⟩ := FloatReadsBack.tree reads text
      exact there
  | .str s, _ => Form.tree?_str s
  | .arr items, reads => by
      rw [form, Form.tree?, trees?_forms items reads, Option.map_some, Tree.ofValue]
  | .obj members, reads => by
      rw [form, Form.tree?, memberTrees?_forms members reads, Option.map_some, Tree.ofValue]

theorem trees?_forms : ∀ vs : List Value, Value.FloatsReadBackItems vs →
    Form.trees? (forms vs) = some (Tree.ofValues vs)
  | [], _ => rfl
  | v :: vs, reads => by
      rw [forms, Form.trees?, tree?_form v reads.1, trees?_forms vs reads.2, Tree.ofValues]

theorem memberTrees?_forms : ∀ ms : List (String × Value), Value.FloatsReadBackMembers ms →
    Form.memberTrees? (formMembers ms) = some (Tree.ofMembers ms)
  | [], _ => rfl
  | (k, v) :: ms, reads => by
      rw [formMembers, Form.memberTrees?, tree?_form v reads.1, memberTrees?_forms ms reads.2,
        Tree.ofMembers]

end

/-! ## Nesting -/

namespace Form

mutual

/-- How many containers stand inside each other. -/
def depth : Form → Nat
  | .scalar _ => 0
  | .arr items => depthItems items + 1
  | .obj members => depthMembers members + 1

def depthItems : List Form → Nat
  | [] => 0
  | f :: fs => max (depth f) (depthItems fs)

def depthMembers : List (String × Form) → Nat
  | [] => 0
  | (_, f) :: fs => max (depth f) (depthMembers fs)

end

end Form

namespace Tree

mutual

/-- **The tree of a value has the value**, given room for its containers. -/
theorem value?_ofValue : ∀ (v : Value) (room : Nat), v.Distinct → (form v).depth ≤ room →
    (ofValue v).value? room = some v
  | .null, _, _, _ => rfl
  | .bool _, _, _, _ => rfl
  | .num _, _, _, _ => rfl
  | .str _, _, _, _ => rfl
  | .arr items, room, distinct, depth => by
      rw [form, Form.depth] at depth
      rw [ofValue, value?, if_neg (by omega),
        values?_ofValues items (room - 1) distinct (by omega), Option.map_some]
  | .obj members, room, distinct, depth => by
      rw [form, Form.depth] at depth
      rw [ofValue, value?, if_neg (by omega),
        members?_ofMembers members (room - 1) distinct.2 (by omega), Option.map_some,
        Members.ofList_nodup distinct.1]

theorem values?_ofValues : ∀ (vs : List Value) (room : Nat), Value.DistinctItems vs →
    Form.depthItems (forms vs) ≤ room → values? room (ofValues vs) = some vs
  | [], _, _, _ => rfl
  | v :: vs, room, distinct, depth => by
      rw [forms, Form.depthItems] at depth
      rw [ofValues, values?, value?_ofValue v room distinct.1 (by omega),
        values?_ofValues vs room distinct.2 (by omega)]

theorem members?_ofMembers : ∀ (ms : List (String × Value)) (room : Nat),
    Value.DistinctMembers ms → Form.depthMembers (formMembers ms) ≤ room →
      members? room (ofMembers ms) = some ms
  | [], _, _, _ => rfl
  | (k, v) :: ms, room, distinct, depth => by
      rw [formMembers, Form.depthMembers] at depth
      simp only [ofMembers, members?, value?_ofValue v room distinct.1 (by omega),
        members?_ofMembers ms room distinct.2 (by omega)]

end

end Tree
end Json
end Flowgraph
