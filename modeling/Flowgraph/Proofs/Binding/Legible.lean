/- # Flowgraph.Proofs.Binding.Legible -- arrays that a template writes are read back

A template writes the strings of an array without quotes and puts a blank behind each comma.  What
it writes is read back if its strings are bare words (`Value.Legible`): the scan cuts it at the
commas that were written, each piece is repaired to what was written there, and a text that happens
to be JSON already is so because every piece is (`readsBack_array`).
-/
import Flowgraph.Proofs.Binding.Mapping
import Flowgraph.Proofs.Json.Values

set_option autoImplicit false

namespace Flowgraph

open Json

namespace Binding

/-- A text that can only have been a string: it has no marks and no blanks at its ends, and it is no
JSON. -/
structure Bare (cs : List Char) : Prop where
  some : cs ≠ []
  solid : Text.Solid cs
  unmarked : ∀ c ∈ cs, ¬Mark c
  text : isJson cs = false

instance (cs : List Char) : Decidable (Bare cs) :=
  decidable_of_iff (cs ≠ [] ∧ (cs.head?.all (!Text.isBlank ·) = true ∧
      cs.getLast?.all (!Text.isBlank ·) = true) ∧ cs.all (fun c => !decide (Mark c)) = true ∧
      isJson cs = false) <| by
    constructor
    · rintro ⟨some, ⟨first, last⟩, unmarked, text⟩
      refine ⟨some, ⟨?_, ?_⟩, unmarked_of_all unmarked, text⟩
      · simpa [Option.all_eq_true] using first
      · simpa [Text.EndsSolid, Option.all_eq_true] using last
    · rintro ⟨some, ⟨first, last⟩, unmarked, text⟩
      refine ⟨some, ⟨?_, ?_⟩, by simpa using unmarked, text⟩
      · simpa [Option.all_eq_true] using first
      · simpa [Text.EndsSolid, Option.all_eq_true] using last

end Binding

namespace Value

mutual

/-- A value that can be told from its display text inside an array. -/
def Legible : Value → Prop
  | .null => False
  | .bool _ => True
  | .num (.int _ _) => True
  | .num (.float _ _) => False
  | .str s => Binding.Bare s.toList
  | .arr items => LegibleItems items
  | .obj members => (Value.obj members).Distinct ∧ (Value.obj members).FloatsReadBack

def LegibleItems : List Value → Prop
  | [] => True
  | v :: vs => Legible v ∧ LegibleItems vs

end

mutual

theorem Legible.distinct : ∀ v : Value, v.Legible → v.Distinct
  | .bool _, _ => trivial
  | .num _, _ => trivial
  | .str _, _ => trivial
  | .arr items, legible => LegibleItems.distinct items legible
  | .obj _, legible => legible.1

theorem LegibleItems.distinct : ∀ vs : List Value, LegibleItems vs → DistinctItems vs
  | [], _ => trivial
  | v :: vs, legible => ⟨Legible.distinct v legible.1, LegibleItems.distinct vs legible.2⟩

end

end Value

namespace Binding

open Value (displayChars displayItems)

variable {v : Value} {items : List Value} {texts : List (List Char)} {ts : List Tree} {n : Nat}

/-! ## The display of an array -/

/-- Texts with a blank before each but the first. -/
def spaced : List (List Char) → List (List Char)
  | [] => []
  | cs :: rest => cs :: rest.map (' ' :: ·)

theorem displayItems_eq (vs : List Value) :
    displayItems vs = joined (spaced (vs.map displayChars)) := by
  induction vs with
  | nil => rfl
  | cons v vs ih =>
      cases vs with
      | nil => rfl
      | cons w rest =>
          have blank : joined ((' ' :: w.displayChars) :: (rest.map displayChars).map (' ' :: ·)) =
              ' ' :: displayItems (w :: rest) := by
            rw [ih]
            exact joined_extendFirst ' ' (List.cons_ne_nil _ _)
          rw [displayItems]
          exact congrArg (fun later => v.displayChars ++ ',' :: later) blank.symm

theorem displayChars_arr (items : List Value) :
    (Value.arr items).displayChars = '[' :: joined (spaced (items.map displayChars)) ++ [']'] := by
  rw [displayChars, displayItems_eq]

/-- What does not mind a blank in front is the same for the texts as they are. -/
theorem map_spaced {α : Type} {f : List Char → α} (blind : ∀ cs, f (' ' :: cs) = f cs)
    (texts : List (List Char)) : (spaced texts).map f = texts.map f := by
  cases texts with
  | nil => rfl
  | cons cs rest =>
      rw [spaced, List.map_cons, List.map_cons, List.map_map]
      exact congrArg (f cs :: ·) (List.map_congr_left fun ds _ => blind ds)

theorem whole_spaced (each : ∀ cs ∈ texts, ItemScan.Whole cs) :
    ∀ cs ∈ spaced texts, ItemScan.Whole cs := by
  have blank : ItemScan.Whole [' '] := ItemScan.whole_of_unmarked (unmarked_of_all rfl)
  cases texts with
  | nil => exact each
  | cons cs rest =>
      intro ds member
      obtain rfl | later := List.mem_cons.1 member
      · exact each ds List.mem_cons_self
      · obtain ⟨es, there, rfl⟩ := List.mem_map.1 later
        exact blank.append (each es (List.mem_cons_of_mem _ there))

theorem readTree_space (cs : List Char) : readTree (' ' :: cs) = readTree cs := by
  have space : Blank [' '] := by
    intro c member
    rw [List.mem_singleton.1 member]
    rfl
  exact readTree_blank space

/-! ## Reading back -/

/-- What the display of a value is repaired to says the value. -/
structure ReadsBack (v : Value) : Prop where
  some : v.displayChars ≠ []
  solid : Text.Solid v.displayChars
  whole : ItemScan.Whole v.displayChars
  read : readTree (repaired v.displayChars) = .some (Tree.ofValue v)

/-- A display that is JSON of the value is left alone. -/
theorem readsBack_json (solid : Text.Solid v.displayChars)
    (read : readTree v.displayChars = some (Tree.ofValue v)) (distinct : v.Distinct)
    (fits : (form v).depth ≤ maxDepth) : ReadsBack v where
  some := by
    intro empty
    rw [empty] at read
    cases read
  solid := solid
  whole := whole_of_readTree read
  read := by
    have json : parseChars v.displayChars = .some v := by
      rw [parseChars, read]
      exact Tree.value?_ofValue v maxDepth distinct fits
    rw [repaired_of_isJson (by rw [isJson, json]; rfl), read]

theorem readsBack_string {s : String} (bare : Bare s.toList) : ReadsBack (.str s) where
  some := bare.some
  solid := bare.solid
  whole := ItemScan.whole_of_unmarked bare.unmarked
  read := by
    have unclosed : isBracketed s.toList = false := by
      refine Bool.eq_false_iff.2 fun bracketed => ?_
      obtain ⟨middle, shape⟩ := isBracketed_iff.1 bracketed
      exact bare.unmarked '[' (by rw [shape]; exact List.mem_cons_self) (by decide)
    rw [displayChars, repaired_eq, bare.text, unclosed]
    simp [readTree_quoted, Tree.ofValue]

theorem ofValues_eq (vs : List Value) : Tree.ofValues vs = vs.map Tree.ofValue := by
  induction vs with
  | nil => rfl
  | cons v vs ih => rw [Tree.ofValues, ih, List.map_cons]

theorem isSome_of_values? {vs : List Value} (values : Tree.values? n ts = some vs) :
    ∀ t ∈ ts, (t.value? n).isSome = true := by
  induction ts generalizing vs with
  | nil => nofun
  | cons t ts ih =>
      rw [Tree.values?] at values
      split at values
      · rename_i v vs' value later
        intro u member
        obtain rfl | there := List.mem_cons.1 member
        · rw [value]
          rfl
        · exact ih later u there
      · cases values

/-- Displays that are JSON as they are say the values. -/
theorem trees_of_json (each : ∀ v ∈ items, ReadsBack v) (fits : n ≤ maxDepth)
    (reads : (items.map displayChars).map readTree = ts.map some)
    (json : ∀ t ∈ ts, (t.value? n).isSome = true) : ts = items.map Tree.ofValue := by
  induction items generalizing ts with
  | nil =>
      cases ts with
      | nil => rfl
      | cons => cases reads
  | cons v items ih =>
      cases ts with
      | nil => cases reads
      | cons t ts =>
          obtain ⟨read, later⟩ := List.cons.inj reads
          obtain ⟨w, value⟩ := Option.isSome_iff_exists.1 (json t List.mem_cons_self)
          have parsed : parseChars v.displayChars = some w := by
            refine valueWithin_mono (n := n) ?_ fits
            rw [valueWithin, read]
            exact value
          have own := (each v List.mem_cons_self).read
          rw [repaired_of_isJson (by rw [isJson, parsed]; rfl), read] at own
          cases own
          rw [ih (fun w member => each w (List.mem_cons_of_mem _ member)) later
            fun u member => json u (List.mem_cons_of_mem _ member)]
          rfl

theorem isJsonBlank_of_solid {c : Char} (solid : Text.isBlank c = false) :
    isJsonBlank c = false := by
  refine Bool.eq_false_iff.2 fun blank => ?_
  simp only [isJsonBlank, Bool.or_eq_true, beq_iff_eq] at blank
  obtain ((rfl | rfl) | rfl) | rfl := blank <;> cases solid

/-- A display that is JSON as it is says the array. -/
theorem readTree_display (each : ∀ v ∈ items, ReadsBack v)
    (whole : ∀ cs ∈ spaced (items.map displayChars), ItemScan.Whole cs)
    (json : isJson ('[' :: joined (spaced (items.map displayChars)) ++ [']']) = true) :
    readTree ('[' :: joined (spaced (items.map displayChars)) ++ [']']) =
      some (.arr (items.map Tree.ofValue)) := by
  cases items with
  | nil => rfl
  | cons v items =>
      obtain ⟨w, parsed⟩ := Option.isSome_iff_exists.1 json
      obtain ⟨t, read, value⟩ := Option.bind_eq_some_iff.1 parsed
      obtain ⟨c, cs, first⟩ := List.exists_cons_of_ne_nil (each v List.mem_cons_self).some
      have solid : isJsonBlank c = false :=
        isJsonBlank_of_solid ((each v List.mem_cons_self).solid.first c (by rw [first]; rfl))
      have shape : spaced ((v :: items).map displayChars) =
          (c :: cs) :: (items.map displayChars).map (' ' :: ·) := by
        rw [List.map_cons, first, spaced]
      rw [shape] at read whole
      obtain ⟨ts, rfl, reads⟩ := forall₂_of_readTree_array solid whole read
      have same : ((v :: items).map displayChars).map readTree = ts.map some := by
        rw [← map_spaced readTree_space, shape, ← List.forall₂_eq_eq_eq, List.forall₂_map_left_iff,
          List.forall₂_map_right_iff]
        exact reads
      rw [Tree.value?, if_neg (by decide)] at value
      obtain ⟨vs, values, -⟩ := Option.map_eq_some_iff.1 value
      rw [shape, read, trees_of_json each (Nat.sub_le maxDepth 1) same (isSome_of_values? values)]

/-- **An array is read back when its items are.** -/
theorem readsBack_array (each : ∀ v ∈ items, ReadsBack v) : ReadsBack (.arr items) := by
  have whole : ∀ cs ∈ spaced (items.map displayChars), ItemScan.Whole cs :=
    whole_spaced (List.forall_mem_map.2 fun v member => (each v member).whole)
  have shape := displayChars_arr items
  refine ⟨by rw [shape]; exact List.cons_ne_nil _ _, by rw [shape]; exact solid_brackets _,
    by rw [shape]; exact ItemScan.whole_brackets whole, ?_⟩
  rw [shape, Tree.ofValue, ofValues_eq]
  -- the display is JSON already, or it is cut into the displays of the items
  obtain ⟨json, same⟩ | ⟨-, array⟩ | ⟨other, -⟩ :=
    repaired_cases ('[' :: joined (spaced (items.map displayChars)) ++ [']'])
  · rw [same]
    exact readTree_display each whole json
  · have trimmed : (spaced (items.map displayChars)).map Text.trim = items.map displayChars := by
      rw [map_spaced fun cs => Text.trim_cons_of_blank rfl cs]
      exact map_eq_self (List.forall_mem_map.2 fun v member =>
        Text.trim_of_solidEnds (each v member).solid)
    have some : ∀ cs ∈ items.map displayChars, cs ≠ [] :=
      List.forall_mem_map.2 fun v member => (each v member).some
    rw [array, items_brackets whole trimmed some, List.map_map]
    refine readTree_brackets ?_
    rw [List.forall₂_map_left_iff, List.forall₂_map_right_iff, List.forall₂_same]
    exact fun v member => (each v member).read
  · rw [isBracketed_brackets] at other
    cases other

mutual

theorem readsBack : ∀ v : Value, v.Legible → (form v).depth ≤ maxDepth → ReadsBack v
  | .bool b, _, fits => by
      have solid := (display_plain (v := .bool b) trivial).1
      exact readsBack_json solid (by cases b <;> rfl) trivial fits
  | .num (.int n bounds), _, fits =>
      readsBack_json (solid_intText n).2 (Number.readTree_intText bounds) trivial fits
  | .str _, bare, _ => readsBack_string bare
  | .arr items, legible, fits => by
      rw [form, Form.depth] at fits
      exact readsBack_array (readsBack_items items legible (Nat.le_of_succ_le fits))
  | .obj members, legible, fits => by
      have read := (Form.readTree_layouts _ _ (tree?_form (.obj members) legible.2)).1
      exact readsBack_json (Text.solid_between rfl rfl _) read legible.1 fits

theorem readsBack_items : ∀ vs : List Value, Value.LegibleItems vs →
    Form.depthItems (forms vs) ≤ maxDepth → ∀ v ∈ vs, ReadsBack v
  | [], _, _ => nofun
  | v :: vs, legible, fits => by
      rw [forms, Form.depthItems] at fits
      intro w member
      obtain here | later := List.mem_cons.1 member
      · rw [here]
        exact readsBack v legible.1 (Nat.le_trans (Nat.le_max_left _ _) fits)
      · exact readsBack_items vs legible.2 (Nat.le_trans (Nat.le_max_right _ _) fits) w later

end

theorem parseChars_display (legible : (Value.arr items).Legible)
    (fits : (form (.arr items)).depth ≤ maxDepth) :
    parseChars (repairChars (Value.arr items).displayChars) = some (.arr items) := by
  have back := readsBack (.arr items) legible fits
  have trimmed := Text.trim_of_solidEnds back.solid
  have bracketed : isBracketed (Text.trim (Value.arr items).displayChars) = true := by
    rw [trimmed, displayChars_arr]
    exact isBracketed_brackets _
  rw [repairChars_of_bracketed bracketed, trimmed, parseChars, back.read]
  exact Tree.value?_ofValue _ _ legible.distinct fits

/-- **Arrays that a template writes are read back**, as deep as JSON is read at all: from their
display text, and so from a tag that is a path to one, just as from the path itself.

The end of the tag has to be found behind the path, and the path itself must be taken for one. -/
theorem rendered_arrays_are_read_back {items : List Value} (legible : (Value.arr items).Legible)
    (fits : (form (.arr items)).depth ≤ 127) :
    Json.parse (repair (Value.arr items).displayText) = some (.arr items) ∧
    ∀ (parameter p : String) (scope : Document), scope.get? p = some (.arr items) →
      (Template.tokens 0 p.toList = .ok [⟨.path p, 0⟩] → Template.Sealed p.toList →
        resolve Template.render parameter ("\x7b\x7b " ++ p ++ " \x7d\x7d") scope =
          .ok (.arr items)) ∧
      (hasTag p = false → resolve Template.render parameter p scope = .ok (.arr items)) := by
  have parsed := parseChars_display legible fits
  refine ⟨?_, fun parameter p scope found => ⟨fun read sealed_ => ?_, fun plain => ?_⟩⟩
  · rw [Json.parse, repair, String.toList_ofList, Value.displayText, String.toList_ofList, parsed]
  · have bracketed : isBracketed (Text.trim (Value.arr items).displayChars) = true := by
      rw [displayChars_arr, Text.trim_of_solidEnds (solid_brackets _)]
      exact isBracketed_brackets _
    rw [resolve_tag read sealed_ found, readOr, trim_repairChars bracketed, parsed,
      Option.getD_some]
  · exact resolve_path plain found parameter

theorem rendered_arrays_are_read_back_nested :
    let items : List Value := [.str "a b", .arr [.str "1 2", .bool true, .arr []],
      .obj [("k,", .str "x]\x22"), ("l", .null)], .num (.int (-3) (by decide))]
    let scope : Document := ⟨.obj [("x", .obj [("it, is", .arr items)])]⟩
    let p := "x['it, is']"
    (Value.arr items).Legible ∧ (form (.arr items)).depth ≤ 127 ∧
      scope.get? p = some (.arr items) ∧ Template.tokens 0 p.toList = .ok [⟨.path p, 0⟩] ∧
      Template.Sealed p.toList ∧ hasTag p = false ∧
      Json.parse (repair (Value.arr items).displayText) = some (.arr items) ∧
      resolve Template.render "p" ("\x7b\x7b " ++ p ++ " \x7d\x7d") scope = .ok (.arr items) ∧
      resolve Template.render "p" p scope = .ok (.arr items) := by
  intro items scope p
  have outer : Bare "a b".toList := by decide +kernel
  have inner : Bare "1 2".toList := by decide +kernel
  have members : (Value.obj [("k,", .str "x]\x22"), ("l", .null)]).Distinct :=
    ⟨by decide, trivial, trivial, trivial⟩
  have legible : (Value.arr items).Legible :=
    ⟨outer, ⟨inner, trivial, trivial, trivial⟩, ⟨members, trivial, trivial, trivial⟩, trivial,
      trivial⟩
  have fits : (form (.arr items)).depth ≤ 127 := by decide +kernel
  have found : scope.get? p = some (.arr items) := by decide +kernel
  have read : Template.tokens 0 p.toList = .ok [⟨.path p, 0⟩] := by decide +kernel
  have sealed_ : Template.Sealed p.toList := (Template.pieces_tag_iff _).1 (by decide +kernel)
  have plain : hasTag p = false := by decide +kernel
  obtain ⟨parsed, resolved⟩ := rendered_arrays_are_read_back legible fits
  exact ⟨legible, fits, found, read, sealed_, plain, parsed,
    (resolved "p" p scope found).1 read sealed_, (resolved "p" p scope found).2 plain⟩

/-- An apostrophe in the brackets of a path hides the end of its tag. -/
theorem apostrophe_keeps_an_array_from_a_tag :
    let items : List Value := [.str "red", .str "green"]
    let scope : Document := ⟨.obj [("a", .obj [("it's", .arr items)])]⟩
    (∀ s ∈ ["red", "green"], Bare s.toList) ∧ scope.get? "a[it's]" = some (.arr items) ∧
      Template.tokens 0 "a[it's]".toList = .ok [⟨.path "a[it's]", 0⟩] ∧
      resolve Template.render "p" "a[it's]" scope = .ok (.arr items) ∧
      resolve Template.render "p" "\x7b\x7b a[it's] \x7d\x7d" scope =
        .error (.template "p" (.form 0 .unterminatedTag)) := by
  decide +kernel

end Binding
end Flowgraph
