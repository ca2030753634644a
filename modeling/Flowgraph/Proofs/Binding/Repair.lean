/- # Flowgraph.Proofs.Binding.Repair -- what becomes of a text in brackets

Each item becomes JSON by one of three rules (`repaired_eq`), and whatever an item was, what it
becomes has a value that is nested no deeper than the item has opening brackets and braces
(`exists_valueWithin_repaired`).  An item that has been repaired is cut at the same commas again,
so that repairing it twice changes nothing (`repaired_repaired`).
-/
import Flowgraph.Binding.Coerce
import Flowgraph.Proofs.Binding.Pieces
import Flowgraph.Proofs.Document.Spelling

set_option autoImplicit false

namespace Flowgraph

namespace Text

variable {cs : List Char}

theorem trimEnd_initial (cs : List Char) : trimEnd cs <+: cs := by
  have suffix : cs.reverse.dropWhile isBlank <:+ cs.reverse := List.dropWhile_suffix _
  have front := List.reverse_prefix.2 suffix
  rwa [List.reverse_reverse] at front

theorem trim_sublist (cs : List Char) : (trim cs).Sublist cs :=
  (trimEnd_initial _).sublist.trans (List.dropWhile_sublist _)

theorem solid_trim (cs : List Char) : Solid (trim cs) := by
  refine ⟨fun c first => ?_, fun c last => ?_⟩
  · have first : (trimStart cs).head? = some c := by
      obtain ⟨rest, here⟩ := trimEnd_initial (trimStart cs)
      rw [← here, List.head?_append, ← trim, Option.mem_def.1 first]
      rfl
    have solid := List.head?_dropWhile_not isBlank cs
    rw [← trimStart, first] at solid
    exact solid
  · rw [trim, trimEnd, List.getLast?_reverse] at last
    have solid := List.head?_dropWhile_not isBlank (trimStart cs).reverse
    rw [Option.mem_def.1 last] at solid
    exact solid

end Text

namespace Json

variable {cs : List Char} {n m : Nat} {v : Value} {t : Tree}

/-- The value of a text that has at most `n` containers inside each other. -/
def valueWithin (n : Nat) (cs : List Char) : Option Value := (readTree cs).bind (·.value? n)

theorem parseChars_eq (cs : List Char) : parseChars cs = valueWithin maxDepth cs := rfl

theorem valueWithin_mono (value : valueWithin n cs = some v) (le : n ≤ m) :
    valueWithin m cs = some v := by
  obtain ⟨t, read, value⟩ := Option.bind_eq_some_iff.1 value
  have deep := Tree.depth_le_of_value? t n v value
  rw [valueWithin, read]
  exact Tree.value?_of_depth_le t value (Nat.le_trans deep le)

/-- A value is nested no deeper than its text has opening brackets and braces. -/
theorem valueWithin_openers (value : valueWithin n cs = some v) :
    valueWithin (openers cs) cs = some v := by
  obtain ⟨t, read, value⟩ := Option.bind_eq_some_iff.1 value
  rw [valueWithin, read]
  exact Tree.value?_of_depth_le t value (depth_le_openers read)

theorem valueWithin_quoted (n : Nat) (s : String) : valueWithin n (quoted s) = some (.str s) := by
  rw [valueWithin, readTree_quoted]
  rfl

/-- Texts in brackets, with commas between them, are an array. -/
theorem readTree_brackets {texts : List (List Char)} {ts : List Tree}
    (reads : List.Forall₂ (fun cs t => readTree cs = some t) texts ts) :
    readTree ('[' :: joined texts ++ [']']) = some (.arr ts) := by
  cases reads with
  | nil => rfl
  | cons one later =>
      have bare : Blank [] := nofun
      have array := readTree_array (List.cons_ne_nil _ _) (.cons one later) bare
      rwa [List.append_nil] at array

/-- Texts that have values are an array that has one. -/
theorem valueWithin_array {texts : List (List Char)}
    (each : ∀ cs ∈ texts, ∃ v, valueWithin n cs = some v) :
    ∃ vs, valueWithin (n + 1) ('[' :: joined texts ++ [']']) = some (.arr vs) := by
  have trees : ∃ ts vs, List.Forall₂ (fun cs t => readTree cs = some t) texts ts ∧
      Tree.values? n ts = some vs := by
    induction texts with
    | nil => exact ⟨[], [], .nil, rfl⟩
    | cons cs texts ih =>
        obtain ⟨v, value⟩ := each cs List.mem_cons_self
        obtain ⟨t, read, value⟩ := Option.bind_eq_some_iff.1 value
        obtain ⟨ts, vs, reads, values⟩ :=
          ih fun ds member => each ds (List.mem_cons_of_mem _ member)
        exact ⟨t :: ts, v :: vs, .cons read reads, by rw [Tree.values?, value, values]⟩
  obtain ⟨ts, vs, reads, values⟩ := trees
  refine ⟨vs, ?_⟩
  rw [valueWithin, readTree_brackets reads, Option.bind_some, Tree.value?,
    if_neg (Nat.succ_ne_zero n), Nat.add_sub_cancel, values, Option.map_some]

/-- A text in brackets that has a value is an array. -/
theorem arr_of_valueWithin (value : valueWithin n ('[' :: cs) = some v) : ∃ vs, v = .arr vs := by
  obtain ⟨t, read, value⟩ := Option.bind_eq_some_iff.1 value
  obtain ⟨ts, rfl⟩ := arr_of_readTree read
  rw [Tree.value?] at value
  split at value
  · cases value
  · obtain ⟨vs, -, rfl⟩ := Option.map_eq_some_iff.1 value
    exact ⟨vs, rfl⟩

end Json

namespace Binding

open Json

variable {cs item piece : List Char}

/-! ## Texts in brackets -/

theorem isBracketed_iff : isBracketed cs = true ↔ ∃ middle, cs = '[' :: middle ++ [']'] := by
  constructor
  · intro bracketed
    simp only [isBracketed, Bool.and_eq_true, beq_iff_eq] at bracketed
    obtain ⟨first, last⟩ := bracketed
    obtain rfl | ⟨middle, c, rfl⟩ := List.eq_nil_or_concat cs
    · cases first
    · rw [List.concat_eq_append] at first last ⊢
      rw [List.getLast?_concat] at last
      cases last
      cases middle with
      | nil => cases first
      | cons d middle =>
          cases first
          exact ⟨middle, rfl⟩
  · rintro ⟨middle, rfl⟩
    rw [isBracketed, List.getLast?_concat]
    rfl

theorem isBracketed_brackets (middle : List Char) : isBracketed ('[' :: middle ++ [']']) = true :=
  isBracketed_iff.2 ⟨middle, rfl⟩

@[simp] theorem inner_brackets (middle : List Char) : inner ('[' :: middle ++ [']']) = middle := by
  simp [inner]

theorem solid_brackets (middle : List Char) : Text.Solid ('[' :: middle ++ [']']) :=
  Text.solid_between rfl rfl middle

/-! ## Items -/

theorem mem_items (member : piece ∈ items cs) :
    piece ≠ [] ∧ Text.Solid piece ∧ piece.Sublist (inner cs) := by
  obtain ⟨listed, some⟩ := List.mem_filter.1 member
  obtain ⟨cut, here, rfl⟩ := List.mem_map.1 listed
  refine ⟨fun empty => by simp [empty] at some, Text.solid_trim cut, ?_⟩
  exact (Text.trim_sublist cut).trans (sublist_of_mem_splitItems here)

/-- The items of a text in brackets are shorter than the text. -/
theorem length_lt_of_mem_items (bracketed : isBracketed item = true) (member : piece ∈ items item) :
    piece.length < item.length := by
  obtain ⟨middle, rfl⟩ := isBracketed_iff.1 bracketed
  have le := (mem_items member).2.2.length_le
  rw [inner_brackets] at le
  simp only [List.cons_append, List.length_cons, List.length_append]
  omega

theorem openers_brackets (middle : List Char) :
    openers ('[' :: middle ++ [']']) = openers middle + 1 := by
  simp [openers, Opens]

theorem openers_of_mem_items (bracketed : isBracketed item = true) (member : piece ∈ items item) :
    openers piece + 1 ≤ openers item := by
  obtain ⟨middle, rfl⟩ := isBracketed_iff.1 bracketed
  have sublist := (mem_items member).2.2
  rw [inner_brackets] at sublist
  rw [openers_brackets]
  exact Nat.succ_le_succ sublist.countP_le

/-- What holds of an item if it holds of the items in its brackets. -/
theorem item_induction {P : List Char → Prop}
    (step : ∀ item, (isBracketed item = true → ∀ piece ∈ items item, P piece) → P item)
    (item : List Char) : P item :=
  step item fun bracketed piece member =>
    have := length_lt_of_mem_items bracketed member
    item_induction step piece
termination_by item.length

/-- What an item becomes; there are fewer levels of brackets in it than characters. -/
def repaired (item : List Char) : List Char := repairItem (item.length + 1) item

/-- Levels that are not needed do not matter. -/
theorem repairItem_congr {levels levels' : Nat} (enough : item.length < levels)
    (enough' : item.length < levels') : repairItem levels item = repairItem levels' item := by
  induction levels generalizing levels' item with
  | zero => cases enough
  | succ levels ih =>
      cases levels' with
      | zero => cases enough'
      | succ levels' =>
          rw [repairItem, repairItem]
          split
          · rfl
          · split
            · rename_i bracketed
              have same : (items item).map (repairItem levels) =
                  (items item).map (repairItem levels') := by
                refine List.map_congr_left fun piece member => ?_
                have shorter := length_lt_of_mem_items bracketed member
                exact ih (by omega) (by omega)
              rw [same]
            · rfl

/-- **What becomes of an item.** -/
theorem repaired_eq (item : List Char) : repaired item =
    if isJson item then item
    else if isBracketed item then '[' :: joined ((items item).map repaired) ++ [']']
    else quoted (String.ofList item) := by
  rw [repaired, repairItem]
  split
  · rfl
  · split
    · rename_i bracketed
      have same : (items item).map (repairItem item.length) = (items item).map repaired :=
        List.map_congr_left fun piece member =>
          repairItem_congr (length_lt_of_mem_items bracketed member) (Nat.lt_succ_self _)
      rw [commaJoin_eq, same]
    · rfl

theorem repaired_of_isJson (json : isJson item = true) : repaired item = item := by
  rw [repaired_eq, if_pos json]

/-- An item becomes itself, an array of what its own items become, or a string. -/
theorem repaired_cases (item : List Char) :
    isJson item = true ∧ repaired item = item ∨
      isBracketed item = true ∧ repaired item = '[' :: joined ((items item).map repaired) ++ [']'] ∨
      isBracketed item = false ∧ repaired item = quoted (String.ofList item) := by
  rw [repaired_eq]
  cases json : isJson item with
  | true => exact .inl ⟨rfl, rfl⟩
  | false =>
      cases bracketed : isBracketed item with
      | true => exact .inr (.inl ⟨rfl, rfl⟩)
      | false => exact .inr (.inr ⟨rfl, rfl⟩)

/-! ## What an item becomes is a value -/

theorem exists_valueWithin_repaired (item : List Char) :
    ∃ v, valueWithin (openers item) (repaired item) = some v := by
  induction item using item_induction with
  | step item ih =>
      obtain ⟨json, same⟩ | ⟨bracketed, array⟩ | ⟨-, string⟩ := repaired_cases item
      · obtain ⟨v, value⟩ := Option.isSome_iff_exists.1 json
        exact ⟨v, by rw [same]; exact valueWithin_openers value⟩
      · obtain ⟨before, count⟩ : ∃ n, openers item = n + 1 := by
          obtain ⟨middle, rfl⟩ := isBracketed_iff.1 bracketed
          exact ⟨_, openers_brackets middle⟩
        have each : ∀ cs ∈ (items item).map repaired, ∃ v, valueWithin before cs = some v := by
          refine List.forall_mem_map.2 fun piece member => ?_
          obtain ⟨v, value⟩ := ih bracketed piece member
          have fewer := openers_of_mem_items bracketed member
          exact ⟨v, valueWithin_mono value (by omega)⟩
        obtain ⟨vs, value⟩ := valueWithin_array each
        exact ⟨.arr vs, by rw [array, count]; exact value⟩
      · exact ⟨_, by rw [string]; exact valueWithin_quoted _ _⟩

theorem readTree_repaired (item : List Char) : ∃ t, readTree (repaired item) = some t := by
  obtain ⟨v, value⟩ := exists_valueWithin_repaired item
  obtain ⟨t, read, -⟩ := Option.bind_eq_some_iff.1 value
  exact ⟨t, read⟩

theorem whole_repaired (item : List Char) : ItemScan.Whole (repaired item) := by
  obtain ⟨t, read⟩ := readTree_repaired item
  exact whole_of_readTree read

theorem isBracketed_repaired (bracketed : isBracketed item = true) :
    isBracketed (repaired item) = true := by
  obtain ⟨-, same⟩ | ⟨-, array⟩ | ⟨other, -⟩ := repaired_cases item
  · rwa [same]
  · rw [array]
    exact isBracketed_brackets _
  · rw [bracketed] at other
    cases other

/-- What an item in brackets becomes is an array. -/
theorem exists_arr_repaired (bracketed : isBracketed item = true) :
    ∃ vs, valueWithin (openers item) (repaired item) = some (.arr vs) := by
  obtain ⟨v, value⟩ := exists_valueWithin_repaired item
  obtain ⟨middle, shape⟩ := isBracketed_iff.1 (isBracketed_repaired bracketed)
  rw [shape] at value ⊢
  obtain ⟨vs, rfl⟩ := arr_of_valueWithin value
  exact ⟨vs, value⟩

/-! ## Repairing twice -/

/-- Texts with commas between them are the items of their list, less the blanks around them. -/
theorem items_brackets {texts pieces : List (List Char)}
    (whole : ∀ cs ∈ texts, ItemScan.Whole cs) (trimmed : texts.map Text.trim = pieces)
    (some : ∀ cs ∈ pieces, cs ≠ []) : items ('[' :: joined texts ++ [']']) = pieces := by
  rw [items, inner_brackets]
  cases texts with
  | nil =>
      cases trimmed
      rfl
  | cons cs texts =>
      rw [splitItems_joined (List.cons_ne_nil _ _) whole, trimmed]
      exact List.filter_eq_self.2 fun ds member => by simp [some ds member]

theorem map_eq_self {f : List Char → List Char} {texts : List (List Char)}
    (each : ∀ cs ∈ texts, f cs = cs) : texts.map f = texts :=
  (List.map_congr_left each).trans (List.map_id texts)

theorem solid_repaired (some : item ≠ []) (solid : Text.Solid item) :
    repaired item ≠ [] ∧ Text.Solid (repaired item) := by
  obtain ⟨-, same⟩ | ⟨-, array⟩ | ⟨-, string⟩ := repaired_cases item
  · rw [same]
    exact ⟨some, solid⟩
  · rw [array]
    exact ⟨List.cons_ne_nil _ _, solid_brackets _⟩
  · rw [string]
    exact ⟨List.cons_ne_nil _ _, Text.solid_between rfl rfl _⟩

/-- **What has been repaired stays as it is.** -/
theorem repaired_repaired (item : List Char) : repaired (repaired item) = repaired item := by
  induction item using item_induction with
  | step item ih =>
      obtain ⟨-, same⟩ | ⟨bracketed, array⟩ | ⟨-, string⟩ := repaired_cases item
      · rw [same, same]
      · rw [array]
        obtain ⟨-, same⟩ | ⟨-, again⟩ | ⟨other, -⟩ :=
          repaired_cases ('[' :: joined ((items item).map repaired) ++ [']'])
        · exact same
        · -- the second pass cuts at the commas that the first one wrote, and nowhere else
          have each : ∀ cs ∈ (items item).map repaired, ItemScan.Whole cs ∧
              (cs ≠ [] ∧ Text.Solid cs) ∧ repaired cs = cs := by
            refine List.forall_mem_map.2 fun piece member => ?_
            obtain ⟨some, solid, -⟩ := mem_items member
            exact ⟨whole_repaired piece, solid_repaired some solid, ih bracketed piece member⟩
          have trimmed : ((items item).map repaired).map Text.trim = (items item).map repaired :=
            map_eq_self fun cs member => Text.trim_of_solidEnds (each cs member).2.1.2
          rw [again, items_brackets (fun cs member => (each cs member).1) trimmed
            (fun cs member => (each cs member).2.1.1), map_eq_self fun cs member =>
              (each cs member).2.2]
        · rw [isBracketed_brackets] at other
          cases other
      · rw [string]
        refine repaired_of_isJson ?_
        rw [isJson, parseChars_eq, valueWithin_quoted]
        rfl

/-! ## Texts -/

theorem repairChars_of_bracketed (bracketed : isBracketed (Text.trim cs) = true) :
    repairChars cs = repaired (Text.trim cs) :=
  if_pos bracketed

theorem repairChars_of_not_bracketed (bracketed : isBracketed (Text.trim cs) = false) :
    repairChars cs = cs := by
  simp [repairChars, bracketed]

/-- What brackets are repaired to has no blanks around it. -/
theorem trim_repairChars {cs : List Char} (bracketed : isBracketed (Text.trim cs) = true) :
    Text.trim (repairChars cs) = repairChars cs := by
  rw [repairChars_of_bracketed bracketed]
  obtain ⟨middle, shape⟩ := isBracketed_iff.1 (isBracketed_repaired bracketed)
  rw [shape]
  exact Text.trim_of_solidEnds (solid_brackets middle)

theorem repairChars_repairChars (cs : List Char) :
    repairChars (repairChars cs) = repairChars cs := by
  cases bracketed : isBracketed (Text.trim cs) with
  | true =>
      have trimmed := trim_repairChars bracketed
      rw [repairChars_of_bracketed bracketed] at trimmed ⊢
      rw [repairChars_of_bracketed (by rw [trimmed]; exact isBracketed_repaired bracketed), trimmed,
        repaired_repaired]
  | false => rw [repairChars_of_not_bracketed bracketed, repairChars_of_not_bracketed bracketed]

/-- A text in brackets becomes an array. -/
theorem exists_arr_repairChars (bracketed : isBracketed (Text.trim cs) = true)
    (few : openers cs ≤ maxDepth) : ∃ vs, parseChars (repairChars cs) = some (.arr vs) := by
  obtain ⟨vs, value⟩ := exists_arr_repaired bracketed
  have fewer : openers (Text.trim cs) ≤ openers cs := (Text.trim_sublist cs).countP_le
  refine ⟨vs, ?_⟩
  rw [repairChars_of_bracketed bracketed, parseChars_eq]
  exact valueWithin_mono value (Nat.le_trans fewer few)

/-- **A text in brackets is always made an array**: however malformed it is between its outer
brackets, what it is repaired to has a value, unless it opens so many containers that none would
be read.  A text that is JSON already only loses the blanks around it, a text that is not in
brackets is left alone, and repairing twice is repairing once. -/
theorem brackets_become_arrays (text : String) :
    (isBracketed (Text.trim text.toList) = true →
      (openers text.toList ≤ 127 → ∃ items, Json.parse (repair text) = some (.arr items) ∧
        ∀ name, coerce name .array (.str text) = .ok (.arr items)) ∧
      ((Json.parse (Text.trimmed text)).isSome = true → repair text = Text.trimmed text)) ∧
    (isBracketed (Text.trim text.toList) = false → repair text = text) ∧
    repair (repair text) = repair text := by
  refine ⟨fun bracketed => ⟨fun few => ?_, fun json => ?_⟩, fun bracketed => ?_, ?_⟩
  · obtain ⟨vs, value⟩ := exists_arr_repairChars bracketed few
    have parsed : Json.parse (repair text) = some (.arr vs) := by
      rw [Json.parse, repair, String.toList_ofList, value]
    refine ⟨vs, parsed, fun name => ?_⟩
    simp [coerce, toArray?, parsed]
  · rw [Json.parse, Text.trimmed, String.toList_ofList] at json
    rw [repair, repairChars_of_bracketed bracketed, repaired_of_isJson json, Text.trimmed]
  · rw [repair, repairChars_of_not_bracketed bracketed, String.ofList_toList]
  · rw [repair, repair, String.toList_ofList, repairChars_repairChars]

/-- Of a malformed text every item is kept as a text, unless there is nothing to it. -/
theorem brackets_become_arrays_malformed :
    (isBracketed (Text.trim " [a, [b\x7d,, \x22c]".toList) = true ∧
      openers " [a, [b\x7d,, \x22c]".toList ≤ 127 ∧
      repair " [a, [b\x7d,, \x22c]" = "[\x22a\x22,\x22[b\x7d\x22,\x22\\\x22c\x22]" ∧
      Json.parse (repair " [a, [b\x7d,, \x22c]") =
        some (.arr [.str "a", .str "[b\x7d", .str "\x22c"]) ∧
      ∀ name, coerce name .array (.str " [a, [b\x7d,, \x22c]") =
        .ok (.arr [.str "a", .str "[b\x7d", .str "\x22c"])) ∧
    (isBracketed (Text.trim " [1, [ ]] ".toList) = true ∧
      (Json.parse (Text.trimmed " [1, [ ]] ")).isSome = true ∧
      repair " [1, [ ]] " = Text.trimmed " [1, [ ]] ") ∧
    (isBracketed (Text.trim "[a, b".toList) = false ∧ repair "[a, b" = "[a, b") := by
  have malformed : isBracketed (Text.trim " [a, [b\x7d,, \x22c]".toList) = true := by decide +kernel
  have few : openers " [a, [b\x7d,, \x22c]".toList ≤ 127 := by decide +kernel
  have items : Json.parse (repair " [a, [b\x7d,, \x22c]") =
      some (.arr [.str "a", .str "[b\x7d", .str "\x22c"]) := by decide +kernel
  obtain ⟨read, parsed, coerced⟩ := ((brackets_become_arrays _).1 malformed).1 few
  cases items.symm.trans parsed
  have array : isBracketed (Text.trim " [1, [ ]] ".toList) = true := by decide +kernel
  have json : (Json.parse (Text.trimmed " [1, [ ]] ")).isSome = true := by decide +kernel
  have unclosed : isBracketed (Text.trim "[a, b".toList) = false := by decide +kernel
  exact ⟨⟨malformed, few, by decide +kernel, parsed, coerced⟩,
    ⟨array, json, ((brackets_become_arrays _).1 array).2 json⟩,
    unclosed, (brackets_become_arrays _).2.1 unclosed⟩

end Binding
end Flowgraph
