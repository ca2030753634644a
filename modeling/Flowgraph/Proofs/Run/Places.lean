/- # Flowgraph.Proofs.Run.Places -- the places below which nodes and outputs are published

A node publishes below `nodes.<id>` and outputs go below `workflow.output`.  Keys and
names are free text that is put behind such a place, but no text can change what
stands before it: the path that is read begins with the two segments of the place
(`Path.parse_node`, `Path.parse_output`), and goes on as the text does when it is read
by itself (`Path.parse_below_iff`).  Different nodes have different places
(`Uuid.toText_injective`).
-/
import Mathlib.Data.List.TakeWhile
import Flowgraph.Proofs.Json.Identifiers
import Flowgraph.Proofs.Run.Unpublished

set_option autoImplicit false

namespace Flowgraph

/-! ## Paths below a place -/

namespace Path

/-- A word without marks and blanks that is no number is the key that it spells. -/
theorem partSegments_word {word : List Char} (some : word ≠ [])
    (plain : ∀ c ∈ word, Text.isBlank c = false ∧ c ≠ '[' ∧ c ≠ '\x22' ∧ c ≠ '\x27')
    (noNumber : ∃ c ∈ word, isDigit c = false) :
    partSegments word = .ok [.key (String.ofList word)] := by
  have whole : word.takeWhile (fun c => !decide (c = '[')) = word :=
    List.takeWhile_eq_self_iff.2 fun c member => by simp [(plain c member).2.1]
  have nothing : word.dropWhile (fun c => !decide (c = '[')) = [] :=
    List.dropWhile_eq_nil_iff.2 fun c member => by simp [(plain c member).2.1]
  have unquoted : Segment.unquoted? word = none := by
    unfold Segment.unquoted?
    split
    · rename_i q r rest
      have quote := (plain q List.mem_cons_self).2.2
      rw [if_neg (by simp [quote.1, quote.2])]
    · rfl
  have number : Segment.index? word = none := by
    obtain ⟨c, member, digit⟩ := noNumber
    have : word.all isDigit = false := List.all_eq_false.2 ⟨c, member, by simp [digit]⟩
    simp [Segment.index?, this]
  rw [partSegments, Text.trim_of_solid fun c member => (plain c member).1]
  simp [whole, nothing, some, brackets, Segment.ofChars, unquoted, number, Except.map]

theorem joinParts_cons_iff {word : List Char} {parts : List (List Char)} {key : Segment}
    (first : partSegments word = .ok [key]) {q : Path} :
    joinParts (word :: parts) = .ok q ↔ ∃ p, joinParts parts = .ok p ∧ q = key :: p := by
  rw [joinParts, first]
  cases joinParts parts with
  | error fault => simp [Except.map]
  | ok p => simp [Except.map, eq_comm]

/-- Behind two words, a text is read as it is read by itself. -/
theorem parse_below_iff {first second : List Char} {key key' : Segment} {name : String}
    (plain : ∀ c ∈ first, c ≠ '.' ∧ c ≠ '[' ∧ c ≠ ']')
    (plain' : ∀ c ∈ second, c ≠ '.' ∧ c ≠ '[' ∧ c ≠ ']')
    (reads : partSegments first = .ok [key]) (reads' : partSegments second = .ok [key'])
    {text : String} (written : text.toList = first ++ '.' :: (second ++ '.' :: name.toList))
    {q : Path} : parse text = .ok q ↔ ∃ p, parse name = .ok p ∧ q = key :: key' :: p := by
  rw [parse_eq_ok_iff, written, Text.trimEnd_append rfl, Text.trimEnd_append rfl, parts_word plain,
    parts_word plain', joinParts_cons_iff reads]
  constructor
  · rintro ⟨p, later, rfl⟩
    obtain ⟨p, last, rfl⟩ := (joinParts_cons_iff reads').1 later
    exact ⟨p, parse_eq_ok_iff.2 last, rfl⟩
  · rintro ⟨p, last, rfl⟩
    exact ⟨_, (joinParts_cons_iff reads').2 ⟨p, parse_eq_ok_iff.1 last, rfl⟩, rfl⟩

theorem partSegments_uuid (u : Uuid) : partSegments u.toChars = .ok [.key u.toText] := by
  refine partSegments_word (List.ne_nil_of_mem u.hyphen_mem) (fun c member => ?_)
    ⟨'-', u.hyphen_mem, rfl⟩
  obtain ⟨solid, -, opening, -, quote, apostrophe⟩ := Uuid.plain_of_mem member
  exact ⟨solid, opening, quote, apostrophe⟩

/-- A node publishes below its place. -/
theorem parse_node_iff {node : NodeId} {key : String} {q : Path} :
    parse (Shared.nodePath node ++ "." ++ key) = .ok q ↔
      ∃ p, parse key = .ok p ∧ q = .key "nodes" :: .key node.toText :: p := by
  refine @parse_below_iff "nodes".toList node.toChars _ _ _ (by simp) (fun c member => ?_) rfl
    (partSegments_uuid node) _ ?_ _
  · obtain ⟨-, dot, opening, closing, -⟩ := Uuid.plain_of_mem member
    exact ⟨dot, opening, closing⟩
  · simp [Shared.nodePath, Uuid.toList_toText]

/-- An output is published below the place of outputs. -/
theorem parse_output_iff {name : String} {q : Path} : parse ("workflow.output." ++ name) = .ok q ↔
    ∃ p, parse name = .ok p ∧ q = .key "workflow" :: .key "output" :: p :=
  @parse_below_iff "workflow".toList "output".toList _ _ _ (by simp) (by simp) rfl rfl _
    (by simp) _

/-- The place of a node itself. -/
theorem parse_nodePath (node : NodeId) :
    parse (Shared.nodePath node) = .ok [.key "nodes", .key node.toText] := by
  have written : (Shared.nodePath node).toList = "nodes".toList ++ '.' :: node.toChars := by
    simp [Shared.nodePath, Uuid.toList_toText]
  have solid : Text.trimEnd node.toChars = node.toChars := by
    have whole := Text.trim_of_solid fun c (member : c ∈ node.toChars) =>
      (Uuid.plain_of_mem member).1
    obtain ⟨c, rest, split⟩ := List.exists_cons_of_ne_nil (List.ne_nil_of_mem node.hyphen_mem)
    have first := (Uuid.plain_of_mem (split ▸ List.mem_cons_self : c ∈ node.toChars)).1
    rw [split] at whole ⊢
    rw [Text.trim_cons_of_solid first] at whole
    rw [Text.trimEnd_cons, if_neg (by simp [first]), whole]
  have last : parts node.toChars = [node.toChars] := by
    refine parts_single fun c member => ?_
    obtain ⟨-, dot, opening, closing, -⟩ := Uuid.plain_of_mem member
    exact ⟨dot, opening, closing⟩
  rw [parse_eq_ok_iff, written, Text.trimEnd_append rfl, solid, parts_word (by simp), last,
    joinParts_cons_iff rfl]
  exact ⟨_, (joinParts_cons_iff (partSegments_uuid node)).2 ⟨[], rfl, rfl⟩, rfl⟩

end Path
end Flowgraph
