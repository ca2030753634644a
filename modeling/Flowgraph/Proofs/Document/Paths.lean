/- # Flowgraph.Proofs.Document.Paths -- how the text of a path is read

Blanks around the text do not count, and blanks before a part do not either, so a path is read
off the text without the blanks at its end (`Path.parse_eq_ok_iff`), part by part
(`Path.joinParts_cons`).  Every part has a segment: a path that is read goes somewhere
(`Path.parse_ne_nil`).
-/
import Flowgraph.Path

set_option autoImplicit false

namespace Flowgraph

/-! ## Blanks around a text -/

namespace Text

theorem trimEnd_cons (c : Char) (cs : List Char) :
    trimEnd (c :: cs) = if isBlank c = true ∧ trimEnd cs = [] then [] else c :: trimEnd cs := by
  simp only [trimEnd, List.reverse_cons, List.reverse_eq_nil_iff, List.dropWhile_append,
    List.isEmpty_iff]
  by_cases rest : cs.reverse.dropWhile isBlank = []
  · cases blank : isBlank c <;> simp [rest, blank]
  · simp [rest]

theorem trim_cons_of_blank {c : Char} (blank : isBlank c = true) (cs : List Char) :
    trim (c :: cs) = trim cs := by
  simp [trim, trimStart, blank]

theorem trim_cons_of_solid {c : Char} (solid : isBlank c = false) (cs : List Char) :
    trim (c :: cs) = c :: trimEnd cs := by
  rw [trim, trimStart, List.dropWhile_cons_of_neg (by simp [solid]), trimEnd_cons, if_neg]
  simp [solid]

theorem trim_of_solid {cs : List Char} (solid : ∀ c ∈ cs, isBlank c = false) : trim cs = cs := by
  have ends : ∀ ds : List Char, (∀ c ∈ ds, isBlank c = false) → ds.dropWhile isBlank = ds := by
    intro ds solid
    cases ds with
    | nil => rfl
    | cons d ds => rw [List.dropWhile_cons_of_neg (by simp [solid d])]
  rw [trim, trimStart, ends cs solid, trimEnd, ends _ (by simpa using solid), List.reverse_reverse]

theorem trimEnd_append {c : Char} (solid : isBlank c = false) (before after : List Char) :
    trimEnd (before ++ c :: after) = before ++ c :: trimEnd after := by
  simp only [trimEnd, List.reverse_append, List.reverse_cons, List.append_assoc,
    List.singleton_append]
  generalize after.reverse = late
  induction late with
  | nil => simp [solid]
  | cons d late ih =>
      by_cases blank : isBlank d = true
      · simpa [blank] using ih
      · simp [blank]

end Text

/-! ## Parts -/

namespace Path

/-- The cut goes over a text without marks. -/
theorem parts_append {inner cs first : List Char} {rest : List (List Char)}
    (plain : ∀ c ∈ inner, c ≠ '.' ∧ c ≠ '[' ∧ c ≠ ']') (split : parts cs = first :: rest) :
    parts (inner ++ cs) = (inner ++ first) :: rest := by
  induction inner with
  | nil => exact split
  | cons c inner ih =>
      obtain ⟨dot, opening, closing⟩ := plain c List.mem_cons_self
      have later := ih fun d member => plain d (List.mem_cons_of_mem _ member)
      simp only [parts] at later
      simp [parts, Text.cut, depthAfter, dot, opening, closing, later, Text.extendFirst]

/-- Up to a dot there is one part when nothing separates it before. -/
theorem parts_word {word : List Char} (plain : ∀ c ∈ word, c ≠ '.' ∧ c ≠ '[' ∧ c ≠ ']')
    (rest : List Char) : parts (word ++ '.' :: rest) = word :: parts rest := by
  have dot : parts ('.' :: rest) = [] :: parts rest := by simp [parts, Text.cut, depthAfter]
  rw [parts_append plain dot, List.append_nil]

/-- A text that nothing separates is one part. -/
theorem parts_single {word : List Char} (plain : ∀ c ∈ word, c ≠ '.' ∧ c ≠ '[' ∧ c ≠ ']') :
    parts word = [word] := by
  have none : parts [] = [[]] := rfl
  have whole := parts_append plain none
  rwa [List.append_nil] at whole

theorem joinParts_cons {word : List Char} {parts : List (List Char)} {segments p : Path}
    (first : partSegments word = .ok segments) (joined : joinParts (word :: parts) = .ok p) :
    ∃ rest, joinParts parts = .ok rest ∧ p = segments ++ rest := by
  rw [joinParts, first] at joined
  cases later : joinParts parts with
  | error fault => simp [later, Except.map] at joined
  | ok rest =>
      simp only [later, Except.map, Except.ok.injEq] at joined
      exact ⟨rest, rfl, joined.symm⟩

theorem partSegments_cons_of_blank {c : Char} (blank : Text.isBlank c = true) (cs : List Char) :
    partSegments (c :: cs) = partSegments cs := by
  simp [partSegments, Text.trim_cons_of_blank blank]

theorem parts_cons_of_blank {c : Char} (blank : Text.isBlank c = true) (cs : List Char) :
    parts (c :: cs) = Text.extendFirst c (parts cs) := by
  have dot : c ≠ '.' := by rintro rfl; cases blank
  have opening : c ≠ '[' := by rintro rfl; cases blank
  have closing : c ≠ ']' := by rintro rfl; cases blank
  simp [parts, Text.cut, depthAfter, dot, opening, closing]

/-- A blank before the first part says nothing. -/
theorem joinParts_cons_of_blank {c : Char} (blank : Text.isBlank c = true) (cs : List Char) :
    joinParts (parts (c :: cs)) = joinParts (parts cs) := by
  obtain ⟨first, rest, split⟩ := List.exists_cons_of_ne_nil
    (Text.cut_ne_nil depthAfter (fun depth c => c == '.' && depth == 0) 0 cs)
  have same : parts cs = first :: rest := split
  rw [parts_cons_of_blank blank, same, Text.extendFirst, joinParts, joinParts,
    partSegments_cons_of_blank blank]

theorem joinParts_nil : joinParts (parts []) = .error .emptySegment := rfl

/-- Blanks at the start of a text make no difference to its parts, once those at its end are gone. -/
theorem joinParts_trim (cs : List Char) :
    joinParts (parts (Text.trim cs)) = joinParts (parts (Text.trimEnd cs)) := by
  induction cs with
  | nil => rfl
  | cons c cs ih =>
      cases blank : Text.isBlank c with
      | true =>
          rw [Text.trim_cons_of_blank blank, ih, Text.trimEnd_cons]
          split
          · rename_i empty
            rw [empty.2]
          · exact (joinParts_cons_of_blank blank _).symm
      | false =>
          rw [Text.trim_cons_of_solid blank, Text.trimEnd_cons, if_neg (by simp [blank])]

theorem parse_eq_ok_iff {text : String} {p : Path} :
    parse text = .ok p ↔ joinParts (parts (Text.trimEnd text.toList)) = .ok p := by
  rw [← joinParts_trim]
  simp only [parse, List.isEmpty_iff]
  by_cases empty : Text.trim text.toList = []
  · simp [empty, joinParts_nil]
  · rw [if_neg empty]
    split
    · rename_i q joined
      simp [joined]
    all_goals
      rename_i joined
      simp [joined]

/-! ## Segments -/

theorem brackets_ne_nil {seen cs : List Char} {p : Path} (read : brackets (some seen) cs = .ok p) :
    p ≠ [] := by
  induction cs generalizing seen with
  | nil => cases read
  | cons c cs ih =>
      rw [brackets] at read
      split at read
      · dsimp only at read
        split at read
        · cases read
        · cases later : brackets none cs with
          | error fault => simp [later, Except.map] at read
          | ok rest =>
              simp only [later, Except.map] at read
              cases read
              exact List.cons_ne_nil _ _
      · exact ih read

theorem partSegments_ne_nil {part : List Char} {p : Path} (read : partSegments part = .ok p) :
    p ≠ [] := by
  rw [partSegments] at read
  split at read
  · generalize (Text.trim part).dropWhile (· ≠ '[') = rest at read
    split at read
    · cases read
    · rename_i some
      cases rest with
      | nil => exact absurd rfl some
      | cons c cs =>
          rw [brackets] at read
          split at read
          · exact brackets_ne_nil read
          · cases read
  · cases later : brackets none ((Text.trim part).dropWhile (· ≠ '[')) with
    | error fault => rw [later] at read; cases read
    | ok rest =>
        rw [later] at read
        cases read
        exact List.cons_ne_nil _ _

/-- A path goes somewhere. -/
theorem joinParts_ne_nil {parts : List (List Char)} {p : Path} (some : parts ≠ [])
    (joined : joinParts parts = .ok p) : p ≠ [] := by
  cases parts with
  | nil => exact absurd rfl some
  | cons part rest =>
      rw [joinParts] at joined
      cases first : partSegments part with
      | error fault => simp [first] at joined
      | ok segments =>
          cases later : joinParts rest with
          | error fault => simp [first, later, Except.map] at joined
          | ok q =>
              simp only [first, later, Except.map] at joined
              cases joined
              intro empty
              exact partSegments_ne_nil first (List.append_eq_nil_iff.1 empty).1

theorem parse_ne_nil {text : String} {p : Path} (read : parse text = .ok p) : p ≠ [] :=
  joinParts_ne_nil (Text.cut_ne_nil _ _ _ _) (parse_eq_ok_iff.1 read)

end Path
end Flowgraph
