/- # Flowgraph.Proofs.Binding.Mapping -- a path as it stands and in a tag

A mapping that is a path takes the value there as it is.  In a tag the path is rendered first, and
the text is repaired and read back as JSON (`resolve_tag`).  For a parameter that takes strings the
two agree on booleans and integers, and on a string unless its text is read as something else.
-/
import Flowgraph.Binding.Bind
import Flowgraph.Proofs.Binding.Repair
import Flowgraph.Proofs.Json.Numerals
import Flowgraph.Proofs.Template.Tags

set_option autoImplicit false

namespace Flowgraph

namespace Template

variable {c : Char} {cs text : List Char} {p : String} {m v : Value}

/-- No blank and no digit begins a path. -/
theorem isPathStart_other (starts : isPathStart c = true) :
    Text.isBlank c = false ∧ isDigit c = false := by
  have all : ∀ n ∈ List.range' 0x9 5 ++ List.range' 0x30 10 ++ List.range' 0x2000 11 ++
      [0x20, 0x85, 0xA0, 0x1680, 0x2028, 0x2029, 0x202F, 0x205F, 0x3000],
      isPathStart (Char.ofNat n) = false := by
    decide +kernel
  have none : c.toNat ∉ _ := fun member => by
    have other := all c.toNat member
    rw [Char.ofNat_toNat, starts] at other
    cases other
  simp only [List.mem_append, List.mem_range'_1, List.mem_cons, List.not_mem_nil, or_false] at none
  constructor
  · simp [Text.isBlank]
    omega
  · refine Bool.eq_false_iff.2 fun digit => none (.inl (.inl (.inr ?_)))
    simp only [isDigit, Char.le_def, Bool.and_eq_true, decide_eq_true_eq] at digit
    exact ⟨digit.1, Nat.lt_succ_of_le digit.2⟩

/-- A path in path characters alone: it closes only brackets that it has opened and is none of the
words that are literals. -/
structure PathWord (p : String) : Prop where
  starts : p.toList.head?.any isPathStart = true
  chars : p.toList.all (fun c => isPathChar c || c == ']') = true
  brackets : (p.toList.foldlM LexState.pathDepth? 0).isSome = true
  word : p ≠ "true" ∧ p ≠ "false" ∧ p ≠ "null" ∧ p ≠ "nil"

instance (p : String) : Decidable (PathWord p) :=
  decidable_of_iff (p.toList.head?.any isPathStart = true ∧
      p.toList.all (fun c => isPathChar c || c == ']') = true ∧
      (p.toList.foldlM LexState.pathDepth? 0).isSome = true ∧
      p ≠ "true" ∧ p ≠ "false" ∧ p ≠ "null" ∧ p ≠ "nil")
    ⟨fun h => ⟨h.1, h.2.1, h.2.2.1, h.2.2.2⟩, fun h => ⟨h.starts, h.chars, h.brackets, h.word⟩⟩

theorem PathWord.char (path : PathWord p) (member : c ∈ p.toList) :
    isPathChar c = true ∨ c = ']' := by
  simpa using List.all_eq_true.1 path.chars c member

theorem PathWord.first (path : PathWord p) : ∃ c cs, p.toList = c :: cs ∧ isPathStart c = true := by
  have starts := path.starts
  cases written : p.toList with
  | nil => simp [written] at starts
  | cons c cs => exact ⟨c, cs, rfl, by simpa [written] using starts⟩

/-- A path goes on to the end when every character goes on with it. -/
theorem lex_path {start offset depth depth' : Nat}
    (goes : cs.foldlM LexState.pathDepth? depth = some depth') :
    lex (.path start text depth) offset cs = .ok [⟨wordToken (text.reverse ++ cs), start⟩] := by
  induction cs generalizing text offset depth with
  | nil => rw [List.append_nil, lex, LexState.finish]
  | cons c cs ih =>
      rw [List.foldlM_cons] at goes
      obtain ⟨next, step, goes⟩ := Option.bind_eq_some_iff.1 goes
      have stepped : LexState.step (.path start text depth) offset c =
          .ok (.path start (c :: text) next, []) := by
        simp only [LexState.step, step]
      rw [lex_silent stepped, ih goes, List.reverse_cons, List.append_assoc]
      rfl

theorem openToken_path (starts : isPathStart c = true) (offset : Nat) :
    LexState.openToken offset c = .ok (.path offset [c] 0, none) := by
  obtain ⟨solid, digit⟩ := isPathStart_other starts
  have other (d : Char) (mark : isPathStart d = false) : c ≠ d := by
    rintro rfl
    rw [starts] at mark
    cases mark
  simp [LexState.openToken, solid, digit, starts, other '|' rfl, other ':' rfl, other ',' rfl,
    other '\x22' rfl, other '\x27' rfl, other '-' rfl]

namespace PathWord

/-- A tag reads the path as one. -/
theorem tokens (path : PathWord p) : tokens 0 p.toList = .ok [⟨.path p, 0⟩] := by
  obtain ⟨c, cs, written, starts⟩ := path.first
  obtain ⟨depth, goes⟩ := Option.isSome_iff_exists.1 path.brackets
  have first : LexState.pathDepth? 0 c = some 0 := by
    have other (d : Char) (mark : isPathStart d = false) : c ≠ d := by
      rintro rfl
      rw [starts] at mark
      cases mark
    have char : isPathChar c = true :=
      (path.char (by rw [written]; exact List.mem_cons_self)).resolve_right (other ']' rfl)
    simp [LexState.pathDepth?, other ']' rfl, other '[' rfl, char]
  have opened : LexState.step .between 0 c = .ok (.path 0 [c] 0, []) := by
    rw [LexState.step, openToken_path starts]
    rfl
  have word : wordToken (c :: cs) = .path p := by
    rw [wordToken, ← written, String.ofList_toList]
    simp [path.word]
  rw [written, List.foldlM_cons, first] at goes
  rw [written, Template.tokens, lex_silent opened, lex_path goes]
  exact congrArg (fun t => Except.ok [(⟨t, 0⟩ : Placed)]) word

theorem sealed (path : PathWord p) : Sealed p.toList :=
  sealed_of_plain fun c member => by
    obtain char | rfl := path.char member
    · exact bare_of char rfl rfl rfl
    · exact bare_of (p := (· == ']')) rfl rfl rfl rfl

theorem hasTag (path : PathWord p) : Binding.hasTag p = false := by
  have none : ∀ c ∈ p.toList, c ≠ '{' := by
    rintro c member rfl
    obtain char | close := path.char member
    · cases char
    · cases close
  rw [Binding.hasTag]
  generalize p.toList = cs at none
  induction cs with
  | nil => rfl
  | cons c cs ih =>
      refine hasTag_cons_iff.2 ⟨fun opening => none c List.mem_cons_self opening.1, ?_⟩
      exact ih fun d member => none d (List.mem_cons_of_mem _ member)

end PathWord

/-- A tag that is one path is worth what is there. -/
theorem evaluate_path (read : Template.tokens 0 p.toList = .ok [⟨.path p, 0⟩])
    (found : (Document.mk m).get? p = some v) : evaluate p m = .ok v := by
  rw [evaluate_written read m (p := ⟨.path p, []⟩) rfl]
  simp only [Phrase.value, Operand.value, found, Option.getD_some]
  rfl

/-- A tag with blanks around its body is rendered as what the body is worth. -/
theorem render_padded {e : String} (sealed_ : Sealed e.toList) (worth : evaluate e m = .ok v) :
    render ("\x7b\x7b " ++ e ++ " \x7d\x7d") m = .ok v.displayText := by
  have padded : evaluate (" " ++ e ++ " ") m = .ok v := by
    rw [← String.ofList_toList (s := e)] at worth
    have both := evaluate_pad worth
    rwa [String.ofList_cons, String.ofList_append, String.ofList_toList, ← String.append_assoc]
      at both
  have blank : Sealed " ".toList := .plain (by unfold IsQuote; decide) (by decide) .nil
  have closed : Sealed (" " ++ e ++ " ").toList := by
    rw [String.toList_append, String.toList_append]
    exact (blank.append sealed_).append blank
  have braces : "\x7b\x7b " ++ e ++ " \x7d\x7d" =
      "\x7b\x7b" ++ (" " ++ e ++ " ") ++ "\x7d\x7d" := by
    rw [← String.toList_inj]
    simp
  rw [braces, render_tag closed padded]

end Template

namespace Binding

open Json

variable {cs : List Char} {p : String} {v : Value} {scope : Document}

/-! ## What a mapping resolves to -/

theorem hasTag_tag (p : String) : hasTag ("\x7b\x7b " ++ p ++ " \x7d\x7d") = true := by
  simp [hasTag, Template.hasTag]

theorem resolve_path (plain : hasTag p = false) (found : scope.get? p = some v)
    (parameter : String) : resolve Template.render parameter p scope = .ok v := by
  simp [resolve, plain, found]

/-- A path in a tag is rendered, repaired and read back. -/
theorem resolve_tag (read : Template.tokens 0 p.toList = .ok [⟨.path p, 0⟩])
    (sealed_ : Template.Sealed p.toList) (found : scope.get? p = some v) (parameter : String) :
    resolve Template.render parameter ("\x7b\x7b " ++ p ++ " \x7d\x7d") scope =
      .ok (readOr (repairChars v.displayChars) v.displayText) := by
  have rendered := Template.render_padded sealed_ (Template.evaluate_path read found)
  simp only [resolve, hasTag_tag, if_true, rendered, Value.displayText, String.toList_ofList]

/-- A text that has a value is not repaired. -/
theorem readOr_repairChars (solid : Text.Solid cs) (json : parseChars cs = some v)
    (otherwise : String) : readOr (repairChars cs) otherwise = v := by
  have same : repairChars cs = cs := by
    cases bracketed : isBracketed (Text.trim cs) with
    | true =>
        rw [repairChars_of_bracketed bracketed, Text.trim_of_solidEnds solid]
        exact repaired_of_isJson (by rw [isJson, json]; rfl)
    | false => exact repairChars_of_not_bracketed bracketed
  rw [readOr, same, Text.trim_of_solidEnds solid, json, Option.getD_some]

/-! ## Parameters that take strings -/

theorem coerce_string (parameter : String) (v : Value) :
    coerce parameter .string v = .ok (if v = .null then .null else .str v.stringForm) := by
  cases v <;> rfl

theorem bind_of_resolve {name e : String} {kind : ParamKind}
    (some : Text.isBlankText e = false) (resolved : resolve Template.render name e scope = .ok v) :
    bind Template.render ⟨name, kind⟩ (.some e) scope = coerce name kind v := by
  simp [bind, Option.filter, some, resolved]

theorem isBlankText_tag (p : String) :
    Text.isBlankText ("\x7b\x7b " ++ p ++ " \x7d\x7d") = false := by
  simp [Text.isBlankText, Text.isBlank]

theorem isBlankText_path (path : Template.PathWord p) : Text.isBlankText p = false := by
  obtain ⟨c, cs, written, starts⟩ := path.first
  simp [Text.isBlankText, written, (Template.isPathStart_other starts).1]

theorem solid_intText (n : Int) : Number.intText n ≠ [] ∧ Text.Solid (Number.intText n) := by
  have digits : ∀ c ∈ Nat.toDigits 10 n.natAbs, Text.isBlank c = false := fun c member =>
    (Segment.plain_of_isDigit (Segment.isDigit_of_mem member)).1
  have some : Nat.toDigits 10 n.natAbs ≠ [] := Nat.toDigits_ne_nil
  have plain : ∀ c ∈ Number.intText n, Text.isBlank c = false := by
    intro c member
    rw [Number.intText] at member
    split at member
    · obtain rfl | digit := List.mem_cons.1 member
      · rfl
      · exact digits c digit
    · exact digits c member
  refine ⟨?_, fun c first => plain c (List.mem_of_mem_head? first),
    fun c last => plain c (List.mem_of_mem_getLast? last)⟩
  rw [Number.intText]
  split
  · exact List.cons_ne_nil _ _
  · exact some

/-- A boolean or an integer. -/
def IsPlain : Value → Prop
  | .bool _ | .num (.int _ _) => True
  | _ => False

theorem display_plain (plain : IsPlain v) :
    Text.Solid v.displayChars ∧ parseChars v.displayChars = some v := by
  cases v with
  | bool b =>
      cases b
      · exact ⟨Text.solid_between rfl rfl ['a', 'l', 's'], rfl⟩
      · exact ⟨Text.solid_between rfl rfl ['r', 'u'], rfl⟩
  | num n =>
      cases n with
      | int n bounds =>
          refine ⟨(solid_intText n).2, ?_⟩
          have read := Number.readTree_intText bounds
          rw [parseChars, Value.displayChars, Number.text, read]
          rfl
      | float x finite => cases plain
  | _ => cases plain

/-- **A path binds the same in a tag** for a parameter that takes strings, if a tag reads it as a
path at all and it leads to a boolean, an integer, or a string whose text does not read as something
else.

In a tag the text of a string is repaired and read back as JSON.  So it stays as it is exactly if no
JSON is read from it, or JSON whose string form it is; for one it does if it is neither in brackets
nor JSON itself. -/
theorem paths_bind_alike_in_tags {p : String} (path : Template.PathWord p) (name : String)
    (scope : Document) :
    let bound (e : String) := bind Template.render ⟨name, .string⟩ (some e) scope
    (∀ v, IsPlain v → scope.get? p = some v →
      bound ("\x7b\x7b " ++ p ++ " \x7d\x7d") = bound p ∧ bound p = .ok (.str v.stringForm)) ∧
    ∀ s, scope.get? p = some (.str s) →
      bound p = .ok (.str s) ∧
      (bound ("\x7b\x7b " ++ p ++ " \x7d\x7d") = bound p ↔
        ∀ v, Json.parse (Text.trimmed (repair s)) = some v → v ≠ .null ∧ v.stringForm = s) ∧
      (Json.parse (Text.trimmed s) = none → isBracketed (Text.trim s.toList) = false →
        bound ("\x7b\x7b " ++ p ++ " \x7d\x7d") = .ok (.str s)) := by
  intro bound
  have bare {v : Value} (found : scope.get? p = some v) : bound p = coerce name .string v :=
    bind_of_resolve (isBlankText_path path) (resolve_path path.hasTag found name)
  have tag {v : Value} (found : scope.get? p = some v) :
      bound ("\x7b\x7b " ++ p ++ " \x7d\x7d") =
        coerce name .string (readOr (repairChars v.displayChars) v.displayText) :=
    bind_of_resolve (isBlankText_tag p) (resolve_tag path.tokens path.sealed found name)
  refine ⟨fun v plain found => ?_, fun s found => ?_⟩
  · obtain ⟨solid, json⟩ := display_plain plain
    have some : v ≠ .null := by
      rintro rfl
      exact plain
    rw [tag found, bare found, readOr_repairChars solid json, coerce_string, if_neg some]
    exact ⟨rfl, rfl⟩
  · have read : readOr (repairChars (Value.str s).displayChars) (Value.str s).displayText =
        (Json.parse (Text.trimmed (repair s))).getD (.str s) := by
      simp only [readOr, Json.parse, Text.trimmed, repair, String.toList_ofList,
        Value.displayText, Value.displayChars, String.ofList_toList]
    have own : bound p = .ok (.str s) := bare found
    rw [tag found, read, own]
    refine ⟨rfl, ?_, fun json unclosed => ?_⟩
    · cases parsed : Json.parse (Text.trimmed (repair s)) with
      | none => simp [coerce_string, Value.stringForm]
      | some v =>
          rw [Option.getD_some, coerce_string]
          by_cases null : v = .null
          · simp [null]
          · simp [null]
    · have same : repair s = s := by
        rw [repair, repairChars_of_not_bracketed unclosed, String.ofList_toList]
      rw [same, json]
      rfl

theorem paths_bind_alike_in_tags_for_text :
    let scope : Document := ⟨.obj [("a", .arr [.str "12 monkeys", .bool true])]⟩
    let bound (e : String) := bind Template.render ⟨"p", .string⟩ (some e) scope
    (Template.PathWord "a[0]" ∧ scope.get? "a[0]" = some (.str "12 monkeys") ∧
      Json.parse (Text.trimmed "12 monkeys") = none ∧
      isBracketed (Text.trim "12 monkeys".toList) = false ∧
      bound ("\x7b\x7b " ++ "a[0]" ++ " \x7d\x7d") = .ok (.str "12 monkeys")) ∧
    Template.PathWord "a[1]" ∧ IsPlain (.bool true) ∧ scope.get? "a[1]" = some (.bool true) ∧
      bound ("\x7b\x7b " ++ "a[1]" ++ " \x7d\x7d") = bound "a[1]" ∧
      bound "a[1]" = .ok (.str "true") := by
  intro scope bound
  have path : Template.PathWord "a[0]" := by decide +kernel
  have path' : Template.PathWord "a[1]" := by decide +kernel
  have text : scope.get? "a[0]" = some (.str "12 monkeys") := by decide +kernel
  have truth : scope.get? "a[1]" = some (.bool true) := by decide +kernel
  have json : Json.parse (Text.trimmed "12 monkeys") = none := by decide +kernel
  have unclosed : isBracketed (Text.trim "12 monkeys".toList) = false := by decide +kernel
  obtain ⟨alike, own⟩ := (paths_bind_alike_in_tags path' "p" scope).1 (.bool true) trivial truth
  exact ⟨⟨path, text, json, unclosed,
    ((paths_bind_alike_in_tags path "p" scope).2 _ text).2.2 json unclosed⟩,
    path', trivial, truth, alike, own⟩

/-- In a tag the text of a null is bound as null, and neither words and numbers nor paths that begin
or end like no path are read as paths there. -/
theorem null_text_is_lost_in_a_tag :
    let scope : Document := ⟨.obj [("input", .obj [("a", .str "null")]), ("nil", .str "x"),
      ("5", .str "x"), ("-a", .str "x"), ("a]", .str "x")]⟩
    let bound (e : String) := bind Template.render ⟨"p", .string⟩ (some e) scope
    Template.PathWord "input.a" ∧ scope.get? "input.a" = some (.str "null") ∧
      bound "input.a" = .ok (.str "null") ∧ bound "\x7b\x7b input.a \x7d\x7d" = .ok .null ∧
    bound "nil" = .ok (.str "x") ∧ bound "\x7b\x7b nil \x7d\x7d" = .ok (.str "") ∧
    bound "5" = .ok (.str "x") ∧ bound "\x7b\x7b 5 \x7d\x7d" = .ok (.str "5") ∧
    bound "-a" = .ok (.str "x") ∧ bound "\x7b\x7b -a \x7d\x7d" =
      .error (.template "p" (.form 3 (.unexpectedCharacter '-'))) ∧
    bound "a]" = .ok (.str "x") ∧ bound "\x7b\x7b a] \x7d\x7d" =
      .error (.template "p" (.form 4 (.unexpectedCharacter ']'))) := by
  decide +kernel

end Binding
end Flowgraph
