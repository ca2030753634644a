/- # Flowgraph.Proofs.Document.Spelling -- the ways to write a path

`Path.Spells` is the grammar of paths: a segment stands as it is, behind a dot unless it comes
first, or in brackets, which may have a dot in front, and a key may have quotes in its brackets.
However a path is written, it is read (`Path.Spells.parse`).

The reader cuts the text at its dots before it looks for brackets, so what follows a segment is
looked at as the cut leaves it: brackets up to the next dot, and then whole parts
(`Path.Continues`).
-/
import Mathlib.Algebra.GroupWithZero.Nat
import Mathlib.Data.List.TakeWhile
import Flowgraph.Proofs.Document.Paths

set_option autoImplicit false

namespace Flowgraph

/-! ## Blanks around a text -/

namespace Text

/-- A text that does not end with a blank. -/
def EndsSolid (cs : List Char) : Prop := ∀ c ∈ cs.getLast?, isBlank c = false

/-- A text that neither begins nor ends with a blank. -/
structure Solid (cs : List Char) : Prop where
  first : ∀ c ∈ cs.head?, isBlank c = false
  last : EndsSolid cs

variable {cs ds before after : List Char} {c d : Char}

theorem EndsSolid.append (one : EndsSolid cs) (two : EndsSolid ds) : EndsSolid (cs ++ ds) := by
  intro c last
  rw [List.getLast?_append] at last
  cases ending : ds.getLast? with
  | none => exact one c (by simpa [ending] using last)
  | some d => exact two c (by simpa [ending] using last)

theorem endsSolid_nil : EndsSolid [] := fun _ last => by cases last

theorem EndsSolid.cons (one : isBlank c = false) (two : EndsSolid cs) : EndsSolid (c :: cs) := by
  have single : EndsSolid [c] := fun d last => by
    rw [List.getLast?_singleton, Option.mem_some] at last
    exact last ▸ one
  exact single.append two

theorem Solid.append (some : cs ≠ []) (one : Solid cs) (two : EndsSolid ds) : Solid (cs ++ ds) := by
  refine ⟨fun c first => ?_, one.last.append two⟩
  obtain ⟨d, rest, rfl⟩ := List.exists_cons_of_ne_nil some
  exact one.first c first

theorem solid_between (one : isBlank c = false) (two : isBlank d = false) (cs : List Char) :
    Solid (c :: cs ++ [d]) := by
  refine ⟨fun e first => ?_, fun e last => ?_⟩
  · rw [List.cons_append, List.head?_cons, Option.mem_some] at first
    exact first ▸ one
  · rw [List.getLast?_concat, Option.mem_some] at last
    exact last ▸ two

theorem trimEnd_of_endsSolid (solid : EndsSolid cs) : trimEnd cs = cs := by
  obtain rfl | ⟨ds, c, rfl⟩ := List.eq_nil_or_concat cs
  · rfl
  · rw [List.concat_eq_append] at solid ⊢
    rw [trimEnd_append (solid c (by simp))]
    rfl

theorem trimEnd_append_blank (blank : ∀ c ∈ after, isBlank c = true) (cs : List Char) :
    trimEnd (cs ++ after) = trimEnd cs := by
  rw [trimEnd, List.reverse_append, List.dropWhile_append_of_pos (by simpa using blank), trimEnd]

/-- Blanks on both sides of a text are what is taken off. -/
theorem trim_pad (blank : ∀ c ∈ before, isBlank c = true) (blank' : ∀ c ∈ after, isBlank c = true)
    (solid : Solid cs) : trim (before ++ cs ++ after) = cs := by
  rw [trim, trimStart, List.append_assoc, List.dropWhile_append_of_pos blank, ← trimStart, ← trim]
  cases cs with
  | nil =>
      rw [List.nil_append, trim, trimStart, List.dropWhile_eq_nil_iff.2 blank']
      rfl
  | cons c cs =>
      have first : isBlank c = false := solid.first c rfl
      have last := trimEnd_of_endsSolid solid.last
      rw [trimEnd_cons, if_neg (by simp [first])] at last
      rw [List.cons_append, trim_cons_of_solid first, trimEnd_append_blank blank', last]

theorem trim_of_solidEnds (solid : Solid cs) : trim cs = cs := by
  have pad : trim ([] ++ cs ++ []) = cs := trim_pad (by simp) (by simp) solid
  rwa [List.nil_append, List.append_nil] at pad

end Text

/-! ## The grammar -/

/-- The text of a segment without marks around it. -/
def Segment.text (s : Segment) : List Char := s.keyText.toList

/-- A key that can stand without quotes: it has neither dots nor brackets and no blanks at its
ends, is not in quotes itself, and is no index. -/
structure Segment.BareKey (key : List Char) : Prop where
  some : key ≠ []
  plain : ∀ c ∈ key, c ≠ '.' ∧ c ≠ '[' ∧ c ≠ ']'
  solid : Text.Solid key
  unquoted : ∀ q inner, q = '\x22' ∨ q = '\x27' → key ≠ q :: inner ++ [q]
  noIndex : ∀ n < 2 ^ 64, key ≠ Nat.toDigits 10 n

/-- A segment that can stand without quotes. -/
def Segment.Bare : Segment → Prop
  | .key k => BareKey k.toList
  | .index n => n < 2 ^ 64

/-- A segment that can be written at all: a key has no brackets, and an index fits a word. -/
def Segment.Writable : Segment → Prop
  | .key k => ∀ c ∈ k.toList, c ≠ '[' ∧ c ≠ ']'
  | .index n => n < 2 ^ 64

namespace Path

/-- A segment in brackets. -/
inductive Bracketed : Segment → List Char → Prop
  | bare {s : Segment} {left right : List Char} (bare : s.Bare)
      (blank : ∀ c ∈ left, Text.isBlank c = true) (blank' : ∀ c ∈ right, Text.isBlank c = true) :
      Bracketed s ('[' :: (left ++ s.text ++ right) ++ [']'])
  | quoted {key : String} {q : Char} {left right : List Char}
      (plain : ∀ c ∈ key.toList, c ≠ '[' ∧ c ≠ ']') (quote : q = '\x22' ∨ q = '\x27')
      (blank : ∀ c ∈ left, Text.isBlank c = true) (blank' : ∀ c ∈ right, Text.isBlank c = true) :
      Bracketed (.key key) ('[' :: (left ++ (q :: key.toList ++ [q]) ++ right) ++ [']'])

/-- What comes after the first segment. -/
inductive Follows : Path → List Char → Prop
  | done : Follows [] []
  | bare {s : Segment} {p : Path} {cs : List Char} (bare : s.Bare) (rest : Follows p cs) :
      Follows (s :: p) ('.' :: (s.text ++ cs))
  | bracketed {s : Segment} {b : List Char} {p : Path} {cs : List Char} (inside : Bracketed s b)
      (rest : Follows p cs) : Follows (s :: p) (b ++ cs)
  | dotted {s : Segment} {b : List Char} {p : Path} {cs : List Char} (inside : Bracketed s b)
      (rest : Follows p cs) : Follows (s :: p) ('.' :: (b ++ cs))

/-- A way to write a path, without blanks around it. -/
inductive Spells : Path → List Char → Prop
  | bare {s : Segment} {p : Path} {cs : List Char} (bare : s.Bare) (rest : Follows p cs) :
      Spells (s :: p) (s.text ++ cs)
  | bracketed {s : Segment} {b : List Char} {p : Path} {cs : List Char} (inside : Bracketed s b)
      (rest : Follows p cs) : Spells (s :: p) (b ++ cs)

end Path

/-! ## Segments -/

namespace Segment

variable {cs raw : List Char} {n : Nat}

theorem text_index (n : Nat) : (index n).text = Nat.toDigits 10 n := by
  rw [text, keyText, indexText, String.toList_ofList]

theorem isDigit_of_mem {c : Char} (member : c ∈ Nat.toDigits 10 n) : isDigit c = true := by
  have digit := Nat.isDigit_of_mem_toDigits (by decide) (by decide) member
  simpa [Char.isDigit, isDigit, Char.le_def] using digit

theorem plain_of_isDigit {c : Char} (digit : isDigit c = true) :
    Text.isBlank c = false ∧ c ≠ '.' ∧ c ≠ '[' ∧ c ≠ ']' ∧ c ≠ '\x22' ∧ c ≠ '\x27' := by
  have other (d : Char) (mark : isDigit d = false) : c ≠ d := by
    rintro rfl
    rw [digit] at mark
    cases mark
  refine ⟨?_, other _ rfl, other _ rfl, other _ rfl, other _ rfl, other _ rfl⟩
  simp only [isDigit, Char.le_def, Bool.and_eq_true, decide_eq_true_eq] at digit
  have bounds : 0x30 ≤ c.toNat ∧ c.toNat ≤ 0x39 := digit
  simp [Text.isBlank]
  omega

theorem index?_eq_some_iff : index? raw = some n ↔ raw = Nat.toDigits 10 n ∧ n < 2 ^ 64 := by
  have value (k : Nat) : digitsValue (Nat.toDigits 10 k) = k := Nat.ofDigitChars_ten_toDigits
  rw [index?]
  constructor
  · intro read
    split at read
    · rename_i fits
      cases read
      exact ⟨fits.2.1.symm, fits.2.2⟩
    · cases read
  · rintro ⟨rfl, small⟩
    have digits : (Nat.toDigits 10 n).all isDigit = true :=
      List.all_eq_true.2 fun c member => isDigit_of_mem member
    rw [value, if_pos ⟨digits, rfl, small⟩]

theorem unquoted?_cons {q : Char} (some : cs ≠ []) : unquoted? (q :: cs) =
    if (q = '\x22' ∨ q = '\x27') ∧ cs.getLast? = .some q then .some cs.dropLast else none := by
  obtain ⟨r, rest, rfl⟩ := List.exists_cons_of_ne_nil some
  rfl

theorem unquoted?_quoted {q : Char} (quote : q = '\x22' ∨ q = '\x27') (inner : List Char) :
    unquoted? (q :: inner ++ [q]) = some inner := by
  rw [List.cons_append, unquoted?_cons (by simp), if_pos ⟨quote, by simp⟩, List.dropLast_concat]

theorem unquoted?_eq_none
    (unquoted : ∀ q inner, q = '\x22' ∨ q = '\x27' → raw ≠ q :: inner ++ [q]) :
    unquoted? raw = none := by
  obtain - | ⟨q, - | ⟨r, rest⟩⟩ := raw
  · rfl
  · rfl
  · rw [unquoted?_cons (List.cons_ne_nil r rest), if_neg]
    rintro ⟨quote, last⟩
    obtain ⟨inner, split⟩ := List.getLast?_eq_some_iff.1 last
    exact unquoted q inner quote (by rw [split, List.cons_append])

/-- A word that begins with neither a digit nor a quote can stand without quotes. -/
theorem bareKey_of_first {c : Char} (plain : ∀ d ∈ c :: cs, d ≠ '.' ∧ d ≠ '[' ∧ d ≠ ']')
    (solid : Text.Solid (c :: cs)) (noDigit : isDigit c = false)
    (noQuote : c ≠ '\x22' ∧ c ≠ '\x27') : BareKey (c :: cs) where
  some := List.cons_ne_nil c cs
  plain := plain
  solid := solid
  unquoted := by
    rintro q inner quote same
    obtain ⟨rfl, -⟩ := List.cons.inj same
    exact quote.elim noQuote.1 noQuote.2
  noIndex := by
    intro n _ same
    have digit := isDigit_of_mem (same ▸ List.mem_cons_self : c ∈ Nat.toDigits 10 n)
    rw [noDigit] at digit
    cases digit

/-- A segment that can stand without quotes is read off its text. -/
theorem Bare.ofChars {s : Segment} (bare : s.Bare) : ofChars s.text = s := by
  cases s with
  | key k =>
      have number : index? k.toList = none := by
        cases found : index? k.toList with
        | none => rfl
        | some n =>
            obtain ⟨digits, small⟩ := index?_eq_some_iff.1 found
            exact absurd digits (bare.noIndex n small)
      rw [Segment.ofChars, text, keyText, unquoted?_eq_none bare.unquoted]
      simp only [number, String.ofList_toList]
  | index n =>
      have unquoted : unquoted? (Nat.toDigits 10 n) = none := by
        refine unquoted?_eq_none fun q inner quote split => ?_
        have member : q ∈ Nat.toDigits 10 n := by simp [split]
        have plain := plain_of_isDigit (isDigit_of_mem member)
        exact quote.elim plain.2.2.2.2.1 plain.2.2.2.2.2
      have number : index? (Nat.toDigits 10 n) = some n := index?_eq_some_iff.2 ⟨rfl, bare⟩
      rw [Segment.ofChars, text_index, unquoted]
      simp only [number]

theorem Bare.text_plain {s : Segment} (bare : s.Bare) :
    s.text ≠ [] ∧ (∀ c ∈ s.text, c ≠ '.' ∧ c ≠ '[' ∧ c ≠ ']') ∧ Text.Solid s.text := by
  cases s with
  | key k => exact ⟨bare.some, bare.plain, bare.solid⟩
  | index n =>
      have plain {c : Char} (member : c ∈ Nat.toDigits 10 n) :=
        plain_of_isDigit (isDigit_of_mem member)
      rw [text_index]
      refine ⟨Nat.toDigits_ne_nil, fun c member => ?_, fun c first => ?_, fun c last => ?_⟩
      · exact ⟨(plain member).2.1, (plain member).2.2.1, (plain member).2.2.2.1⟩
      · exact (plain (List.mem_of_mem_head? first)).1
      · exact (plain (List.mem_of_getLast? last)).1

end Segment

/-! ## Reading -/

namespace Path

variable {s : Segment} {p : Path} {b cs inner first : List Char} {rest : List (List Char)}

/-- The cut goes over brackets, whatever dots are inside. -/
theorem parts_brackets (plain : ∀ c ∈ inner, c ≠ '[' ∧ c ≠ ']')
    (split : parts cs = first :: rest) :
    parts ('[' :: inner ++ [']'] ++ cs) = ('[' :: inner ++ [']'] ++ first) :: rest := by
  have inside : Text.cut depthAfter (fun depth c => c == '.' && depth == 0) 1
      (inner ++ ']' :: cs) = (inner ++ ']' :: first) :: rest := by
    induction inner with
    | nil =>
        simp only [parts] at split
        simp [Text.cut, depthAfter, split, Text.extendFirst]
    | cons c inner ih =>
        obtain ⟨opening, closing⟩ := plain c List.mem_cons_self
        have later := ih fun d member => plain d (List.mem_cons_of_mem _ member)
        simp [Text.cut, depthAfter, opening, closing, later, Text.extendFirst]
  simp [parts, Text.cut, depthAfter, inside, Text.extendFirst]

theorem brackets_inside (seen : List Char) (plain : ∀ c ∈ inner, c ≠ ']')
    (some : Text.trim (seen.reverse ++ inner) ≠ []) (cs : List Char) :
    brackets (.some seen) (inner ++ ']' :: cs) =
      (brackets none cs).map (Segment.ofChars (Text.trim (seen.reverse ++ inner)) :: ·) := by
  induction inner generalizing seen with
  | nil =>
      rw [List.append_nil] at some
      simp [brackets, some]
  | cons c inner ih =>
      have closing := plain c List.mem_cons_self
      have longer : seen.reverse ++ c :: inner = (c :: seen).reverse ++ inner := by simp
      rw [longer] at some ⊢
      rw [List.cons_append, brackets, if_neg closing]
      exact ih (c :: seen) (fun d member => plain d (List.mem_cons_of_mem _ member)) some

/-- One segment in brackets is read, and then the next. -/
theorem brackets_append (plain : ∀ c ∈ inner, c ≠ ']') (some : Text.trim inner ≠ [])
    (cs : List Char) : brackets none ('[' :: inner ++ [']'] ++ cs) =
      (brackets none cs).map (Segment.ofChars (Text.trim inner) :: ·) := by
  have start := brackets_inside [] plain some cs
  simpa [brackets] using start

/-- What is in the brackets of a segment. -/
theorem Bracketed.inside (inside : Bracketed s b) : ∃ inner, b = '[' :: inner ++ [']'] ∧
    (∀ c ∈ inner, c ≠ '[' ∧ c ≠ ']') ∧ Text.trim inner ≠ [] ∧
      Segment.ofChars (Text.trim inner) = s := by
  have noBlank {cs : List Char} (blank : ∀ c ∈ cs, Text.isBlank c = true) (c : Char)
      (member : c ∈ cs) : c ≠ '[' ∧ c ≠ ']' := by
    constructor <;> rintro rfl <;> cases blank _ member
  cases inside with
  | bare bare blank blank' =>
      obtain ⟨some, plain, solid⟩ := bare.text_plain
      refine ⟨_, rfl, fun c member => ?_, ?_, ?_⟩
      · obtain (left | text) | right := by simpa only [List.mem_append] using member
        · exact noBlank blank c left
        · exact (plain c text).2
        · exact noBlank blank' c right
      · rwa [Text.trim_pad blank blank' solid]
      · rw [Text.trim_pad blank blank' solid, bare.ofChars]
  | @quoted key q left right plain quote blank blank' =>
      have marks : Text.isBlank q = false ∧ q ≠ '[' ∧ q ≠ ']' := by
        obtain rfl | rfl := quote <;> exact ⟨rfl, by decide, by decide⟩
      have solid := Text.solid_between marks.1 marks.1 key.toList
      refine ⟨_, rfl, fun c member => ?_, ?_, ?_⟩
      · obtain (left | text | text) | right := by simpa only [List.mem_append] using member
        · exact noBlank blank c left
        · obtain rfl | inner := List.mem_cons.1 text
          · exact marks.2
          · exact plain c inner
        · obtain rfl := List.mem_singleton.1 text
          exact marks.2
        · exact noBlank blank' c right
      · rw [Text.trim_pad blank blank' solid]
        simp
      · rw [Text.trim_pad blank blank' solid, Segment.ofChars, Segment.unquoted?_quoted quote]
        simp

/-- What follows a segment is read as a path: up to the next dot by its brackets, and behind that
part by part. -/
def Continues (cs : List Char) (p : Path) : Prop :=
  ∃ first rest before after, parts cs = first :: rest ∧ brackets none first = .ok before ∧
    joinParts rest = .ok after ∧ p = before ++ after ∧
      Text.EndsSolid first

theorem continues_nil : Continues [] [] :=
  ⟨[], [], [], [], rfl, rfl, rfl, rfl, Text.endsSolid_nil⟩

theorem continues_dot (read : joinParts (parts cs) = .ok p) : Continues ('.' :: cs) p :=
  ⟨[], parts cs, [], p, by simp [parts, Text.cut, depthAfter], rfl, read, rfl,
    Text.endsSolid_nil⟩

theorem Bracketed.continues (inside : Bracketed s b) (later : Continues cs p) :
    Continues (b ++ cs) (s :: p) := by
  obtain ⟨inner, rfl, plain, some, named⟩ := inside.inside
  obtain ⟨first, rest, before, after, split, read, joined, rfl, solid⟩ := later
  refine ⟨_, rest, s :: before, after, parts_brackets plain split, ?_, joined, rfl,
    (Text.solid_between rfl rfl inner).last.append solid⟩
  rw [brackets_append (fun c member => (plain c member).2) some, read, named]
  rfl

theorem opening_of_brackets {before : Path} (read : brackets none first = .ok before) :
    first = [] ∨ ∃ cs, first = '[' :: cs := by
  obtain - | ⟨c, cs⟩ := first
  · exact .inl rfl
  · rw [brackets] at read
    split at read
    · rename_i opening
      exact .inr ⟨cs, by rw [opening]⟩
    · cases read

/-- A part is read as what stands before its brackets, if anything does, and the brackets. -/
theorem partSegments_append {word : List Char} {before : Path}
    (plain : ∀ c ∈ word, c ≠ '[') (solid : Text.Solid (word ++ first))
    (read : brackets none first = .ok before) (some : word ≠ [] ∨ before ≠ []) :
    partSegments (word ++ first) =
      .ok (if word.isEmpty then before else Segment.ofChars word :: before) := by
  have head : (word ++ first).takeWhile (· ≠ '[') = word := by
    rw [List.takeWhile_append_of_pos (by simpa using plain)]
    obtain rfl | ⟨cs, rfl⟩ := opening_of_brackets read <;> simp
  have tail : (word ++ first).dropWhile (· ≠ '[') = first := by
    rw [List.dropWhile_append_of_pos (by simpa using plain)]
    obtain rfl | ⟨cs, rfl⟩ := opening_of_brackets read <;> simp
  rw [partSegments, Text.trim_of_solidEnds solid, head, tail, read]
  cases word with
  | nil =>
      obtain rfl | ⟨cs, rfl⟩ := opening_of_brackets read
      · cases read
        simp at some
      · rfl
  | cons c word => rfl

/-- A path that starts with brackets. -/
theorem Bracketed.starts (inside : Bracketed s b) (later : Continues cs p) :
    joinParts (parts (b ++ cs)) = .ok (s :: p) := by
  obtain ⟨inner, rfl, plain, some, named⟩ := inside.inside
  obtain ⟨first, rest, before, after, split, read, joined, rfl, last⟩ := later
  have segments : brackets none ('[' :: inner ++ [']'] ++ first) = .ok (s :: before) := by
    rw [brackets_append (fun c member => (plain c member).2) some, read, named]
    rfl
  have whole : Text.Solid ('[' :: inner ++ [']'] ++ first) :=
    (Text.solid_between rfl rfl inner).append (by simp) last
  have part : partSegments ([] ++ ('[' :: inner ++ [']'] ++ first)) = _ :=
    partSegments_append (by simp) whole segments (.inr (List.cons_ne_nil s before))
  rw [List.nil_append] at part
  rw [parts_brackets plain split, joinParts, part]
  simp [joined, Except.map]

/-- A path that starts with a segment as it is. -/
theorem starts_bare (bare : s.Bare) (later : Continues cs p) :
    joinParts (parts (s.text ++ cs)) = .ok (s :: p) := by
  obtain ⟨some, plain, solid⟩ := bare.text_plain
  obtain ⟨first, rest, before, after, split, read, joined, rfl, last⟩ := later
  have whole : Text.Solid (s.text ++ first) := solid.append some last
  have part := partSegments_append (fun c member => (plain c member).2.1) whole read (.inl some)
  rw [parts_append plain split, joinParts, part]
  simp [joined, some, bare.ofChars, Except.map]

theorem Follows.continues (follows : Follows p cs) : Continues cs p := by
  induction follows with
  | done => exact continues_nil
  | bare bare _ ih => exact continues_dot (starts_bare bare ih)
  | bracketed inside _ ih => exact inside.continues ih
  | dotted inside _ ih => exact continues_dot (inside.starts ih)

theorem Spells.joinParts (spells : Spells p cs) : joinParts (parts cs) = .ok p := by
  cases spells with
  | bare bare rest => exact starts_bare bare rest.continues
  | bracketed inside rest => exact inside.starts rest.continues

theorem Bracketed.solid (inside : Bracketed s b) : b ≠ [] ∧ Text.Solid b := by
  obtain ⟨inner, rfl, -⟩ := inside.inside
  exact ⟨by simp, Text.solid_between rfl rfl inner⟩

theorem Follows.last (follows : Follows p cs) : Text.EndsSolid cs := by
  induction follows with
  | done => exact Text.endsSolid_nil
  | bare bare _ ih => exact .cons rfl (bare.text_plain.2.2.last.append ih)
  | bracketed inside _ ih => exact inside.solid.2.last.append ih
  | dotted inside _ ih => exact .cons rfl (inside.solid.2.last.append ih)

theorem Spells.solid (spells : Spells p cs) : Text.Solid cs := by
  cases spells with
  | bare bare rest => exact bare.text_plain.2.2.append bare.text_plain.1 rest.last
  | bracketed inside rest => exact inside.solid.2.append inside.solid.1 rest.last

/-! ## There is a way to write every path -/

theorem exists_bracketed (writable : s.Writable) : ∃ b, Bracketed s b := by
  have nothing : ∀ c ∈ ([] : List Char), Text.isBlank c = true := by simp
  cases s with
  | key k => exact ⟨_, .quoted writable (.inl rfl) nothing nothing⟩
  | index n => exact ⟨_, .bare writable nothing nothing⟩

theorem exists_follows (writable : ∀ s ∈ p, s.Writable) : ∃ cs, Follows p cs := by
  induction p with
  | nil => exact ⟨[], .done⟩
  | cons s p ih =>
      obtain ⟨b, inside⟩ := exists_bracketed (writable s List.mem_cons_self)
      obtain ⟨cs, rest⟩ := ih fun t member => writable t (List.mem_cons_of_mem _ member)
      exact ⟨_, .bracketed inside rest⟩

theorem exists_spells (some : p ≠ []) (writable : ∀ s ∈ p, s.Writable) : ∃ cs, Spells p cs := by
  obtain ⟨s, p, rfl⟩ := List.exists_cons_of_ne_nil some
  obtain ⟨b, inside⟩ := exists_bracketed (writable s List.mem_cons_self)
  obtain ⟨cs, rest⟩ := exists_follows fun t member => writable t (List.mem_cons_of_mem _ member)
  exact ⟨_, .bracketed inside rest⟩

end Path

/-- **However a path is written, it is read.**  A path that goes somewhere, and has no brackets in
its keys, can be written.  Its segments may stand as they are, behind dots, or in brackets with
blanks inside, with a dot in front or without one, and its keys may stand in brackets with quotes
of either kind; there may be blanks around the whole.  Each of these texts is read as the path. -/
theorem all_spellings_are_read {p : Path} (some : p ≠ []) (writable : ∀ s ∈ p, s.Writable) :
    (∃ cs, Path.Spells p cs) ∧ ∀ cs before after, Path.Spells p cs →
      (∀ c ∈ before, Text.isBlank c = true) → (∀ c ∈ after, Text.isBlank c = true) →
      Path.parse (String.ofList (before ++ cs ++ after)) = .ok p := by
  refine ⟨Path.exists_spells some writable, fun cs before after spells blank blank' => ?_⟩
  rw [Path.parse_eq_ok_iff, ← Path.joinParts_trim, String.toList_ofList,
    Text.trim_pad blank blank' spells.solid]
  exact spells.joinParts

/-- A path with a segment of every form, and blanks where they may stand. -/
theorem all_spellings_are_read_mixed :
    let p : Path := [.key "out", .index 0, .key "a.b", .key "x y", .key "z"]
    p ≠ [] ∧ (∀ s ∈ p, s.Writable) ∧
      Path.parse " out[ 0 ].[\"a.b\" ].x y['z']\t" = .ok p := by
  intro p
  have writable : ∀ s ∈ p, s.Writable := by simp [p, Segment.Writable]
  have word : Segment.BareKey ['o', 'u', 't'] := Segment.bareKey_of_first (by simp)
    ⟨by simp [Text.isBlank], by simp [Text.EndsSolid, Text.isBlank]⟩ rfl (by simp)
  have words : Segment.BareKey ['x', ' ', 'y'] := Segment.bareKey_of_first (by simp)
    ⟨by simp [Text.isBlank], by simp [Text.EndsSolid, Text.isBlank]⟩ rfl (by simp)
  have number : (Segment.index 0).Bare := Nat.two_pow_pos 64
  have blank : ∀ c ∈ [' '], Text.isBlank c = true := by simp [Text.isBlank]
  have nothing : ∀ c ∈ ([] : List Char), Text.isBlank c = true := by simp
  have spells : Path.Spells p "out[ 0 ].[\"a.b\" ].x y['z']".toList := by
    have word : (Segment.key "out").Bare := by simpa [Segment.Bare] using word
    have words : (Segment.key "x y").Bare := by simpa [Segment.Bare] using words
    have last : Path.Bracketed (.key "z") _ :=
      .quoted (by simp) (.inr rfl) nothing nothing
    have dotted : Path.Bracketed (.key "a.b") _ :=
      .quoted (by simp) (.inl rfl) nothing blank
    have written : Path.Spells p _ := .bare word <| .bracketed (.bare number blank blank) <|
      .dotted dotted <| .bare words <| .bracketed last .done
    simpa [Segment.text, Segment.keyText, Segment.indexText] using written
  have read := (all_spellings_are_read (by simp [p]) writable).2 _ [' '] ['\t'] spells blank
    (by simp [Text.isBlank])
  refine ⟨by simp [p], writable, ?_⟩
  simpa using read

end Flowgraph
