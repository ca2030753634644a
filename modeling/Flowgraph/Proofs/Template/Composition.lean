/- # Flowgraph.Proofs.Template.Composition -- templates one after the other

A template is cut into pieces by its own marks: in text two opening braces are one, in a tag two
closing ones, in quotes nothing is (`Scan.mark`).  Any other character only carries the scan on
(`Scan.after`), and the proofs about pieces go by these three steps (`Scan.induction`).

A template whose tags are all closed ends in text, which the text of a template behind it
continues, unless the last brace of the one and the first brace of the other make a mark that
neither of them has (`Apart`).  So the two are cut as they are cut on their own, and they render
one after the other, the second further on by the bytes of the first.
-/
import Mathlib.Data.List.Forall2
import Flowgraph.Proofs.Template.Offsets

set_option autoImplicit false

namespace Flowgraph.Template

variable {a b cs xs : List Char} {c : Char} {ps qs : List Piece} {s : Scan} {m : Value}
  {offset : Nat}

/-! ## The steps of the scan -/

namespace Scan

/-- The character that two of are a mark. -/
def mark : Scan → Option Char
  | .text _ => some '{'
  | .tag _ => some '}'
  | .quoted _ _ _ => none

/-- Where the scan stands after a character that is not at a mark. -/
def after : Scan → Char → Scan
  | .text seen, c => .text (c :: seen)
  | .tag seen, c =>
    if c = '\x22' ∨ c = '\x27' then .quoted (c :: seen) c false else .tag (c :: seen)
  | .quoted seen quote escaped, c =>
    if escaped then .quoted (c :: seen) quote false
    else if c = '\\' then .quoted (c :: seen) quote true
    else if c = quote then .tag (c :: seen)
    else .quoted (c :: seen) quote false

/-- Whether the scan is at no mark before a character and what follows it. -/
def Plain (s : Scan) (c : Char) (cs : List Char) : Prop :=
  ∀ d ∈ s.mark, ¬(c = d ∧ cs.head? = some d)

/-- The text that the scan is in the middle of. -/
def source : Scan → List Char
  | .text seen => seen.reverse
  | .tag seen => '{' :: '{' :: seen.reverse
  | .quoted seen _ _ => '{' :: '{' :: seen.reverse

theorem source_after (s : Scan) (c : Char) : (s.after c).source = s.source ++ [c] := by
  cases s with
  | text seen => simp [after, source]
  | tag seen =>
      simp only [after]
      split_ifs <;> simp [source]
  | quoted seen quote escaped =>
      simp only [after]
      split_ifs <;> simp [source]

/-- A text is gone through by marks and by characters that are not at one. -/
@[elab_as_elim]
theorem induction {motive : Scan → List Char → Prop} (s : Scan) (cs : List Char)
    (nil : ∀ s, motive s [])
    (opening : ∀ seen cs, motive (.tag []) cs → motive (.text seen) ('{' :: '{' :: cs))
    (closing : ∀ seen cs, motive (.text []) cs → motive (.tag seen) ('}' :: '}' :: cs))
    (plain : ∀ s c cs, Plain s c cs → motive (s.after c) cs → motive s (c :: cs)) :
    motive s cs := by
  induction size : cs.length using Nat.strongRecOn generalizing s cs with
  | ind n ih =>
      subst size
      cases cs with
      | nil => exact nil s
      | cons c cs =>
          by_cases between : Plain s c cs
          · exact plain s c cs between (ih cs.length (by simp) (s.after c) cs rfl)
          · obtain ⟨d, mark, rfl, second⟩ : ∃ d ∈ s.mark, c = d ∧ cs.head? = some d := by
              simpa [Plain] using between
            obtain ⟨rest, rfl⟩ := List.head?_eq_some_iff.1 second
            have shorter : rest.length < (c :: c :: rest).length := by
              simp only [List.length_cons]
              omega
            cases s with
            | text seen =>
                obtain rfl := Option.mem_some.1 mark
                exact opening seen rest (ih rest.length shorter (.tag []) rest rfl)
            | tag seen =>
                obtain rfl := Option.mem_some.1 mark
                exact closing seen rest (ih rest.length shorter (.text []) rest rfl)
            | quoted seen quote escaped => cases mark

end Scan

theorem piecesFrom_opening (seen cs : List Char) :
    piecesFrom (.text seen) ('{' :: '{' :: cs) = .text seen.reverse :: piecesFrom (.tag []) cs :=
  piecesFrom.eq_2 seen cs

theorem piecesFrom_closing (seen cs : List Char) :
    piecesFrom (.tag seen) ('}' :: '}' :: cs) = .tag seen.reverse :: piecesFrom (.text []) cs :=
  piecesFrom.eq_5 seen cs

theorem piecesFrom_plain (plain : s.Plain c cs) :
    piecesFrom s (c :: cs) = piecesFrom (s.after c) cs := by
  cases s with
  | text seen =>
      refine piecesFrom.eq_3 seen c cs fun rest first second => ?_
      exact plain '{' rfl ⟨first, by rw [second, List.head?_cons]⟩
  | tag seen =>
      rw [piecesFrom, Scan.after, apply_ite (piecesFrom · cs)]
      intro rest first second
      exact plain '}' rfl ⟨first, by rw [second, List.head?_cons]⟩
  | quoted seen quote escaped =>
      simp only [piecesFrom, Scan.after]
      split_ifs <;> rfl

/-! ## Pieces and their texts -/

/-- The text that a piece was read from; of a tag that is never closed, its braces. -/
def Piece.source : Piece → List Char
  | .text cs => cs
  | .tag body => '{' :: '{' :: (body ++ ['}', '}'])
  | .unclosed => ['{', '{']

/-- **Pieces give their template back.**  Texts and tags stand in it one after the other, and all
of it is in them unless a tag is never closed. -/
theorem source_piecesFrom (s : Scan) (cs : List Char) : ∃ rest,
    s.source ++ cs = (piecesFrom s cs).flatMap Piece.source ++ rest ∧
      (.unclosed ∉ piecesFrom s cs → rest = []) := by
  induction s, cs using Scan.induction with
  | nil s =>
      cases s with
      | text seen => exact ⟨[], by simp [piecesFrom, Scan.source, Piece.source], fun _ => rfl⟩
      | tag seen => exact ⟨seen.reverse, by simp [piecesFrom, Scan.source, Piece.source]⟩
      | quoted seen quote escaped =>
          exact ⟨seen.reverse, by simp [piecesFrom, Scan.source, Piece.source]⟩
  | opening seen cs ih =>
      obtain ⟨rest, split, closed⟩ := ih
      refine ⟨rest, ?_, fun all => closed (by simpa [piecesFrom_opening] using all)⟩
      rw [piecesFrom_opening, List.flatMap_cons, List.append_assoc, ← split]
      simp [Scan.source, Piece.source]
  | closing seen cs ih =>
      obtain ⟨rest, split, closed⟩ := ih
      refine ⟨rest, ?_, fun all => closed (by simpa [piecesFrom_closing] using all)⟩
      rw [piecesFrom_closing, List.flatMap_cons, List.append_assoc, ← split]
      simp [Scan.source, Piece.source]
  | plain s c cs plain ih =>
      obtain ⟨rest, split, closed⟩ := ih
      rw [piecesFrom_plain plain]
      refine ⟨rest, ?_, closed⟩
      rw [← split, Scan.source_after, List.append_assoc, List.singleton_append]

/-! ## Templates one after the other -/

/-- Whether no mark is made of the end of one text and the start of another. -/
def Apart (a b : List Char) : Prop := ¬(a.getLast? = some '{' ∧ b.head? = some '{')

theorem Apart.tail (apart : Apart (c :: cs) b) : Apart cs b := by
  rintro ⟨last, first⟩
  refine apart ⟨?_, first⟩
  rw [List.getLast?_cons, last, Option.getD_some]

/-- Behind a template whose tags are all closed, its characters are at no new mark. -/
theorem Scan.Plain.append (plain : s.Plain c cs) (apart : Apart (c :: cs) b)
    (closed : .unclosed ∉ piecesFrom (s.after c) cs) : s.Plain c (cs ++ b) := by
  rintro d mark ⟨rfl, second⟩
  cases cs with
  | cons e cs => exact plain c mark ⟨rfl, second⟩
  | nil =>
      cases s with
      | text seen =>
          obtain rfl := Option.mem_some.1 mark
          exact apart ⟨rfl, second⟩
      | tag seen =>
          obtain rfl := Option.mem_some.1 mark
          exact closed (List.mem_singleton_self _)
      | quoted seen quote escaped => cases mark

/-- The text that a template begins with takes up what comes before it. -/
theorem piecesFrom_seen (b : List Char) : ∃ t qs, ∀ seen,
    piecesFrom (.text seen) b = .text (seen.reverse ++ t) :: qs := by
  induction b with
  | nil => exact ⟨[], [], fun seen => by rw [piecesFrom, List.append_nil]⟩
  | cons c b ih =>
      by_cases plain : c = '{' ∧ b.head? = some '{'
      · obtain ⟨rfl, second⟩ := plain
        obtain ⟨rest, rfl⟩ := List.head?_eq_some_iff.1 second
        exact ⟨[], _, fun seen => by rw [piecesFrom_opening, List.append_nil]⟩
      · obtain ⟨t, qs, ih⟩ := ih
        refine ⟨c :: t, qs, fun seen => ?_⟩
        rw [piecesFrom_plain (by simpa [Scan.Plain, Scan.mark] using plain), Scan.after, ih]
        simp

/-- **A closed template ends in text**, and what is behind it goes on with that text. -/
theorem piecesFrom_append (apart : Apart a b) (closed : .unclosed ∉ piecesFrom s a) :
    ∃ ps t, piecesFrom s a = ps ++ [.text t] ∧
      piecesFrom s (a ++ b) = ps ++ piecesFrom (.text t.reverse) b := by
  induction s, a using Scan.induction with
  | nil s =>
      cases s with
      | text seen => exact ⟨[], seen.reverse, rfl, by rw [List.reverse_reverse]; rfl⟩
      | tag seen => exact absurd (List.mem_singleton_self _) closed
      | quoted seen quote escaped => exact absurd (List.mem_singleton_self _) closed
  | opening seen cs ih =>
      rw [piecesFrom_opening] at closed ⊢
      obtain ⟨ps, t, own, both⟩ := ih apart.tail.tail fun open_ => closed (.tail _ open_)
      refine ⟨.text seen.reverse :: ps, t, by rw [own, List.cons_append], ?_⟩
      rw [List.cons_append, List.cons_append, piecesFrom_opening, both, List.cons_append]
  | closing seen cs ih =>
      rw [piecesFrom_closing] at closed ⊢
      obtain ⟨ps, t, own, both⟩ := ih apart.tail.tail fun open_ => closed (.tail _ open_)
      refine ⟨.tag seen.reverse :: ps, t, by rw [own, List.cons_append], ?_⟩
      rw [List.cons_append, List.cons_append, piecesFrom_closing, both, List.cons_append]
  | plain s c cs plain ih =>
      rw [piecesFrom_plain plain] at closed ⊢
      obtain ⟨ps, t, own, both⟩ := ih apart.tail closed
      refine ⟨ps, t, own, ?_⟩
      rw [List.cons_append, piecesFrom_plain (plain.append apart closed), both]

/-! ## Rendering -/

namespace Piece

/-- The text of a piece that has the given offset. -/
def outcome (m : Value) (offset : Nat) : Piece → Except Error (List Char)
  | .text cs => .ok cs
  | .tag body => (evaluateAt (offset + 2) body m).map Value.displayChars
  | .unclosed => .error (.form offset .unterminatedTag)

/-- The text that a piece gives with a model, wherever it stands: a text gives itself, and a tag
the display text of its value. -/
inductive Writes (m : Value) : Piece → List Char → Prop
  | text (cs : List Char) : Writes m (.text cs) cs
  | tag {body : List Char} {v : Value} (worth : evaluate (String.ofList body) m = .ok v) :
      Writes m (.tag body) v.displayChars

theorem outcome_shift (k : Nat) (m : Value) (offset : Nat) (p : Piece) :
    p.outcome m (offset + k) = (p.outcome m offset).mapError (Error.shift k) := by
  cases p with
  | text cs => rfl
  | tag body =>
      rw [outcome, outcome, Nat.add_right_comm, evaluateAt_shift]
      cases evaluateAt (offset + 2) body m <;> rfl
  | unclosed => rfl

theorem outcome_eq_ok_iff {p : Piece} : p.outcome m offset = .ok xs ↔ p.Writes m xs := by
  constructor
  · intro given
    cases p with
    | text cs =>
        cases given
        exact .text xs
    | tag body =>
        rw [outcome] at given
        cases worth : evaluateAt (offset + 2) body m with
        | error e =>
            rw [worth] at given
            cases given
        | ok v =>
            rw [worth] at given
            cases given
            exact .tag (evaluateAt_eq_ok_iff.1 worth)
    | unclosed => cases given
  · intro writes
    cases writes with
    | text => rfl
    | tag worth =>
        rw [outcome, evaluateAt_eq_ok_iff.2 worth]
        rfl

end Piece

/-- The first piece of a template comes first, and the others behind its bytes. -/
theorem renderFrom_cons (m : Value) (offset : Nat) (p : Piece) (ps : List Piece) :
    renderFrom m offset (p :: ps) = (p.outcome m offset).bind fun xs =>
      (renderFrom m (offset + Text.byteSize p.source) ps).map (xs ++ ·) := by
  cases p with
  | text cs => rfl
  | tag body =>
      have size : Text.byteSize (Piece.tag body).source = Text.byteSize body + 4 := by
        have brace : '{'.utf8Size = 1 ∧ '}'.utf8Size = 1 := by decide
        simp only [Piece.source, Text.byteSize_cons, Text.byteSize_append, Text.byteSize_nil, brace]
        omega
      rw [renderFrom, Piece.outcome, size, ← Nat.add_assoc]
      cases evaluateAt (offset + 2) body m <;> rfl
  | unclosed => rfl

/-- **Pieces that stand further on** give the same text, and the same error further on. -/
theorem renderFrom_shift (k : Nat) (m : Value) (offset : Nat) (ps : List Piece) :
    renderFrom m (offset + k) ps = (renderFrom m offset ps).mapError (Error.shift k) := by
  induction ps generalizing offset with
  | nil => rfl
  | cons p ps ih =>
      rw [renderFrom_cons, renderFrom_cons, Piece.outcome_shift, Nat.add_right_comm, ih]
      cases p.outcome m offset with
      | error e => rfl
      | ok xs => cases renderFrom m (offset + Text.byteSize p.source) ps <;> rfl

/-- Pieces that give a text: the first of them does, and the others do. -/
theorem renderFrom_cons_eq_ok_iff {p : Piece} : renderFrom m offset (p :: ps) = .ok xs ↔
    ∃ ys zs, p.outcome m offset = .ok ys ∧
      renderFrom m (offset + Text.byteSize p.source) ps = .ok zs ∧ xs = ys ++ zs := by
  rw [renderFrom_cons]
  cases p.outcome m offset with
  | error e => simp [Except.bind]
  | ok ys =>
      cases renderFrom m (offset + Text.byteSize p.source) ps with
      | error e => simp [Except.bind, Except.map]
      | ok zs => simp [Except.bind, Except.map, eq_comm]

/-- Pieces in a row give their texts in a row. -/
theorem renderFrom_append (rendered : renderFrom m offset ps = .ok xs) (qs : List Piece) :
    renderFrom m offset (ps ++ qs) =
      (renderFrom m (offset + Text.byteSize (ps.flatMap Piece.source)) qs).map (xs ++ ·) := by
  induction ps generalizing offset xs with
  | nil =>
      cases rendered
      cases rest : renderFrom m offset qs <;> simp [rest, Except.map]
  | cons p ps ih =>
      obtain ⟨ys, zs, first, others, rfl⟩ := renderFrom_cons_eq_ok_iff.1 rendered
      rw [List.cons_append, renderFrom_cons, first, Except.bind, ih others, List.flatMap_cons,
        Text.byteSize_append, ← Nat.add_assoc]
      cases renderFrom m _ qs <;> simp [Except.map]

/-- Pieces give a text when each of them does. -/
theorem renderFrom_eq_ok_iff : renderFrom m offset ps = .ok xs ↔
    ∃ outs, List.Forall₂ (Piece.Writes m) ps outs ∧ xs = outs.flatten := by
  induction ps generalizing offset xs with
  | nil =>
      rw [renderFrom]
      constructor
      · intro given
        cases given
        exact ⟨[], .nil, rfl⟩
      · rintro ⟨outs, writes, rfl⟩
        cases writes
        rfl
  | cons p ps ih =>
      rw [renderFrom_cons_eq_ok_iff]
      constructor
      · rintro ⟨ys, zs, first, others, rfl⟩
        obtain ⟨outs, writes, rfl⟩ := ih.1 others
        exact ⟨ys :: outs, .cons (Piece.outcome_eq_ok_iff.1 first) writes, rfl⟩
      · rintro ⟨outs, writes, rfl⟩
        cases writes with
        | cons first others =>
            exact ⟨_, _, Piece.outcome_eq_ok_iff.2 first, ih.2 ⟨_, others, rfl⟩, rfl⟩

/-- Pieces fail with the first of them that does, behind what the ones before it give. -/
theorem renderFrom_eq_error_iff {e : Error} : renderFrom m offset ps = .error e ↔
    ∃ before p after outs, ps = before ++ p :: after ∧
      List.Forall₂ (Piece.Writes m) before outs ∧
      p.outcome m (offset + Text.byteSize (before.flatMap Piece.source)) = .error e := by
  induction ps generalizing offset with
  | nil => simp [renderFrom]
  | cons p ps ih =>
      rw [renderFrom_cons]
      constructor
      · intro given
        cases first : p.outcome m offset with
        | error e' =>
            rw [first] at given
            cases given
            exact ⟨[], p, ps, [], rfl, .nil, first⟩
        | ok ys =>
            have others : renderFrom m (offset + Text.byteSize p.source) ps = .error e := by
              rw [first, Except.bind] at given
              cases rest : renderFrom m (offset + Text.byteSize p.source) ps with
              | error e' =>
                  rw [rest] at given
                  cases given
                  rfl
              | ok zs =>
                  rw [rest] at given
                  cases given
            obtain ⟨before, q, after, outs, rfl, writes, failed⟩ := ih.1 others
            refine ⟨p :: before, q, after, ys :: outs, rfl,
              .cons (Piece.outcome_eq_ok_iff.1 first) writes, ?_⟩
            rwa [List.flatMap_cons, Text.byteSize_append, ← Nat.add_assoc]
      · rintro ⟨before, q, after, outs, split, writes, failed⟩
        cases writes with
        | nil =>
            obtain ⟨rfl, rfl⟩ := List.cons.inj split
            have first : p.outcome m offset = .error e := failed
            rw [first]
            rfl
        | cons first writes =>
            obtain ⟨rfl, rfl⟩ := List.cons.inj split
            rw [List.flatMap_cons, Text.byteSize_append, ← Nat.add_assoc] at failed
            rw [Piece.outcome_eq_ok_iff.2 first, Except.bind,
              ih.2 ⟨_, q, after, _, rfl, writes, failed⟩]
            rfl

/-- What renders has no tag that is never closed. -/
theorem closed_of_renderFrom (rendered : renderFrom m offset ps = .ok xs) : .unclosed ∉ ps := by
  obtain ⟨outs, writes, -⟩ := renderFrom_eq_ok_iff.1 rendered
  clear rendered
  induction writes with
  | nil => exact List.not_mem_nil
  | cons first _ ih =>
      intro member
      obtain rfl | later := List.mem_cons.1 member
      · cases first
      · exact ih later

/-- A text may be cut in two. -/
theorem renderFrom_cut (m : Value) (offset : Nat) (ps : List Piece) (t t' : List Char)
    (qs : List Piece) :
    renderFrom m offset (ps ++ .text (t ++ t') :: qs) =
      renderFrom m offset (ps ++ .text t :: .text t' :: qs) := by
  induction ps generalizing offset with
  | nil =>
      simp only [List.nil_append, renderFrom, Text.byteSize_append, ← Nat.add_assoc]
      cases renderFrom m (offset + Text.byteSize t + Text.byteSize t') qs <;> simp [Except.map]
  | cons p ps ih => simp only [List.cons_append, renderFrom_cons, ih]

/-- **Templates one after the other** render one after the other. -/
theorem renderChars_append (rendered : renderChars a m = .ok xs) (apart : Apart a b) :
    renderChars (a ++ b) m =
      ((renderChars b m).mapError (Error.shift (Text.byteSize a))).map (xs ++ ·) := by
  have closed : .unclosed ∉ pieces a := closed_of_renderFrom rendered
  obtain ⟨ps, t, own, both⟩ := piecesFrom_append apart closed
  obtain ⟨t', qs, seen⟩ := piecesFrom_seen b
  have after : pieces b = .text t' :: qs := seen []
  have whole : pieces (a ++ b) = ps ++ .text (t ++ t') :: qs := by
    rw [pieces, both, seen, List.reverse_reverse]
  have size : Text.byteSize ((pieces a).flatMap Piece.source) = Text.byteSize a := by
    obtain ⟨rest, split, all⟩ := source_piecesFrom (.text []) a
    rw [all closed, List.append_nil] at split
    rw [pieces, ← split]
    rfl
  have joined := renderFrom_append rendered (pieces b)
  rw [size, renderFrom_shift] at joined
  rw [renderChars, whole, renderFrom_cut, renderChars, ← joined, pieces, own, after,
    List.append_assoc, List.singleton_append]

theorem utf8ByteSize_ofList (cs : List Char) :
    (String.ofList cs).utf8ByteSize = Text.byteSize cs := by
  induction cs with
  | nil => rfl
  | cons c cs ih =>
      rw [String.ofList_cons, String.utf8ByteSize_append, String.utf8ByteSize_singleton, ih,
        Text.byteSize_cons]

theorem render_eq_ok_iff {t x : String} :
    render t m = .ok x ↔ renderChars t.toList m = .ok x.toList := by
  rw [render]
  cases renderChars t.toList m with
  | error e => simp [Except.map]
  | ok xs => simp [Except.map, ← String.toList_inj]

theorem render_eq_error_iff {t : String} {e : Error} :
    render t m = .error e ↔ renderChars t.toList m = .error e := by
  rw [render]
  cases renderChars t.toList m <;> simp [Except.map]

/-- **Rendering goes piece by piece.**  When a template renders, a template behind it renders after
it as it does on its own, and what is wrong with that is wrong with the whole, at an offset that is
greater by the bytes of the first; only two braces that meet in the middle could make a tag of
their own.

Where tags open and close is read off the template: its pieces, which no model has a part in, give
its text back, all of it when every tag is closed.  With a model each of them has its own text, and
the template renders as these texts in a row, or fails as the first piece that has none.  A string
stands there character by character, whatever marks are in it. -/
theorem rendering_is_piecewise {a b x : String} {m : Value} (rendered : render a m = .ok x)
    (apart : ¬(a.toList.getLast? = some '{' ∧ b.toList.head? = some '{')) :
    (∀ y, render b m = .ok y → render (a ++ b) m = .ok (x ++ y)) ∧
    (∀ e, render b m = .error e → render (a ++ b) m = .error (e.shift a.utf8ByteSize)) ∧
    (∀ t : String,
      (∃ rest, t.toList = (pieces t.toList).flatMap Piece.source ++ rest ∧
        (.unclosed ∉ pieces t.toList → rest = [])) ∧
      ∀ n,
        (∀ y, render t n = .ok y ↔ ∃ outs,
          List.Forall₂ (Piece.Writes n) (pieces t.toList) outs ∧ y.toList = outs.flatten) ∧
        ∀ e, render t n = .error e ↔ ∃ before p after outs,
          pieces t.toList = before ++ p :: after ∧ List.Forall₂ (Piece.Writes n) before outs ∧
          p.outcome n (Text.byteSize (before.flatMap Piece.source)) = .error e) ∧
    (∀ n body (s : String), evaluate (String.ofList body) n = .ok (.str s) →
      ∀ out, Piece.Writes n (.tag body) out ↔ out = s.toList) := by
  have whole := renderChars_append (render_eq_ok_iff.1 rendered) apart
  refine ⟨fun y second => ?_, fun e second => ?_,
    fun t => ⟨?_, fun n => ⟨fun y => ?_, fun e => ?_⟩⟩, fun n body s worth out => ?_⟩
  · rw [render_eq_ok_iff] at second ⊢
    rw [String.toList_append, whole, second, String.toList_append]
    rfl
  · have failed := render_eq_error_iff.1 second
    have size : a.utf8ByteSize = Text.byteSize a.toList := by
      rw [← utf8ByteSize_ofList, String.ofList_toList]
    rw [render, String.toList_append, whole, failed, size]
    rfl
  · exact source_piecesFrom (.text []) t.toList
  · rw [render_eq_ok_iff, renderChars, renderFrom_eq_ok_iff]
  · rw [render_eq_error_iff, renderChars, renderFrom_eq_error_iff]
    simp only [Nat.zero_add]
  · constructor
    · intro writes
      cases writes with
      | tag other =>
          rw [worth] at other
          cases other
          rfl
    · rintro rfl
      exact .tag worth

/-- A value with the marks of a template in it, and behind it a tag that is wrong. -/
theorem rendering_is_piecewise_behind_marks :
    let m : Value := .obj [("a", .str "\x7d\x7d\x7b\x7b '\\\" é")]
    let a := "é\x7b\x7b a \x7d\x7d"
    let b := "\x7b\x7b a | \x7d\x7d"
    render a m = .ok "é\x7d\x7d\x7b\x7b '\\\" é" ∧
      ¬(a.toList.getLast? = some '{' ∧ b.toList.head? = some '{') ∧
      render (a ++ a) m = .ok "é\x7d\x7d\x7b\x7b '\\\" éé\x7d\x7d\x7b\x7b '\\\" é" ∧
      render b m = .error (.form 7 .expectedFilter) ∧
      render (a ++ b) m = .error (.form 16 .expectedFilter) := by
  intro m a b
  have rendered : render a m = .ok "é\x7d\x7d\x7b\x7b '\\\" é" := by
    simp only [a, m]
    rfl
  have apart : ¬(a.toList.getLast? = some '{' ∧ b.toList.head? = some '{') := by decide
  have twice : ¬(a.toList.getLast? = some '{' ∧ a.toList.head? = some '{') := by decide
  have wrong : render b m = .error (.form 7 .expectedFilter) := by
    simp only [b, m]
    rfl
  exact ⟨rendered, apart, (rendering_is_piecewise rendered twice).1 _ rendered, wrong,
    (rendering_is_piecewise rendered apart).2.1 _ wrong⟩

end Flowgraph.Template
