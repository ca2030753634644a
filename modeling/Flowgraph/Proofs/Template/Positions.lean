/- # Flowgraph.Proofs.Template.Positions -- an error of form points into its template

The lexer gives each token, and each error, the offset of a character that it has met, and the
reader adds only the end of the body (`evaluateAt_places`).  So within a tag the offset of an error
is that of a character of the body or of its end.

A template is wrong at the first of its pieces that is.  What comes before that piece is a template
of its own, cut in the same way (`piecesFrom_cut`), and it renders.
-/
import Flowgraph.Proofs.Template.Composition

set_option autoImplicit false

namespace Flowgraph.Template

variable {P : Nat → Prop} {offset stop : Nat} {c : Char} {cs : List Char} {m : Value}
  {ts : List Placed}

/-! ## Places in a body -/

/-- An error in the form of a tag that is closed, at one of the given offsets. -/
def Error.At (P : Nat → Prop) : Error → Prop
  | .form offset fault => P offset ∧ fault ≠ .unterminatedTag
  | _ => False

/-- What comes out of a body: something good, or an error at one of the given offsets. -/
def Places {α : Type} (P : Nat → Prop) (good : α → Prop) : Except Error α → Prop
  | .ok a => good a
  | .error e => e.At P

theorem Places.map {α β : Type} {good : α → Prop} {good' : β → Prop} {f : α → β}
    {x : Except Error α} (places : Places P good x) (next : ∀ a, good a → good' (f a)) :
    Places P good' (x.map f) := by
  cases x with
  | ok a => exact next a places
  | error e => exact places

namespace LexState

/-- Whether what the lexer is in the middle of began at one of the given offsets. -/
def Began (P : Nat → Prop) : LexState → Prop
  | .between => True
  | .minus start => P start
  | .string start _ _ _ => P start
  | .number start _ => P start
  | .path start _ _ => P start

theorem openToken_places (here : P offset) (c : Char) :
    Places P (fun r => r.1.Began P ∧ ∀ t ∈ r.2, P t.offset) (openToken offset c) := by
  simp only [openToken]
  split_ifs <;> simp [Places, Error.At, Began, here]

theorem numberToken_places {start : Nat} (began : P start) (text : List Char) :
    Places P (fun t => P t.offset) (numberToken start text) := by
  rw [numberToken]
  cases Json.parseChars text.reverse with
  | none => exact ⟨began, by simp⟩
  | some v => exact began

/-- One more character: the tokens that it completes began where the lexer has been. -/
theorem step_places {s : LexState} (began : s.Began P) (here : P offset) (c : Char) :
    Places P (fun r => r.1.Began P ∧ ∀ t ∈ r.2, P t.offset) (s.step offset c) := by
  have opened := openToken_places here c
  cases s with
  | between => exact opened.map fun r good => ⟨good.1, by simpa using good.2⟩
  | minus start =>
      simp only [step]
      split_ifs
      · exact ⟨began, by simp⟩
      · exact ⟨began, by simp⟩
  | string start quote text escaped =>
      simp only [step]
      split_ifs
      · exact ⟨began, by simp⟩
      · exact ⟨began, by simp⟩
      · exact ⟨trivial, fun t member => List.mem_singleton.1 member ▸ began⟩
      · exact ⟨began, by simp⟩
  | number start text =>
      simp only [step]
      split_ifs
      · exact ⟨began, by simp⟩
      · have token := numberToken_places began text
        cases number : numberToken start text with
        | error e =>
            rw [number] at token
            exact token
        | ok t =>
            rw [number] at token
            exact opened.map fun r good => ⟨good.1, by simpa using ⟨token, good.2⟩⟩
  | path start text depth =>
      simp only [step]
      cases pathDepth? depth c with
      | some depth' => exact ⟨began, by simp⟩
      | none => exact opened.map fun r good => ⟨good.1, by simpa using ⟨began, good.2⟩⟩

theorem finish_places {s : LexState} (began : s.Began P) :
    Places P (fun ts => ∀ t ∈ ts, P t.offset) s.finish := by
  cases s with
  | between => simp [Places, finish]
  | minus start => exact ⟨began, by simp⟩
  | string start quote text escaped => exact ⟨began, by simp⟩
  | number start text =>
      exact (numberToken_places began text).map fun t good => by simpa using good
  | path start text depth => exact fun t member => List.mem_singleton.1 member ▸ began

end LexState

theorem lex_places {s : LexState} (began : s.Began P)
    (places : ∀ a b, cs = a ++ b → P (offset + Text.byteSize a)) :
    Places P (fun ts => ∀ t ∈ ts, P t.offset) (lex s offset cs) := by
  induction cs generalizing s offset with
  | nil => exact s.finish_places began
  | cons c cs ih =>
      have here : P offset := places [] (c :: cs) rfl
      have stepped := s.step_places began here c
      rw [lex]
      cases step : s.step offset c with
      | error e =>
          rw [step] at stepped
          exact stepped
      | ok r =>
          rw [step] at stepped
          have later : Places P (fun ts => ∀ t ∈ ts, P t.offset)
              (lex r.1 (offset + c.utf8Size) cs) := ih stepped.1 fun a b split => by
            have place := places (c :: a) b (by rw [split]; rfl)
            rwa [Text.byteSize_cons, ← Nat.add_assoc] at place
          refine later.map fun ts good t member => ?_
          obtain new | old := List.mem_append.1 member
          · exact stepped.2 t new
          · exact good t old

/-- The form is left at a token, or at the end. -/
theorem Pipeline.readFrom_places (e : Expect) (tokens : ∀ t ∈ ts, P t.offset) (end_ : P stop) :
    ∀ fault ∈ (readFrom stop e ts).2, P fault.1 ∧ fault.2 ≠ .unterminatedTag := by
  have other (e : Expect) : e.fault ≠ .unterminatedTag := by cases e <;> simp [Expect.fault]
  induction ts generalizing e with
  | nil =>
      rw [readFrom]
      split_ifs
      · simp
      · rintro fault ⟨⟩
        exact ⟨end_, other e⟩
  | cons t ts ih =>
      rw [readFrom]
      cases e.next t.token with
      | some e' => exact ih e' fun u member => tokens u (List.mem_cons_of_mem t member)
      | none =>
          rintro fault ⟨⟩
          exact ⟨tokens t List.mem_cons_self, other e⟩

/-- Filters that fail are no errors of form. -/
theorem Pipeline.fold_ne_form (m v : Value) (as : List Application) (offset : Nat) (fault : Fault) :
    fold m v as ≠ .error (.form offset fault) := by
  intro failed
  have stays := fold_stays 1 m v as
  rw [failed] at stays
  simp [Except.mapError, Error.shift] at stays

/-- **An error of form in a tag** is at a character of the body or at its end. -/
theorem evaluateAt_places {body : List Char} {fault : Fault} {n : Nat}
    (failed : evaluateAt offset body m = .error (.form n fault)) :
    (∃ a b, body = a ++ b ∧ n = offset + Text.byteSize a) ∧ fault ≠ .unterminatedTag := by
  let P := fun n => ∃ a b, body = a ++ b ∧ n = offset + Text.byteSize a
  have lexed : Places P (fun ts => ∀ t ∈ ts, P t.offset) (tokens offset body) :=
    lex_places trivial fun a b split => ⟨a, b, split, rfl⟩
  rw [evaluateAt] at failed
  cases read : tokens offset body with
  | error e =>
      rw [read] at lexed failed
      cases failed
      exact lexed
  | ok ts =>
      rw [read] at lexed
      have end_ : P (offset + Text.byteSize body) := ⟨body, [], (List.append_nil _).symm, rfl⟩
      have left := Pipeline.readFrom_places .source lexed end_
      simp only [read, Pipeline.evaluate, Pipeline.read] at failed
      split at failed
      · rename_i e folded
        cases failed
        exact absurd folded (Pipeline.fold_ne_form _ _ _ _ _)
      · rename_i where_
        cases failed
        exact left _ where_
      · cases failed

/-- An error of form in a tag is found in its body alone, before the bytes in front of it. -/
theorem evaluate_of_failed {body : List Char} {fault : Fault} {n : Nat}
    (failed : evaluateAt offset body m = .error (.form n fault)) :
    ∃ k, n = offset + k ∧ evaluate (String.ofList body) m = .error (.form k fault) := by
  have moved := evaluateAt_shift offset 0 body m
  rw [Nat.zero_add, failed] at moved
  rw [evaluate, String.toList_ofList]
  cases alone : evaluateAt 0 body m with
  | ok v =>
      rw [alone] at moved
      cases moved
  | error e =>
      rw [alone] at moved
      cases e with
      | form k fault' =>
          cases moved
          exact ⟨k, Nat.add_comm k offset, rfl⟩
      | unknownFilter name => cases moved
      | filter name fault' => cases moved

/-! ## Places in a template -/

/-- **What comes before a tag** is a template of its own, cut as it is cut there. -/
theorem piecesFrom_cut {s : Scan} {ps qs : List Piece} {p : Piece}
    (cut : piecesFrom s cs = ps ++ p :: qs) (tag : ∀ t, p ≠ .text t) (some : ps ≠ []) :
    ∃ a b, cs = a ++ '{' :: '{' :: b ∧ piecesFrom s a = ps := by
  induction s, cs using Scan.induction generalizing ps with
  | nil s =>
      obtain ⟨first, ps, rfl⟩ := List.exists_cons_of_ne_nil some
      have one : (piecesFrom s []).length = 1 := by cases s <;> rfl
      rw [cut] at one
      simp at one
  | opening seen cs ih =>
      obtain ⟨first, ps, rfl⟩ := List.exists_cons_of_ne_nil some
      rw [piecesFrom_opening, List.cons_append, List.cons.injEq] at cut
      obtain ⟨rfl, cut⟩ := cut
      by_cases more : ps = []
      · exact ⟨[], cs, rfl, by rw [more]; rfl⟩
      · obtain ⟨a, b, rfl, own⟩ := ih cut more
        exact ⟨'{' :: '{' :: a, b, rfl, by rw [piecesFrom_opening, own]⟩
  | closing seen cs ih =>
      obtain ⟨first, ps, rfl⟩ := List.exists_cons_of_ne_nil some
      rw [piecesFrom_closing, List.cons_append, List.cons.injEq] at cut
      obtain ⟨rfl, cut⟩ := cut
      have more : ps ≠ [] := by
        rintro rfl
        obtain ⟨t, rest, text⟩ := piecesFrom_seen cs
        rw [text] at cut
        exact tag _ (List.cons.inj cut).1.symm
      obtain ⟨a, b, rfl, own⟩ := ih cut more
      exact ⟨'}' :: '}' :: a, b, rfl, by rw [piecesFrom_closing, own]⟩
  | plain s c cs plain ih =>
      rw [piecesFrom_plain plain] at cut
      obtain ⟨a, b, rfl, own⟩ := ih cut some
      have plain' : s.Plain c a := by
        rintro d mark ⟨rfl, second⟩
        obtain ⟨rest, rfl⟩ := List.head?_eq_some_iff.1 second
        exact plain c mark ⟨rfl, rfl⟩
      exact ⟨c :: a, b, rfl, by rw [piecesFrom_plain plain', own]⟩

/-- The piece that a template fails with is a tag, and what comes before it renders. -/
theorem exists_failing {e : Error} {t : List Char} (failed : renderChars t m = .error e) :
    ∃ before xs ps p qs, renderChars before m = .ok xs ∧ pieces t = ps ++ p :: qs ∧
      ps.flatMap Piece.source = before ∧ (∃ after, t = before ++ p.source ++ after) ∧
      p.outcome m (Text.byteSize before) = .error e := by
  obtain ⟨ps, p, qs, outs, cut, writes, outcome⟩ := renderFrom_eq_error_iff.1 failed
  rw [Nat.zero_add] at outcome
  have tag (cs : List Char) : p ≠ .text cs := by
    rintro rfl
    cases outcome
  obtain ⟨first, rest, seen⟩ := piecesFrom_seen t
  have some : ps ≠ [] := by
    rintro rfl
    rw [pieces, seen] at cut
    exact tag _ (List.cons.inj cut).1.symm
  obtain ⟨before, after, rfl, own⟩ := piecesFrom_cut cut tag some
  have rendered : renderFrom m 0 ps = .ok outs.flatten := renderFrom_eq_ok_iff.2 ⟨outs, writes, rfl⟩
  have source : ps.flatMap Piece.source = before := by
    obtain ⟨rest, split, all⟩ := source_piecesFrom (.text []) before
    rw [own] at split all
    rw [all (closed_of_renderFrom rendered), List.append_nil] at split
    exact split.symm
  refine ⟨before, outs.flatten, ps, p, qs, ?_, cut, source, ?_, source ▸ outcome⟩
  · rw [renderChars, pieces, own, rendered]
  · obtain ⟨rest, split, -⟩ := source_piecesFrom (.text []) (before ++ '{' :: '{' :: after)
    rw [← pieces, cut, List.flatMap_append, List.flatMap_cons, source] at split
    exact ⟨qs.flatMap Piece.source ++ rest, by simpa [Scan.source] using split⟩

/-- A piece with an error of form is a tag that is never closed, or one whose body has the error. -/
theorem Piece.form_of_outcome {p : Piece} {fault : Fault} {n : Nat}
    (wrong : p.outcome m offset = .error (.form n fault)) :
    (p = .unclosed ∧ fault = .unterminatedTag ∧ n = offset) ∨
      ∃ body, p = .tag body ∧ evaluateAt (offset + 2) body m = .error (.form n fault) := by
  cases p with
  | text cs => cases wrong
  | unclosed =>
      cases wrong
      exact .inl ⟨rfl, rfl, rfl⟩
  | tag body =>
      refine .inr ⟨body, rfl, ?_⟩
      rw [outcome] at wrong
      cases worth : evaluateAt (offset + 2) body m with
      | ok v =>
          rw [worth] at wrong
          cases wrong
      | error e =>
          rw [worth] at wrong
          cases wrong
          rfl

/-- The bytes in front of a character, or of the end, lead to a boundary in the text. -/
theorem exists_boundary {t : String} {a b : List Char} (split : t.toList = a ++ b) :
    Text.byteSize a ≤ t.utf8ByteSize ∧
      ∃ u v : String, t = u ++ v ∧ u.utf8ByteSize = Text.byteSize a := by
  have halves : t = String.ofList a ++ String.ofList b := by
    rw [← String.toList_inj, split]
    simp
  have size := utf8ByteSize_ofList a
  refine ⟨?_, _, _, halves, size⟩
  rw [halves, String.utf8ByteSize_append, size]
  omega

/-- **An error of form points into its template.**  Its offset is that of a character or of the end,
and what comes before the tag that is wrong renders.  When the tag is never closed, the error is
where it opens.  Otherwise the error is in the body, or at the braces that close it, and it is the
error of the body alone, as many bytes further on as the body is. -/
theorem errors_point_into_their_template {t : String} {m : Value} {offset : Nat} {fault : Fault}
    (failed : render t m = .error (.form offset fault)) :
    offset ≤ t.utf8ByteSize ∧ (∃ a b : String, t = a ++ b ∧ a.utf8ByteSize = offset) ∧
    ∃ before x : String, render before m = .ok x ∧
      ∃ ps qs, ps.flatMap Piece.source = before.toList ∧
        ((fault = .unterminatedTag ∧ pieces t.toList = ps ++ .unclosed :: qs ∧
            (∃ after, t = before ++ "\x7b\x7b" ++ after) ∧ offset = before.utf8ByteSize) ∨
          (fault ≠ .unterminatedTag ∧ ∃ body : String,
            pieces t.toList = ps ++ .tag body.toList :: qs ∧
            (∃ after, t = before ++ "\x7b\x7b" ++ body ++ "\x7d\x7d" ++ after) ∧
            ∃ k ≤ body.utf8ByteSize, offset = before.utf8ByteSize + 2 + k ∧
              evaluate body m = .error (.form k fault))) := by
  obtain ⟨before, xs, ps, p, qs, rendered, cut, source, ⟨after, split⟩, outcome⟩ :=
    exists_failing (render_eq_error_iff.1 failed)
  have renders : render (String.ofList before) m = .ok (String.ofList xs) := by
    rw [render_eq_ok_iff, String.toList_ofList, String.toList_ofList, rendered]
  have source : ps.flatMap Piece.source = (String.ofList before).toList := by
    rw [source, String.toList_ofList]
  have size : (String.ofList before).utf8ByteSize = Text.byteSize before :=
    utf8ByteSize_ofList before
  obtain ⟨rfl, rfl, rfl⟩ | ⟨body, rfl, wrong⟩ := Piece.form_of_outcome outcome
  · have whole : t = String.ofList before ++ "\x7b\x7b" ++ String.ofList after := by
      rw [← String.toList_inj, split]
      simp [Piece.source]
    obtain ⟨within, boundary⟩ := exists_boundary (split.trans (List.append_assoc ..))
    exact ⟨within, boundary, _, _, renders, ps, qs, source,
      .inl ⟨rfl, cut, ⟨_, whole⟩, size.symm⟩⟩
  · obtain ⟨⟨a, b, rfl, place⟩, closed⟩ := evaluateAt_places wrong
    obtain ⟨k, same, alone⟩ := evaluate_of_failed wrong
    have whole : t = String.ofList before ++ "\x7b\x7b" ++ String.ofList (a ++ b) ++
        "\x7d\x7d" ++ String.ofList after := by
      rw [← String.toList_inj, split]
      simp [Piece.source]
    have front : t.toList = (before ++ '{' :: '{' :: a) ++ (b ++ '}' :: '}' :: after) := by
      rw [split]
      simp [Piece.source]
    have bytes : Text.byteSize (before ++ '{' :: '{' :: a) = offset := by
      have brace : '{'.utf8Size = 1 := rfl
      rw [place, Text.byteSize_append, Text.byteSize_cons, Text.byteSize_cons, brace]
      omega
    have inside : k ≤ (String.ofList (a ++ b)).utf8ByteSize := by
      rw [utf8ByteSize_ofList, Text.byteSize_append]
      omega
    obtain ⟨within, boundary⟩ := bytes ▸ exists_boundary front
    refine ⟨within, boundary, _, _, renders, ps, qs, source, .inr ⟨closed, String.ofList (a ++ b),
      ?_, ⟨_, whole⟩, k, inside, size.symm ▸ same, alone⟩⟩
    rw [cut, String.toList_ofList]

/-- Behind a tag that renders, a tag that is wrong at the end of its body. -/
theorem errors_point_into_their_template_at_end :
    let t := "é\x7b\x7b 'é' \x7d\x7d\x7b\x7b a | \x7d\x7d"
    render t .null = .error (.form 19 .expectedFilter) ∧
      19 ≤ t.utf8ByteSize ∧ (∃ a b : String, t = a ++ b ∧ a.utf8ByteSize = 19) := by
  intro t
  have failed : render t .null = .error (.form 19 .expectedFilter) := by
    simp only [t]
    rfl
  obtain ⟨inside, boundary, -⟩ := errors_point_into_their_template failed
  exact ⟨failed, inside, boundary⟩

end Flowgraph.Template
