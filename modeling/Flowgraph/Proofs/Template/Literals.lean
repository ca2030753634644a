/- # Flowgraph.Proofs.Template.Literals -- every text can be written in a template

Between quotes a text is written with a backslash before every backslash and every quote of the
same kind; line feed, tab and carriage return stand as they are or as a letter behind a backslash
(`Quotes`).  The lexer reads such a literal back (`lex_quotes`), and the scan of the template, which
reads quotes and backslashes by itself, is out of quotes where the lexer is (`Quotes.enclosed`).
-/
import Flowgraph.Proofs.Template.Tags

set_option autoImplicit false

namespace Flowgraph.Template

variable {q : Char} {s t : List Char}

/-- The ways in which a text is written between two quotes. -/
inductive Quotes (q : Char) : List Char → List Char → Prop
  | nil : Quotes q [] []
  | plain {c : Char} {s t : List Char} (bare : c ≠ q) (slash : c ≠ '\\') (rest : Quotes q s t) :
      Quotes q (c :: s) (c :: t)
  | marked {c : Char} {s t : List Char} (mark : c = q ∨ c = '\\') (rest : Quotes q s t) :
      Quotes q (c :: s) ('\\' :: c :: t)
  | lineFeed {s t : List Char} (rest : Quotes q s t) : Quotes q ('\n' :: s) ('\\' :: 'n' :: t)
  | tab {s t : List Char} (rest : Quotes q s t) : Quotes q ('\t' :: s) ('\\' :: 't' :: t)
  | carriageReturn {s t : List Char} (rest : Quotes q s t) :
      Quotes q ('\r' :: s) ('\\' :: 'r' :: t)

theorem exists_quotes (q : Char) (s : List Char) : ∃ t, Quotes q s t := by
  induction s with
  | nil => exact ⟨[], .nil⟩
  | cons c s ih =>
      obtain ⟨t, rest⟩ := ih
      by_cases mark : c = q ∨ c = '\\'
      · exact ⟨'\\' :: c :: t, .marked mark rest⟩
      · exact ⟨c :: t, .plain (fun h => mark (.inl h)) (fun h => mark (.inr h)) rest⟩

theorem Quotes.enclosed (quotes : Quotes q s t) : Enclosed q t := by
  induction quotes with
  | nil => exact .nil
  | plain bare slash _ ih => exact .plain bare slash ih
  | marked _ _ ih => exact .escaped ih
  | lineFeed _ ih => exact .escaped ih
  | tab _ ih => exact .escaped ih
  | carriageReturn _ ih => exact .escaped ih

/-- Behind a backslash a string goes on with the character that the next one stands for. -/
theorem lex_escaped (start : Nat) (q : Char) (text : List Char) (offset : Nat) (c : Char)
    (cs : List Char) : lex (.string start q text false) offset ('\\' :: c :: cs) =
      lex (.string start q (escapedChar c :: text) false)
        (offset + '\\'.utf8Size + c.utf8Size) cs := by
  have first : (LexState.string start q text false).step offset '\\' =
      .ok (.string start q text true, []) := rfl
  rw [lex_silent first, lex_silent rfl]

/-- **A literal is read back** as the text that is written in it. -/
theorem lex_quotes (quote : IsQuote q) (quotes : Quotes q s t) (start : Nat) (text : List Char)
    (offset : Nat) : lex (.string start q text false) offset (t ++ [q]) =
      .ok [⟨.literal (.str (String.ofList (text.reverse ++ s))), start⟩] := by
  have slash : q ≠ '\\' := fun same => slash_bare (same ▸ quote)
  induction quotes generalizing text offset with
  | nil => simp [lex, LexState.step, LexState.finish, slash, Except.map]
  | @plain c s t bare slash' _ ih =>
      have goes : (LexState.string start q text false).step offset c =
          .ok (.string start q (c :: text) false, []) := by
        simp [LexState.step, slash', bare]
      rw [List.cons_append, lex_silent goes, ih]
      simp
  | @marked c s t mark _ ih =>
      have itself : escapedChar c = c := by
        obtain (rfl | rfl) | rfl := mark.imp_left (· ▸ quote : c = q → IsQuote c) <;> decide
      rw [List.cons_append, List.cons_append, lex_escaped, ih, itself]
      simp
  | lineFeed _ ih =>
      rw [List.cons_append, List.cons_append, lex_escaped, ih]
      simp [escapedChar]
  | tab _ ih =>
      rw [List.cons_append, List.cons_append, lex_escaped, ih]
      simp [escapedChar]
  | carriageReturn _ ih =>
      rw [List.cons_append, List.cons_append, lex_escaped, ih]
      simp [escapedChar]

theorem evaluate_quotes (quote : IsQuote q) (quotes : Quotes q s t) (m : Value) :
    evaluate (String.ofList (q :: (t ++ [q]))) m = .ok (.str (String.ofList s)) := by
  have opened : LexState.between.step 0 q = .ok (.string 0 q [] false, []) := by
    obtain rfl | rfl := quote <;> rfl
  have lexed : tokens 0 (String.ofList (q :: (t ++ [q]))).toList =
      .ok [⟨.literal (.str (String.ofList s)), 0⟩] := by
    rw [String.toList_ofList, tokens, lex_silent opened, lex_quotes quote quotes]
    rfl
  rw [evaluate_written lexed m (p := ⟨.literal (.str (String.ofList s)), []⟩) rfl]
  rfl

/-- **Every text can be written in a template**: between quotes of either kind, with a backslash
before every backslash and every quote of that kind, and with line feeds, tabs and carriage returns
as they are or as letters behind a backslash.  The literal is worth the text, and a tag with it
stands in a template for the text, whatever marks are in it. -/
theorem every_text_has_a_literal {q : Char} (quote : IsQuote q) (s : String) :
    (∃ t : String, Quotes q s.toList t.toList) ∧
    ∀ t : String, Quotes q s.toList t.toList → ∀ m : Value,
      let literal := String.singleton q ++ t ++ String.singleton q
      evaluate literal m = .ok (.str s) ∧
      ∀ u w : String, hasTag u.toList = false → u.toList.getLast? ≠ some '{' →
        hasTag w.toList = false →
        render (u ++ "\x7b\x7b " ++ literal ++ " \x7d\x7d" ++ w) m = .ok (u ++ s ++ w) := by
  refine ⟨?_, fun t quotes m => ?_⟩
  · obtain ⟨t, quotes⟩ := exists_quotes q s.toList
    exact ⟨String.ofList t, by rwa [String.toList_ofList]⟩
  intro literal
  have text : literal = String.ofList (q :: (t.toList ++ [q])) := by
    rw [← String.toList_inj]
    simp [literal]
  have worth := evaluate_quotes quote quotes m
  rw [String.ofList_toList] at worth
  refine ⟨text ▸ worth, fun u w plain apart plain' => ?_⟩
  have blank : Sealed [' '] := .plain (by unfold IsQuote; decide) (by decide) .nil
  have sealed_ : Sealed (' ' :: (q :: (t.toList ++ [q]) ++ [' '])) :=
    blank.append ((Sealed.quoted quote quotes.enclosed .nil).append blank)
  have rendered := renderChars_tag plain apart plain' sealed_ (evaluate_pad worth)
  rw [render_eq_ok_iff, text]
  simpa [Value.displayChars] using rendered

/-- A text with every kind of mark in it, in apostrophes. -/
theorem every_text_has_a_literal_in_apostrophes :
    let s := "it's \\ \"\x7d\x7d \x7b\x7b\"\n\té"
    let t := "it\\'s \\\\ \"\x7d\x7d \x7b\x7b\"\\n\té"
    IsQuote '\x27' ∧ Quotes '\x27' s.toList t.toList ∧
      hasTag "é\x7d".toList = false ∧ "é\x7d".toList.getLast? ≠ some '{' ∧
      hasTag "\x7b".toList = false ∧
      render ("é\x7d" ++ "\x7b\x7b " ++ (String.singleton '\x27' ++ t ++ String.singleton '\x27') ++
        " \x7d\x7d" ++ "\x7b") .null = .ok ("é\x7d" ++ s ++ "\x7b") := by
  intro s t
  have quote : IsQuote '\x27' := .inr rfl
  have quotes : Quotes '\x27' s.toList t.toList := by
    simp only [s, t]
    repeat first
      | exact .nil
      | refine .plain (by decide) (by decide) ?_
      | refine .marked (by decide) ?_
      | refine .lineFeed ?_
  have plain : hasTag "é\x7d".toList = false := rfl
  have apart : "é\x7d".toList.getLast? ≠ some '{' := by decide
  have plain' : hasTag "\x7b".toList = false := rfl
  exact ⟨quote, quotes, plain, apart, plain',
    ((every_text_has_a_literal quote s).2 t quotes .null).2 _ _ plain apart plain'⟩

end Flowgraph.Template
