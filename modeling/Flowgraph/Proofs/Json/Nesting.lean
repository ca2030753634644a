/- # Flowgraph.Proofs.Json.Nesting -- a text says the same wherever it stands

A reading that takes place inside some containers more goes on as it would on its own
(`Reading.feed_inside`).  So a text says the same wherever a value may stand, as long as no
number runs on behind it (`Reading.feed_text`).

A string is read back from its quoted form, as a value (`readTree_quoted`) or as a key.
-/
import Mathlib.Tactic.SplitIfs
import Flowgraph.Json.Form
import Flowgraph.Json.Reader

set_option autoImplicit false

namespace Flowgraph.Json

/-- Whether no number goes on with a character. -/
def endsNumber (c : Char) : Bool := !isDigit c && c != '.' && c != 'e' && c != 'E'

namespace Reading

variable {r r' : Reading} {cs rest : List Char} {c : Char} {t : Tree} {stack below : List Frame}

theorem feed_cons (r : Reading) (c : Char) (cs : List Char) :
    r.feed (c :: cs) = (r.step c).bind (·.feed cs) :=
  rfl

theorem feed_append (r : Reading) (cs rest : List Char) :
    r.feed (cs ++ rest) = (r.feed cs).bind (·.feed rest) :=
  List.foldlM_append

/-! ## Readings inside containers -/

/-- A reading that takes place inside some containers more. -/
def inside (below : List Frame) : Reading → Reading
  | ⟨_, .done t⟩ => deliver t below
  | ⟨stack, mode⟩ => ⟨stack ++ below, mode⟩

theorem inside_deliver (t : Tree) (stack : List Frame) :
    inside below (deliver t stack) = deliver t (stack ++ below) := by
  cases stack with
  | nil => rfl
  | cons frame stack => cases frame <;> rfl

/-- After a complete value only blanks, commas and ends of containers may follow. -/
theorem step_deliver (t : Tree) (below : List Frame) (c : Char) :
    (deliver t below).step c = (deliver t below).follow c := by
  cases below with
  | nil => rfl
  | cons frame below => cases frame <;> rfl

theorem openValue_inside (opened : openValue stack c = some r) :
    openValue (stack ++ below) c = some (inside below r) := by
  unfold openValue at opened ⊢
  split_ifs at opened ⊢ <;> cases opened <;> rfl

theorem closeValue_inside (closed : closeValue stack c = some r) :
    closeValue (stack ++ below) c = some (inside below r) := by
  cases stack with
  | nil =>
      simp only [closeValue] at closed
      split_ifs at closed with blank
      cases closed
      simp [closeValue, blank, inside]
  | cons frame stack =>
      cases frame with
      | arr done | obj done key =>
          simp only [List.cons_append, closeValue] at closed ⊢
          split_ifs at closed ⊢
          · cases closed
            rfl
          · cases closed
            rfl
          · cases closed
            rw [inside_deliver]

theorem endString_inside {isKey : Bool} {codes : List Nat}
    (ended : endString stack isKey codes = some r) :
    endString (stack ++ below) isKey codes = some (inside below r) := by
  cases isKey with
  | false =>
      simp only [endString, Bool.false_eq_true, if_false] at ended ⊢
      cases ended
      rw [inside_deliver]
  | true =>
      simp only [endString, if_true] at ended ⊢
      cases stack with
      | nil => cases ended
      | cons frame stack =>
          cases frame with
          | arr done => cases ended
          | obj done key =>
              cases ended
              rfl

theorem stepString_inside {isKey : Bool} {codes : List Nat} {e : Escape}
    (stepped : stepString stack isKey codes e c = some r) :
    stepString (stack ++ below) isKey codes e c = some (inside below r) := by
  cases e with
  | plain =>
      simp only [stepString] at stepped ⊢
      split_ifs at stepped ⊢
      · exact endString_inside stepped
      · cases stepped
        rfl
      · cases stepped
        rfl
  | slash =>
      simp only [stepString] at stepped ⊢
      split_ifs at stepped ⊢
      · cases stepped
        rfl
      · obtain ⟨d, there, rfl⟩ := Option.map_eq_some_iff.1 stepped
        rw [there]
        rfl
  | hex left value =>
      simp only [stepString] at stepped ⊢
      obtain ⟨d, there, rfl⟩ := Option.map_eq_some_iff.1 stepped
      rw [there, Option.map_some]
      split_ifs <;> rfl

theorem endNumber_inside {n : Numeral} {part : NumeralPart}
    (ended : endNumber stack n part = some r) :
    endNumber (stack ++ below) n part = some (inside below r) := by
  cases part with
  | zero | whole | fraction | power =>
      cases ended
      rw [endNumber, inside_deliver]
  | _ => cases ended

theorem follow_inside (followed : r.follow c = some r') :
    (inside below r).follow c = some (inside below r') := by
  obtain ⟨stack, mode⟩ := r
  cases mode with
  | after => exact closeValue_inside followed
  | done t =>
      simp only [follow] at followed
      split_ifs at followed with blank
      cases followed
      cases below with
      | nil => simp [inside, deliver, follow, blank]
      | cons frame below => cases frame <;> simp [inside, deliver, follow, closeValue, blank]
  | _ => cases followed

theorem step_inside (stepped : r.step c = some r') :
    (inside below r).step c = some (inside below r') := by
  obtain ⟨stack, mode⟩ := r
  cases mode with
  | value =>
      simp only [step, inside] at stepped ⊢
      split_ifs at stepped ⊢
      · cases stepped
        rfl
      · exact openValue_inside stepped
  | first =>
      simp only [step, inside] at stepped ⊢
      split_ifs at stepped ⊢
      · cases stepped
        rfl
      · exact closeValue_inside stepped
      · exact openValue_inside stepped
  | firstKey =>
      simp only [step, inside] at stepped ⊢
      split_ifs at stepped ⊢
      · cases stepped
        rfl
      · cases stepped
        rfl
      · exact closeValue_inside stepped
  | key | colon =>
      simp only [step, inside] at stepped ⊢
      split_ifs at stepped ⊢
      · cases stepped
        rfl
      · cases stepped
        rfl
  | after => exact closeValue_inside stepped
  | done t =>
      have followed : (inside below ⟨stack, .done t⟩).follow c = some (inside below r') :=
        follow_inside stepped
      exact (step_deliver t below c).trans followed
  | string isKey codes e => exact stepString_inside stepped
  | number n part =>
      simp only [step, inside] at stepped ⊢
      cases extended : extendNumber n part c with
      | some next =>
          simp only [extended] at stepped ⊢
          cases stepped
          rfl
      | none =>
          simp only [extended] at stepped ⊢
          obtain ⟨r₁, ended, followed⟩ := Option.bind_eq_some_iff.1 stepped
          rw [endNumber_inside ended]
          exact follow_inside followed
  | word rest t =>
      cases rest with
      | nil => cases stepped
      | cons d more =>
          cases more with
          | nil =>
              show step ⟨stack ++ below, .word [d] t⟩ c = _
              simp only [step] at stepped ⊢
              split_ifs at stepped ⊢
              cases stepped
              rw [inside_deliver]
          | cons d' more =>
              show step ⟨stack ++ below, .word (d :: d' :: more) t⟩ c = _
              simp only [step] at stepped ⊢
              split_ifs at stepped ⊢
              cases stepped
              rfl

theorem feed_inside (fed : r.feed cs = some r') :
    (inside below r).feed cs = some (inside below r') := by
  induction cs generalizing r with
  | nil =>
      cases fed
      rfl
  | cons c cs ih =>
      rw [feed_cons] at fed ⊢
      obtain ⟨r₁, stepped, fed⟩ := Option.bind_eq_some_iff.1 fed
      rw [step_inside stepped]
      exact ih fed

/-! ## Texts inside containers -/

/-- A number that ends the whole text may end wherever a value may stand. -/
theorem endNumber_done {n : Numeral} {part : NumeralPart} {above : List Frame}
    (ended : endNumber stack n part = some ⟨above, .done t⟩) :
    stack = [] ∧ ∀ below, endNumber below n part = some (deliver t below) := by
  cases part with
  | zero | whole | fraction | power =>
      cases stack with
      | nil =>
          cases ended
          exact ⟨rfl, fun _ => rfl⟩
      | cons frame stack => cases frame <;> cases ended
  | _ => cases ended

theorem extendNumber_eq_none {n : Numeral} {part : NumeralPart} (ends : endsNumber c = true)
    (mayEnd : endNumber stack n part = some r) : extendNumber n part c = none := by
  simp only [endsNumber, Bool.and_eq_true, Bool.not_eq_true', bne_iff_ne, ne_eq] at ends
  obtain ⟨⟨⟨digit, point⟩, small⟩, large⟩ := ends
  cases part with
  | zero | whole | fraction | power => simp [extendNumber, digit, point, small, large]
  | _ => cases mayEnd

/-- **A text says the same wherever a value may stand**, if no number runs on behind it. -/
theorem feed_text (reads : readTree cs = some t) (ends : endsNumber c = true) (below : List Frame)
    (rest : List Char) :
    (⟨below, .value⟩ : Reading).feed (cs ++ c :: rest) = (deliver t below).feed (c :: rest) := by
  obtain ⟨⟨stack, mode⟩, fed, finished⟩ := Option.bind_eq_some_iff.1 reads
  have fed : (⟨below, .value⟩ : Reading).feed cs = some (inside below ⟨stack, mode⟩) :=
    feed_inside fed
  rw [feed_append, fed, Option.bind_some]
  cases mode with
  | done t' =>
      cases finished
      rfl
  | number n part =>
      simp only [finish] at finished
      split at finished
      · rename_i above t' ended
        cases finished
        obtain ⟨rfl, anywhere⟩ := endNumber_done ended
        rw [feed_cons, feed_cons, step_deliver]
        simp only [inside, List.nil_append, step, extendNumber_eq_none ends ended, anywhere,
          Option.bind_some]
      · cases finished
  | _ => cases finished

end Reading

/-! ## Strings -/

theorem hexValue?_hexDigit (n : Nat) : hexValue? (hexDigit n) = some (n % 16) := by
  have all : ∀ d < 16, hexValue? (Nat.digitChar d) = some d := by decide
  exact all _ (Nat.mod_lt n (by decide))

theorem joinSurrogates_toNat (cs : List Char) : joinSurrogates (cs.map Char.toNat) = some cs := by
  induction cs with
  | nil => rfl
  | cons c cs ih =>
      have valid : c.toNat < 0xD800 ∨ 0xDFFF < c.toNat ∧ c.toNat < 0x110000 := c.valid
      rw [List.map_cons, joinSurrogates.eq_def]
      simp only
      rw [if_neg (by omega), if_neg (by omega), ih, Char.ofNat_toNat]
      rfl

namespace Reading

variable {cs rest : List Char} {c : Char} {t : Tree} {stack below : List Frame}

/-- A character that is escaped is read as what it was. -/
theorem feed_escape (stack : List Frame) (isKey : Bool) (codes : List Nat) (c : Char)
    (rest : List Char) :
    (⟨stack, .string isKey codes .plain⟩ : Reading).feed (escape c ++ rest) =
      (⟨stack, .string isKey (c.toNat :: codes) .plain⟩ : Reading).feed rest := by
  unfold escape
  split_ifs with quote slash backspace formFeed line return_ tab control
  · subst quote
    rfl
  · subst slash
    rfl
  · subst backspace
    rfl
  · subst formFeed
    rfl
  · subst line
    rfl
  · subst return_
    rfl
  · subst tab
    rfl
  · have zero : hexValue? '0' = some 0 := by decide
    have code : 16 * (c.toNat / 16 % 16) + c.toNat % 16 = c.toNat := by omega
    simp [feed_cons, step, stepString, zero, hexValue?_hexDigit, code]
  · simp [feed_cons, step, stepString, quote, slash, control]

theorem feed_escaped (stack : List Frame) (isKey : Bool) (codes : List Nat) (cs rest : List Char) :
    (⟨stack, .string isKey codes .plain⟩ : Reading).feed (cs.flatMap escape ++ rest) =
      (⟨stack, .string isKey ((cs.map Char.toNat).reverse ++ codes) .plain⟩ : Reading).feed rest := by
  induction cs generalizing codes with
  | nil => rfl
  | cons c cs ih =>
      rw [List.flatMap_cons, List.append_assoc, feed_escape, ih]
      simp

/-- A quoted string is read back when its first quote has been read. -/
theorem feed_quoted (stack : List Frame) (isKey : Bool) (s : String) (rest : List Char) :
    (⟨stack, .string isKey [] .plain⟩ : Reading).feed (s.toList.flatMap escape ++ '\x22' :: rest) =
      (endString stack isKey (s.toList.map Char.toNat).reverse).bind (·.feed rest) := by
  rw [feed_escaped, List.append_nil, feed_cons]
  rfl

theorem endString_text (stack : List Frame) (s : String) :
    endString stack false (s.toList.map Char.toNat).reverse =
      some (deliver (.str (some s)) stack) := by
  simp [endString, joinSurrogates_toNat]

theorem endString_key (done : List (Text × Tree)) (key : Text) (s : String) :
    endString (.obj done key :: below) true (s.toList.map Char.toNat).reverse =
      some ⟨.obj done (some s) :: below, .colon⟩ := by
  simp [endString, joinSurrogates_toNat]

end Reading

theorem readTree_quoted (s : String) : readTree (quoted s) = some (.str (some s)) := by
  have text : quoted s = '\x22' :: (s.toList.flatMap escape ++ ['\x22']) := rfl
  have opened : Reading.start.step '\x22' = some ⟨[], .string false [] .plain⟩ := rfl
  rw [readTree, text, Reading.feed_cons, opened, Option.bind_some, Reading.feed_quoted,
    Reading.endString_text]
  rfl

end Flowgraph.Json
