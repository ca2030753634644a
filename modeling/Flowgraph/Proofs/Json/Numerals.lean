/- # Flowgraph.Proofs.Json.Numerals -- integers are read back

The digits of an integer begin with `0` only if it is zero, so they are a numeral
(`Number.readTree_digits`), and a numeral of no more than digits is the integer that they
name.  Hence every integer of a word is read back from its text (`Number.readTree_intText`).
-/
import Mathlib.Tactic.IntervalCases
import Flowgraph.Proofs.Json.Nesting

set_option autoImplicit false

namespace Flowgraph

open Json

namespace Number

/-! ## Digits -/

theorem isDigit_digitChar {d : Nat} (small : d < 10) : isDigit (Nat.digitChar d) = true := by
  interval_cases d <;> rfl

/-- The digits of a positive number do not begin with zero. -/
theorem toDigits_first {n : Nat} (positive : 0 < n) : ∃ d cs,
    Nat.toDigits 10 n = Nat.digitChar d :: cs ∧ 0 < d ∧ d < 10 ∧ cs.all isDigit = true := by
  induction n using Nat.strongRecOn with
  | _ n ih =>
      by_cases small : n < 10
      · exact ⟨n, [], Nat.toDigits_of_lt_base small, positive, small, rfl⟩
      · obtain ⟨d, cs, digits, nonzero, below, later⟩ := ih (n / 10) (by omega) (by omega)
        refine ⟨d, cs ++ [Nat.digitChar (n % 10)], ?_, nonzero, below, ?_⟩
        · rw [Nat.toDigits_of_base_le (by decide) (by omega), digits, List.cons_append]
        · rw [List.all_append, later, List.all_cons, isDigit_digitChar (by omega)]
          rfl

theorem digitsValue_toDigits (n : Nat) : digitsValue (Nat.toDigits 10 n) = n :=
  Nat.ofDigitChars_ten_toDigits

/-! ## Numerals -/

/-- Digits go on with a numeral that has some. -/
theorem feed_whole {cs : List Char} (digits : cs.all isDigit = true) (stack : List Frame)
    (negative : Bool) (whole : List Char) :
    (⟨stack, .number ⟨negative, whole, [], none⟩ .whole⟩ : Reading).feed cs =
      some ⟨stack, .number ⟨negative, cs.reverse ++ whole, [], none⟩ .whole⟩ := by
  induction cs generalizing whole with
  | nil => rfl
  | cons c cs ih =>
      rw [List.all_cons, Bool.and_eq_true] at digits
      have stepped : (⟨stack, .number ⟨negative, whole, [], none⟩ .whole⟩ : Reading).step c =
          some ⟨stack, .number ⟨negative, c :: whole, [], none⟩ .whole⟩ := by
        simp [Reading.step, Reading.extendNumber, digits.1]
      rw [Reading.feed_cons, stepped, Option.bind_some, ih digits.2]
      simp

/-- The digits of a positive number, with a minus or without, are a numeral. -/
theorem readTree_digits {n : Nat} (positive : 0 < n) (negative : Bool) :
    readTree ((if negative then ['-'] else []) ++ Nat.toDigits 10 n) =
      some (.num (⟨negative, Nat.toDigits 10 n, [], none⟩ : Numeral).value?) := by
  obtain ⟨d, cs, digits, nonzero, below, later⟩ := toDigits_first positive
  have opened : Reading.start.feed ((if negative then ['-'] else []) ++ [Nat.digitChar d]) =
      some ⟨[], .number ⟨negative, [Nat.digitChar d], [], none⟩ .whole⟩ := by
    cases negative <;> interval_cases d <;> rfl
  -- the first digit opens the numeral, the others go on with it
  have split : (if negative then ['-'] else []) ++ Nat.digitChar d :: cs =
      (if negative then ['-'] else []) ++ [Nat.digitChar d] ++ cs := by simp
  rw [readTree, digits, split, Reading.feed_append, opened, Option.bind_some, feed_whole later]
  simp [Reading.finish, Reading.endNumber, Reading.deliver, Reading.numeral]

/-- A numeral of no more than digits is the integer they name, if a word holds it. -/
theorem value?_digits {n : Int} (bounds : WordRange n) (nonzero : n ≠ 0) :
    (⟨decide (n < 0), Nat.toDigits 10 n.natAbs, [], none⟩ : Numeral).value? =
      some (.int n bounds) := by
  have absolute : n.natAbs ≠ 0 := by omega
  have signed : (if n < 0 then -(n.natAbs : Int) else (n.natAbs : Int)) = n := by
    split <;> omega
  have known : ofInt? n = some (.int n bounds) := by simp [ofInt?, bounds]
  simp [Numeral.value?, digitsValue_toDigits, absolute, signed, known, -Nat.cast_natAbs]

/-- **An integer of a word is read back from its text.** -/
theorem readTree_intText {n : Int} (bounds : WordRange n) :
    readTree (intText n) = some (.num (some (.int n bounds))) := by
  by_cases zero : n = 0
  · subst zero
    rfl
  · have text : intText n = (if decide (n < 0) then ['-'] else []) ++ Nat.toDigits 10 n.natAbs := by
      rw [intText]
      by_cases below : n < 0 <;> simp [below]
    rw [text, readTree_digits (by omega), value?_digits bounds zero]

theorem readTree_toDigits {n : Nat} (bounds : WordRange n) :
    readTree (Nat.toDigits 10 n) = some (.num (some (.int n bounds))) := by
  have text : intText n = Nat.toDigits 10 n := by simp [intText]
  rw [← text, readTree_intText bounds]

end Number
end Flowgraph
