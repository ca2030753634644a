/- # Flowgraph.Proofs.Json.Identifiers -- the texts of identifiers

An identifier is read back from its text (`Uuid.parse?_toText`), so no two identifiers have
the same text.  The text has no blanks and none of the marks of a path in it.
-/
import Mathlib.Algebra.GroupWithZero.Nat
import Flowgraph.Proofs.Json.Nesting
import Flowgraph.Text.Blank
import Flowgraph.Uuid

set_option autoImplicit false

namespace Flowgraph

namespace Uuid

theorem length_hexDigits (count n : Nat) : (hexDigits count n).length = count := by
  induction count generalizing n with
  | zero => rfl
  | succ count ih => simp [hexDigits, ih]

/-! ## Reading back -/

theorem hexNumber?_append (n : Nat) (cs ds : List Char) :
    hexNumber? n (cs ++ ds) = (hexNumber? n cs).bind fun m => hexNumber? m ds := by
  induction cs generalizing n with
  | nil => rfl
  | cons c cs ih =>
      rw [List.cons_append, hexNumber?, hexNumber?]
      cases Json.hexValue? c with
      | none => rfl
      | some d => exact ih (16 * n + d)

/-- Digits are read as what they were taken from, as far as they go. -/
theorem hexNumber?_hexDigits (count n : Nat) :
    hexNumber? 0 (hexDigits count n) = some (n % 16 ^ count) := by
  induction count generalizing n with
  | zero => simp [hexDigits, hexNumber?, Nat.mod_one]
  | succ count ih =>
      have digits : 16 * (n / 16 % 16 ^ count) + n % 16 = n % 16 ^ (count + 1) := by
        rw [Nat.pow_succ, Nat.mul_comm (16 ^ count), Nat.mod_mul]
        omega
      rw [hexDigits, hexNumber?_append, ih, Option.bind_some, hexNumber?,
        Json.hexValue?_hexDigit]
      exact congrArg some digits

/-- Groups are put together again when the hyphens are taken out. -/
theorem ungrouped?_grouped {sizes : List Nat} {cs : List Char} (whole : cs.length = sizes.sum) :
    ungrouped? sizes (grouped sizes cs) = some cs := by
  induction sizes generalizing cs with
  | nil =>
      rw [List.eq_nil_of_length_eq_zero whole]
      rfl
  | cons n sizes ih =>
      rw [List.sum_cons] at whole
      cases sizes with
      | nil =>
          have all : cs.take n = cs := List.take_of_length_le (by simp [whole])
          simp only [grouped, ungrouped?, all]
          exact if_pos (by simpa using whole)
      | cons n' sizes =>
          have start : (cs.take n).length = n := by
            rw [List.length_take]
            omega
          have later : ungrouped? (n' :: sizes) (grouped (n' :: sizes) (cs.drop n)) =
              some (cs.drop n) := ih (by rw [List.length_drop]; omega)
          have rest : (cs.take n ++ '-' :: grouped (n' :: sizes) (cs.drop n)).drop n =
              '-' :: grouped (n' :: sizes) (cs.drop n) := List.drop_left' start
          have first : (cs.take n ++ '-' :: grouped (n' :: sizes) (cs.drop n)).take n =
              cs.take n := List.take_left' start
          simp only [grouped, ungrouped?, rest, first, later, Option.map_some]
          exact congrArg some (List.take_append_drop n cs)

theorem mem_hexDigits {c : Char} {count n : Nat} (member : c ∈ hexDigits count n) :
    ∃ k < 16, c = Nat.digitChar k := by
  induction count generalizing n with
  | zero => cases member
  | succ count ih =>
      obtain high | low := List.mem_append.1 member
      · exact ih high
      · exact ⟨n % 16, Nat.mod_lt _ (by decide), List.mem_singleton.1 low⟩

theorem mem_grouped {c : Char} {sizes : List Nat} {cs : List Char} (member : c ∈ grouped sizes cs) :
    c = '-' ∨ c ∈ cs := by
  induction sizes generalizing cs with
  | nil => cases member
  | cons n sizes ih =>
      cases sizes with
      | nil => exact .inr (List.mem_of_mem_take member)
      | cons n' sizes =>
          obtain start | hyphen | rest := by
            simpa only [grouped, List.mem_append, List.mem_cons] using member
          · exact .inr (List.mem_of_mem_take start)
          · exact .inl hyphen
          · exact (ih rest).imp_right List.mem_of_mem_drop

/-- The written form is none of the others: it has hyphens, and no brace or prefix in front. -/
theorem ofChars?_toChars (u : Uuid) : ofChars? u.toChars = ofHyphenated? u.toChars := by
  have plain : ∀ c ∈ u.toChars, c ≠ '\x7b' ∧ c ≠ 'u' := by
    have digits : ∀ k : Fin 16, Nat.digitChar k ≠ '\x7b' ∧ Nat.digitChar k ≠ 'u' := by decide
    intro c member
    obtain rfl | digit := mem_grouped member
    · decide
    · obtain ⟨k, small, rfl⟩ := mem_hexDigits digit
      exact digits ⟨k, small⟩
  -- the four hyphens tell it from a run of 32 digits
  have long : u.toChars.length ≠ 32 := by
    simp [toChars, groups, grouped, length_hexDigits]
  unfold ofChars?
  split
  · rename_i rest chars
    exact absurd rfl (plain '\x7b' (chars ▸ List.mem_cons_self)).1
  · rename_i rest chars
    exact absurd rfl (plain 'u' (chars ▸ List.mem_cons_self)).2
  · rw [if_neg long]

theorem toList_toText (u : Uuid) : u.toText.toList = u.toChars := by simp [toText]

/-- **An identifier is read back from its text.** -/
theorem parse?_toText (u : Uuid) : parse? u.toText = some u := by
  have digits : (hexDigits 32 u.word.toNat).length = groups.sum := length_hexDigits _ _
  have word : u.word.toNat % 16 ^ 32 = u.word.toNat := Nat.mod_eq_of_lt u.word.isLt
  rw [parse?, toList_toText, ofChars?_toChars, ofHyphenated?, toChars, ungrouped?_grouped digits,
    Option.bind_some, ofDigits?, if_pos (length_hexDigits _ _), hexNumber?_hexDigits, word,
    Option.map_some, BitVec.ofNat_toNat, BitVec.setWidth_eq]

theorem toText_injective {u v : Uuid} (same : u.toText = v.toText) : u = v := by
  have read : some u = some v := by rw [← parse?_toText u, ← parse?_toText v, same]
  exact Option.some.inj read

/-! ## What stands in the text -/

/-- An identifier is written without blanks, and without the marks that mean something in a path. -/
theorem plain_of_mem {u : Uuid} {c : Char} (member : c ∈ u.toChars) :
    Text.isBlank c = false ∧ c ≠ '.' ∧ c ≠ '[' ∧ c ≠ ']' ∧ c ≠ '\x22' ∧ c ≠ '\x27' := by
  have digits : ∀ k : Fin 16, Text.isBlank (Nat.digitChar k) = false ∧ Nat.digitChar k ≠ '.' ∧
      Nat.digitChar k ≠ '[' ∧ Nat.digitChar k ≠ ']' ∧ Nat.digitChar k ≠ '\x22' ∧
      Nat.digitChar k ≠ '\x27' := by decide
  obtain rfl | digit := mem_grouped member
  · decide
  · obtain ⟨k, small, rfl⟩ := mem_hexDigits digit
    exact digits ⟨k, small⟩

theorem hyphen_mem (u : Uuid) : '-' ∈ u.toChars := by
  simp [toChars, groups, grouped]

end Uuid
end Flowgraph
