/- # Flowgraph.Proofs.Binding.Pieces -- where the scan for commas cuts

The scan goes over a JSON text without a cut, however the text is written, because it stands
where a reading of the text stands (`Json.Reading.scan`, `whole_of_readTree`).  So texts with
commas between them are cut at these commas (`splitItems_joined`), and any text is its pieces
with commas between them (`joined_splitItems`).  `Json.json_texts_are_cut_apart` says both of the
scan as a whole.

An array is read from such texts only if each of them is read (`forall₂_of_readTree_array`).
-/
import Flowgraph.Binding.Repair
import Flowgraph.Proofs.Json.Layout
import Flowgraph.Proofs.Json.Turns

set_option autoImplicit false

namespace Flowgraph.Binding

open Json

theorem commaJoin_eq (texts : List (List Char)) : commaJoin texts = joined texts := by
  induction texts with
  | nil => rfl
  | cons cs texts ih =>
      cases texts with
      | nil => exact List.intercalate_singleton
      | cons ds texts =>
          rw [commaJoin, List.intercalate_cons_cons, ← commaJoin, ih, joined, List.append_assoc]
          rfl

theorem sublist_joined {texts : List (List Char)} {cs : List Char} (member : cs ∈ texts) :
    cs.Sublist (joined texts) := by
  induction texts with
  | nil => cases member
  | cons ds texts ih =>
      cases texts with
      | nil => rw [List.mem_singleton.1 member, joined]
      | cons es texts =>
          rw [joined]
          obtain rfl | later := List.mem_cons.1 member
          · exact List.sublist_append_left _ _
          · exact (ih later).trans
              ((List.sublist_cons_self _ _).trans (List.sublist_append_right _ _))

namespace ItemScan

/-! ## Going over a text -/

/-- The scan neither cuts at a character nor leaves the brackets it started in. -/
def Holds (s : ItemScan) (c : Char) : Prop := s.inString = true ∨ 0 < s.depth ∨ c ≠ ',' ∧ ¬Closes c

/-- The scan goes from one state to another over a text that it leaves in one piece. -/
inductive Over : ItemScan → List Char → ItemScan → Prop
  | nil {s : ItemScan} : Over s [] s
  | cons {s s' : ItemScan} {c : Char} {cs : List Char} (holds : s.Holds c)
      (later : Over (s.next c) cs s') : Over s (c :: cs) s'

/-- The scan with some brackets open around it. -/
def deeper (k : Nat) (s : ItemScan) : ItemScan := { s with depth := s.depth + k }

variable {s s' s'' : ItemScan} {c : Char} {cs ds : List Char}

theorem cuts_eq_false (holds : s.Holds c) : s.cuts c = false := by
  obtain inside | deep | ⟨other, -⟩ := holds
  · simp [cuts, inside]
  · simp [cuts, Nat.pos_iff_ne_zero.1 deep]
  · simp [cuts, other]

theorem holds_deeper (holds : s.Holds c) (k : Nat) : (s.deeper k).Holds c := by
  obtain inside | deep | other := holds
  · exact .inl inside
  · exact .inr (.inl (Nat.add_pos_left deep k))
  · exact .inr (.inr other)

theorem next_deeper (holds : s.Holds c) (k : Nat) : (s.deeper k).next c = (s.next c).deeper k := by
  have same : (s.deeper k).inString = s.inString ∧ (s.deeper k).escaped = s.escaped := ⟨rfl, rfl⟩
  simp only [next, same]
  split_ifs with inside _ _ _ _ _ ends
  · rfl
  · rfl
  · rfl
  · rfl
  · rfl
  · exact congrArg (fun n => (⟨n, s.inString, s.escaped⟩ : ItemScan)) (Nat.add_right_comm _ _ _)
  · obtain inside' | deep | ⟨-, other⟩ := holds
    · exact absurd inside' inside
    · exact congrArg (fun n => (⟨n, s.inString, s.escaped⟩ : ItemScan)) (Nat.sub_add_comm deep)
    · exact absurd ends other
  · rfl

/-- Outside strings only marks do something. -/
theorem next_unmarked (out : s.inString = false) (unmarked : ¬Mark c) : s.next c = s := by
  simp only [Mark, Opens, Closes, not_or] at unmarked
  simp [next, out, unmarked]

theorem next_opens (out : s.inString = false) (opener : Opens c) :
    s.next c = { s with depth := s.depth + 1 } := by
  obtain rfl | rfl := opener <;> simp [next, out]

theorem next_closes (out : s.inString = false) (closer : Closes c) :
    s.next c = { s with depth := s.depth - 1 } := by
  obtain rfl | rfl := closer <;> simp [next, out]

theorem holds_unmarked (unmarked : ¬Mark c) : s.Holds c := by
  simp only [Mark, not_or] at unmarked
  exact .inr (.inr ⟨unmarked.2.1, unmarked.2.2.2⟩)

namespace Over

theorem append (one : Over s cs s') (two : Over s' ds s'') : Over s (cs ++ ds) s'' := by
  induction one with
  | nil => exact two
  | cons holds _ ih => exact .cons holds (ih two)

theorem deeper (goes : Over s cs s') (k : Nat) : Over (s.deeper k) cs (s'.deeper k) := by
  induction goes with
  | nil => exact .nil
  | cons holds _ ih => exact .cons (holds_deeper holds k) (by rw [next_deeper holds]; exact ih)

theorem unique (one : Over s cs s') (two : Over s cs s'') : s' = s'' := by
  induction one with
  | nil =>
      cases two
      rfl
  | cons _ _ ih =>
      cases two with
      | cons _ later => exact ih later

theorem unmarked (unmarked : ∀ c ∈ cs, ¬Mark c) (out : s.inString = false) : Over s cs s := by
  induction cs with
  | nil => exact .nil
  | cons c cs ih =>
      have bare : ¬Mark c := unmarked c List.mem_cons_self
      refine .cons (holds_unmarked bare) ?_
      rw [next_unmarked out bare]
      exact ih fun d member => unmarked d (List.mem_cons_of_mem _ member)

theorem cut_append (goes : Over s cs s') (rest : List Char) :
    Text.cut next cuts s (cs ++ rest) = (Text.cut next cuts s' rest).modifyHead (cs ++ ·) := by
  induction goes with
  | nil =>
      rw [List.nil_append]
      cases Text.cut next cuts _ rest <;> rfl
  | @cons s s' c cs holds _ ih =>
      obtain ⟨p, ps, cut⟩ := List.exists_cons_of_ne_nil (Text.cut_ne_nil next cuts s' rest)
      rw [List.cons_append, Text.cut, cuts_eq_false holds, ih, cut]
      rfl

end Over

/-- A text that stays in one piece behind a comma. -/
def Whole (cs : List Char) : Prop := Over start cs start

theorem Whole.append (one : Whole cs) (two : Whole ds) : Whole (cs ++ ds) := Over.append one two

theorem whole_of_unmarked (unmarked : ∀ c ∈ cs, ¬Mark c) : Whole cs := Over.unmarked unmarked rfl

theorem Whole.cut_append (whole : Whole cs) (rest : List Char) :
    Text.cut next cuts start (cs ++ rest) = (splitItems rest).modifyHead (cs ++ ·) :=
  Over.cut_append whole rest

/-- Texts in brackets, which may be cut themselves, are in one piece. -/
theorem whole_brackets {texts : List (List Char)} (each : ∀ cs ∈ texts, Whole cs) :
    Whole ('[' :: joined texts ++ [']']) := by
  have opening : start.next '[' = start.deeper 1 := rfl
  have items : Over (start.deeper 1) (joined texts) (start.deeper 1) := by
    induction texts with
    | nil => exact .nil
    | cons cs texts ih =>
        have one : Over (start.deeper 1) cs (start.deeper 1) :=
          (each cs List.mem_cons_self).deeper 1
        cases texts with
        | nil => exact one
        | cons ds texts =>
            have later := ih fun cs member => each cs (List.mem_cons_of_mem _ member)
            exact one.append (.cons (.inr (.inl Nat.one_pos)) later)
  refine .cons (.inr (.inr (by decide))) ?_
  rw [opening]
  exact items.append (.cons (.inr (.inl Nat.one_pos)) .nil)

end ItemScan

open ItemScan (Whole)

/-! ## Pieces -/

/-- **Texts that stay in one piece are what their list is cut into.** -/
theorem splitItems_joined {texts : List (List Char)} (some : texts ≠ [])
    (each : ∀ cs ∈ texts, Whole cs) : splitItems (joined texts) = texts := by
  induction texts with
  | nil => exact absurd rfl some
  | cons cs texts ih =>
      have whole : Whole cs := each cs List.mem_cons_self
      cases texts with
      | nil =>
          have cut := whole.cut_append []
          rw [List.append_nil] at cut
          rw [joined, splitItems, cut]
          exact congrArg (fun last => [last]) (List.append_nil cs)
      | cons ds texts =>
          have comma : splitItems (',' :: joined (ds :: texts)) =
              [] :: splitItems (joined (ds :: texts)) := rfl
          rw [joined, splitItems, whole.cut_append, comma,
            ih (List.cons_ne_nil _ _) fun cs member => each cs (List.mem_cons_of_mem _ member)]
          exact congrArg (fun first => first :: ds :: texts) (List.append_nil cs)

theorem joined_extendFirst (c : Char) {texts : List (List Char)} (some : texts ≠ []) :
    joined (Text.extendFirst c texts) = c :: joined texts := by
  obtain ⟨cs, rest, rfl⟩ := List.exists_cons_of_ne_nil some
  cases rest <;> rfl

/-- **Any text is its pieces with commas between them.** -/
theorem joined_splitItems (cs : List Char) : joined (splitItems cs) = cs := by
  have from_any : ∀ s, joined (Text.cut ItemScan.next ItemScan.cuts s cs) = cs := by
    induction cs with
    | nil => exact fun _ => rfl
    | cons c cs ih =>
        intro s
        rw [Text.cut]
        have later := ih (s.next c)
        have some := Text.cut_ne_nil ItemScan.next ItemScan.cuts (s.next c) cs
        split
        · rename_i cut
          have comma : c = ',' := by
            simp only [ItemScan.cuts, Bool.and_eq_true, beq_iff_eq] at cut
            exact cut.1.2
          obtain ⟨p, ps, pieces⟩ := List.exists_cons_of_ne_nil some
          rw [pieces] at later ⊢
          rw [joined, List.nil_append, later, comma]
        · rw [joined_extendFirst c some, later]
  exact from_any .start

theorem sublist_of_mem_splitItems {p cs : List Char} (member : p ∈ splitItems cs) :
    p.Sublist cs := by
  have joint := sublist_joined member
  rwa [joined_splitItems] at joint

end Flowgraph.Binding

namespace Flowgraph.Json

open Binding

/-! ## The scan beside a reading -/

namespace Reading

variable {r r' : Reading} {c : Char} {cs : List Char} {t : Tree} {below : List Frame}

/-- Where the scan for commas stands when a reading has come to some place. -/
def scan : Reading → ItemScan
  | ⟨stack, .string _ _ e⟩ => ⟨stack.length, true, e.hides⟩
  | ⟨stack, _⟩ => ⟨stack.length, false, false⟩

theorem scan_string (stack : List Frame) (isKey : Bool) (codes : List Nat) (e : Escape) :
    scan ⟨stack, .string isKey codes e⟩ = ⟨stack.length, true, e.hides⟩ :=
  rfl

theorem scan_out {stack : List Frame} {m : Mode} (out : m.Out) :
    scan ⟨stack, m⟩ = ⟨stack.length, false, false⟩ := by
  cases m <;> first | rfl | cases out

@[simp] theorem scan_deliver (t : Tree) (stack : List Frame) :
    (deliver t stack).scan = ⟨stack.length, false, false⟩ := by
  cases stack with
  | nil => rfl
  | cons f below => cases f <;> rfl

/-- The scan takes every turn with the reading. -/
theorem Turn.scan_next (turn : Turn r c r') (placed : r.Placed) :
    r.scan.Holds c ∧ r.scan.next c = r'.scan := by
  induction turn with
  | @pass stack m m' c plain goes out =>
      have out' : m'.Out := by
        obtain rfl | ⟨anywhere, -, -⟩ := goes
        · exact out
        · exact anywhere.out
      rw [scan_out out, scan_out out']
      exact ⟨ItemScan.holds_unmarked plain, ItemScan.next_unmarked rfl plain⟩
  | spell =>
      have plain := placed.2 _ List.mem_cons_self
      exact ⟨ItemScan.holds_unmarked plain, ItemScan.next_unmarked rfl plain⟩
  | word =>
      have plain := placed.2 _ List.mem_cons_self
      rw [scan_deliver]
      exact ⟨ItemScan.holds_unmarked plain, ItemScan.next_unmarked rfl plain⟩
  | number _ ih =>
      have behind := ih (placed_deliver _ _)
      rw [scan_deliver] at behind
      exact behind
  | @quote stack m isKey awaits _ =>
      rw [scan_out awaits.out]
      exact ⟨.inr (.inr (by decide)), rfl⟩
  | @inside stack isKey codes codes' e e' c goes =>
      refine ⟨.inl rfl, ?_⟩
      rw [scan_string, scan_string]
      obtain ⟨hides, plain⟩ | ⟨plain, rfl, hides⟩ | ⟨plain, slash, quote, plain'⟩ := goes
      · simp [ItemScan.next, hides, plain]
      · simp [ItemScan.next, hides, plain]
      · simp [ItemScan.next, plain, slash, quote, plain']
  | text =>
      rw [scan_deliver]
      exact ⟨.inl rfl, rfl⟩
  | key => exact ⟨.inl rfl, rfl⟩
  | @opens stack f m m' c opener _ awaits first =>
      have other : c ≠ ',' ∧ ¬Closes c := by obtain rfl | rfl := opener <;> decide
      rw [scan_out awaits.out,
        scan_out (by obtain rfl | rfl := first <;> trivial)]
      exact ⟨.inr (.inr other), ItemScan.next_opens rfl opener⟩
  | @comma f below m next =>
      rw [scan_out (m := m) (by obtain rfl | rfl := next <;> trivial)]
      exact ⟨.inr (.inl (Nat.zero_lt_succ _)), rfl⟩
  | @closes f below m c closer ends =>
      rw [scan_out ends.out, scan_deliver]
      exact ⟨.inr (.inl (Nat.zero_lt_succ _)), ItemScan.next_closes rfl closer⟩

theorem over_of_feed (placed : r.Placed) (fed : r.feed cs = some r') :
    ItemScan.Over r.scan cs r'.scan := by
  induction cs generalizing r with
  | nil =>
      cases fed
      exact .nil
  | cons c cs ih =>
      rw [feed_cons] at fed
      obtain ⟨r₁, stepped, fed⟩ := Option.bind_eq_some_iff.1 fed
      have turn := step_turn stepped
      obtain ⟨holds, next⟩ := turn.scan_next placed
      refine .cons holds ?_
      rw [next]
      exact ih (turn.placed placed) fed

end Reading

/-- **A JSON text stays in one piece**, whatever stands in it. -/
theorem whole_of_readTree {cs : List Char} {t : Tree} (read : readTree cs = some t) :
    ItemScan.Whole cs := by
  obtain ⟨r, fed, finished⟩ := Option.bind_eq_some_iff.1 read
  have placed := Reading.placed_start
  have goes := Reading.over_of_feed placed fed
  obtain rfl | ⟨n, part, x, rfl, -⟩ :=
    Reading.finish_cases (Reading.feed_keeps Reading.Turn.placed placed fed) finished
  · exact goes
  · exact goes

/-- **The scan cuts at the commas between JSON texts.**  Any text is its pieces with commas between
them.  And texts with commas between them are cut into just these, if each of them is JSON, whatever
stands in its strings, however deep it is nested and however many blanks are around it. -/
theorem json_texts_are_cut_apart (cs : List Char) (texts : List (List Char)) :
    commaJoin (splitItems cs) = cs ∧
      (texts ≠ [] → (∀ ds ∈ texts, (readTree ds).isSome = true) →
        splitItems (commaJoin texts) = texts) := by
  rw [commaJoin_eq, commaJoin_eq]
  refine ⟨joined_splitItems cs, fun some json => splitItems_joined some fun ds member => ?_⟩
  obtain ⟨t, read⟩ := Option.isSome_iff_exists.1 (json ds member)
  exact whole_of_readTree read

/-- An object with a comma, brackets and an escaped quote in its strings, a string that ends in a
backslash, and an empty array among blanks. -/
theorem json_texts_are_cut_apart_mixed :
    let texts := ["\x7b\x22a,]\x22: [1, \x22\\\x22,\x22]\x7d".toList, "\x22é\\\\\x22".toList,
      "\n[ ]\t".toList]
    (texts ≠ [] ∧ ∀ ds ∈ texts, (readTree ds).isSome = true) ∧
      splitItems (commaJoin texts) = texts := by
  intro texts
  have some : texts ≠ [] := List.cons_ne_nil _ _
  have json : ∀ ds ∈ texts, (readTree ds).isSome = true := by decide +kernel
  exact ⟨⟨some, json⟩, (json_texts_are_cut_apart [] texts).2 some json⟩

/-! ## Arrays -/

namespace Reading

variable {r r' : Reading} {c : Char} {cs rest : List Char} {below : List Frame}

/-- A text in one piece is read no further inside containers than on its own. -/
theorem feed_stuck {s : ItemScan} (placed : r.Placed) (goes : ItemScan.Over r.scan cs s)
    (stuck : r.feed cs = none) : (inside below r).feed cs = none := by
  induction cs generalizing r with
  | nil => cases stuck
  | cons c cs ih =>
      rw [feed_cons] at stuck ⊢
      cases goes with
      | cons holds later =>
          cases stepped : r.step c with
          | none =>
              -- outside containers the character ends nothing, or the scan would have cut there
              have stays : r.stack = [] → r.mode.Out → c ≠ ',' ∧ ¬Closes c := by
                obtain ⟨stack, m⟩ := r
                rintro rfl out
                rw [scan_out out] at holds
                obtain inString | deep | other := holds
                · cases inString
                · cases deep
                · exact other
              rw [step_stuck placed stepped stays]
              rfl
          | some r₁ =>
              rw [stepped, Option.bind_some] at stuck
              rw [step_inside stepped, Option.bind_some]
              have turn := step_turn stepped
              rw [(turn.scan_next placed).2] at later
              exact ih (turn.placed placed) later stuck

/-- A value that ends in a container is a whole text on its own. -/
theorem finish_of_step (placed : r.Placed) (outside : r.scan = .start) (ends : c = ',' ∨ Closes c)
    (stepped : (inside below r).step c = some r') :
    ∃ t, r.finish = some t ∧ (deliver t below).step c = some r' := by
  obtain ⟨stack, m⟩ := r
  have mark : Mark c := by
    obtain comma | close := ends
    · exact .inr (.inl comma)
    · exact .inr (.inr (.inr close))
  have empty : stack = [] := by
    cases m <;> exact List.length_eq_zero_iff.1 (congrArg ItemScan.depth outside)
  subst empty
  cases m with
  | value => obtain rfl | rfl | rfl := ends <;> cases stepped
  | done t => exact ⟨t, rfl, stepped⟩
  | string isKey codes e => cases outside
  | number n part =>
      simp only [inside, step, extendNumber_mark mark] at stepped
      obtain ⟨-, never⟩ | ⟨x, anywhere⟩ := endNumber_cases [] n part
      · rw [never] at stepped
        cases stepped
      · rw [anywhere, Option.bind_some] at stepped
        refine ⟨.num x, ?_, (step_deliver _ _ _).trans stepped⟩
        simp only [finish, anywhere]
        rfl
  | word rest t =>
      cases rest with
      | nil => cases stepped
      | cons d more =>
          have other : c ≠ d := by
            rintro rfl
            exact placed.2 c List.mem_cons_self mark
          cases more <;> simp [inside, step, other] at stepped
  | _ => exact absurd rfl placed

theorem feed_piece (whole : ItemScan.Whole cs) (ends : c = ',' ∨ Closes c)
    (fed : (⟨below, .value⟩ : Reading).feed (cs ++ c :: rest) = some r') :
    ∃ t, readTree cs = some t ∧ (deliver t below).feed (c :: rest) = some r' := by
  have inner : (inside below start).feed (cs ++ c :: rest) = some r' := fed
  rw [feed_append] at inner
  cases alone : start.feed cs with
  | none =>
      rw [feed_stuck placed_start whole alone] at inner
      cases inner
  | some r =>
      rw [feed_inside alone, Option.bind_some, feed_cons] at inner
      obtain ⟨r₁, stepped, later⟩ := Option.bind_eq_some_iff.1 inner
      have outside : r.scan = .start := (over_of_feed placed_start alone).unique whole
      obtain ⟨t, finished, ended⟩ :=
        finish_of_step (feed_keeps Turn.placed placed_start alone) outside ends stepped
      refine ⟨t, ?_, ?_⟩
      · rw [readTree, alone]
        exact finished
      · rw [feed_cons, ended]
        exact later

theorem feed_pieces {texts : List (List Char)} (some : texts ≠ [])
    (each : ∀ cs ∈ texts, ItemScan.Whole cs) (done : List Tree)
    (fed : (⟨.arr done :: below, .value⟩ : Reading).feed (joined texts ++ [']']) = .some r') :
    ∃ ts, List.Forall₂ (fun cs t => readTree cs = .some t) texts ts ∧
      r' = deliver (.arr (done.reverse ++ ts)) below := by
  induction texts generalizing done with
  | nil => exact absurd rfl some
  | cons cs texts ih =>
      have whole := each cs List.mem_cons_self
      cases texts with
      | nil =>
          obtain ⟨t, read, close⟩ := feed_piece whole (.inr (.inl rfl)) fed
          refine ⟨[t], .cons read .nil, ?_⟩
          rw [← List.reverse_cons]
          exact (Option.some.inj close).symm
      | cons ds texts =>
          rw [joined, List.append_assoc, List.cons_append] at fed
          obtain ⟨t, read, later⟩ := feed_piece whole (.inl rfl) fed
          have comma : (deliver t (.arr done :: below)).step ',' =
            .some ⟨.arr (t :: done) :: below, .value⟩ := rfl
          rw [feed_cons, comma, Option.bind_some] at later
          obtain ⟨ts, reads, rfl⟩ := ih (List.cons_ne_nil _ _)
            (fun es member => each es (List.mem_cons_of_mem _ member)) (t :: done) later
          exact ⟨t :: ts, .cons read reads, by simp⟩

end Reading

/-- **An array is read only if its items are.** -/
theorem forall₂_of_readTree_array {c : Char} {cs : List Char} {texts : List (List Char)} {t : Tree}
    (solid : isJsonBlank c = false) (each : ∀ ds ∈ (c :: cs) :: texts, ItemScan.Whole ds)
    (read : readTree ('[' :: joined ((c :: cs) :: texts) ++ [']']) = some t) :
    ∃ ts, t = .arr ts ∧
      List.Forall₂ (fun cs t => readTree cs = some t) ((c :: cs) :: texts) ts := by
  have other : c ≠ ']' := by
    rintro rfl
    cases each _ List.mem_cons_self with
    | cons holds _ =>
        obtain inString | deep | ⟨-, ends⟩ := holds
        · cases inString
        · cases deep
        · exact ends (.inl rfl)
  have value : ∀ rest, (⟨[.arr []], .first⟩ : Reading).feed (c :: rest) =
      (⟨[.arr []], .value⟩ : Reading).feed (c :: rest) := by
    intro rest
    simp [Reading.feed_cons, Reading.step, solid, other]
  obtain ⟨more, starts⟩ : ∃ more, joined ((c :: cs) :: texts) = c :: more := by
    cases texts <;> exact ⟨_, rfl⟩
  obtain ⟨r, fed, finished⟩ := Option.bind_eq_some_iff.1 read
  have opened : Reading.start.step '[' = some ⟨[.arr []], .first⟩ := rfl
  rw [List.cons_append, Reading.feed_cons, opened, Option.bind_some, starts, List.cons_append,
    value, ← List.cons_append, ← starts] at fed
  obtain ⟨ts, reads, rfl⟩ := Reading.feed_pieces (List.cons_ne_nil _ _) each [] fed
  exact ⟨ts, (Option.some.inj finished).symm, reads⟩

end Flowgraph.Json
