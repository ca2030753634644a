/- # Flowgraph.Proofs.Document.Checking -- writes are checked before they are made

A write is made in place: it opens one container after the other on its way, growing and
replacing as it goes, and at last puts the value where it stands (`Document.write`).  The check
beforehand walks the document as it was.  The two agree because a write meets, at every place on
its way, just what was there before it started, and null where nothing was (`Writing.stand`): an
index that passes the check is inside the array that is opened for it, and no step fails.

Lengths are those of a machine with words of 64 bits, on which the length for the largest index
is cut off (`Value.roomFor`), so that this index would lie outside the array made for it.
-/
import Flowgraph.Proofs.Document.Setting

set_option autoImplicit false

namespace Flowgraph

namespace Value

variable {v new root : Value} {s : Segment} {way rest p : Path} {n : Nat}

/-! ## The check -/

/-- An index lies too far past the end of the array it is applied to; a value that is no container
counts as an array without items, and an object takes any index as a key. -/
def TooFar : Value → Nat → Prop
  | .obj _, _ => False
  | v, n => v.items.length + maxIndexGap < n

/-- Where nothing is, the check goes on as at null. -/
theorem gap?_getD (v : Option Value) (p : Path) : gap? v p = gap? (some (v.getD .null)) p := by
  cases v with
  | some v => rfl
  | none =>
      cases p with
      | nil => rfl
      | cons s rest => cases s <;> rfl

theorem gap?_of_tooFar (far : v.TooFar n) (rest : Path) :
    gap? (some v) (.index n :: rest) = some n := by
  cases v with
  | obj ms => exact far.elim
  | arr items => exact if_pos far
  | _ => exact if_pos (by simpa [TooFar, items] using far)

theorem gap?_of_near (near : ∀ n, s = .index n → ¬ v.TooFar n) (rest : Path) :
    gap? (some v) (s :: rest) = gap? (some ((v.child? s).getD .null)) rest := by
  cases s with
  | key k => cases v <;> exact gap?_getD _ rest
  | index n =>
      cases v with
      | obj ms => exact gap?_getD _ rest
      | arr items => exact (if_neg (near n rfl)).trans (gap?_getD _ rest)
      | _ =>
          have inside : ¬ n > maxIndexGap := by simpa [TooFar, items] using near n rfl
          exact (if_neg inside).trans (gap?_getD _ rest)

theorem near_of_gap? (passes : gap? (some v) (s :: rest) = none) (n : Nat) (index : s = .index n) :
    ¬ v.TooFar n := by
  subst index
  intro far
  rw [gap?_of_tooFar far] at passes
  cases passes

/-- The check of a path whose first part passes. -/
theorem gap?_append (passes : gap? (some root) way = none) (p : Path) :
    gap? (some root) (way ++ p) = gap? (some (root.slot way)) p := by
  induction way generalizing root with
  | nil => rfl
  | cons s rest ih =>
      have near := near_of_gap? passes
      rw [gap?_of_near near] at passes
      rw [List.cons_append, gap?_of_near near, ih passes, slot_cons]

/-- An index is refused when it is the first on the way that lies too far past an end. -/
theorem gap?_eq_some_iff : gap? (some root) p = some n ↔
    ∃ way rest, p = way ++ .index n :: rest ∧ (root.slot way).TooFar n ∧
      gap? (some root) way = none := by
  constructor
  · intro refused
    induction p generalizing root with
    | nil => cases refused
    | cons s rest ih =>
        by_cases far : ∃ m, s = .index m ∧ root.TooFar m
        · obtain ⟨m, rfl, far⟩ := far
          obtain rfl : m = n := Option.some.inj ((gap?_of_tooFar far rest).symm.trans refused)
          exact ⟨[], rest, rfl, far, rfl⟩
        · have near (m : Nat) (index : s = .index m) : ¬ root.TooFar m :=
            fun here => far ⟨m, index, here⟩
          rw [gap?_of_near near] at refused
          obtain ⟨way, more, rfl, far, before⟩ := ih refused
          refine ⟨s :: way, more, rfl, ?_, ?_⟩
          · rwa [slot_cons]
          · rwa [gap?_of_near near]
  · rintro ⟨way, rest, rfl, far, before⟩
    rw [gap?_append before, gap?_of_tooFar far]

/-- The check passes exactly the paths on which no index lies too far past an end. -/
theorem gap?_eq_none_iff : gap? (some root) p = none ↔
    ∀ way n rest, p = way ++ .index n :: rest → ¬ (root.slot way).TooFar n := by
  constructor
  · rintro passes way n rest rfl far
    cases first : gap? (some root) way with
    | none =>
        rw [gap?_append first, gap?_of_tooFar far] at passes
        cases passes
    | some m =>
        obtain ⟨before, more, rfl, farther, clear⟩ := gap?_eq_some_iff.1 first
        rw [List.append_assoc, gap?_append clear, List.cons_append, gap?_of_tooFar farther] at passes
        cases passes
  · intro near
    cases refused : gap? (some root) p with
    | none => rfl
    | some n =>
        obtain ⟨way, rest, split, far, -⟩ := gap?_eq_some_iff.1 refused
        exact absurd far (near way n rest split)

/-! ## One step in place -/

/-- The largest number of a word. -/
def wordMax : Nat := 0xffffffffffffffff

/-- The length an array is given for an index, cut off at the largest number of a word. -/
def roomFor (n : Nat) : Nat := min (n + 1) wordMax

/-- Make a container of a value in place, with something at the segment: fails where the index is
not inside the array made for it. -/
def opened? : Value → Segment → Option Value
  | .obj ms, s =>
    some (.obj (if (Members.get? s.keyText ms).isSome then ms else Members.put s.keyText .null ms))
  | _, .key k => some (.obj [(k, .null)])
  | v, .index n =>
    let room := if v.items.length ≤ n then padded v.items (roomFor n) else v.items
    if n < room.length then some (.arr room) else none

/-- Put a value in place of what a path leads to: fails where it leads to nothing. -/
def replace? : Value → Path → Value → Option Value
  | _, [], new => some new
  | .obj ms, s :: rest, new =>
    match Members.get? s.keyText ms with
    | some w => (w.replace? rest new).map fun w => .obj (Members.put s.keyText w ms)
    | none => none
  | .arr items, .index n :: rest, new =>
    match items[n]? with
    | some w => (w.replace? rest new).map fun w => .arr (items.set n w)
    | none => none
  | _, _, _ => none

theorem getElem?_padded (xs : List Value) (n m : Nat) :
    (padded xs (n + 1))[m]? =
      if m < xs.length then xs[m]? else if m < n + 1 then some .null else none := by
  rw [padded]
  split
  · rw [List.getElem?_append_left ‹_›]
  · rw [List.getElem?_append_right (by omega), List.getElem?_replicate]
    congr 1
    simp only [eq_iff_iff]
    omega

theorem padded_set_self (xs : List Value) (n : Nat) :
    (padded xs (n + 1)).set n (xs[n]?.getD .null) = padded xs (n + 1) := by
  apply List.ext_getElem?
  intro m
  rw [getElem?_padded_set, getElem?_padded]
  by_cases here : m = n
  · subst here
    by_cases inside : m < xs.length <;> simp [inside]
  · simp only [here, if_false]
    split
    · rfl
    · congr 1
      simp only [eq_iff_iff]
      omega

theorem not_tooFar_iff (array : ∀ ms, v ≠ .obj ms) :
    ¬ v.TooFar n ↔ n ≤ v.items.length + maxIndexGap := by
  cases v with
  | obj ms => exact absurd rfl (array ms)
  | _ => exact Nat.not_lt

theorem opened?_index (array : ∀ ms, v ≠ .obj ms) (n : Nat) :
    v.opened? (.index n) =
      let room := if v.items.length ≤ n then padded v.items (roomFor n) else v.items
      if n < room.length then some (.arr room) else none := by
  cases v with
  | obj ms => exact absurd rfl (array ms)
  | _ => rfl

/-- What is opened for an index that is not too far away has the index inside. -/
theorem opened?_of_near (near : ∀ n, s = .index n → ¬ v.TooFar n)
    (short : v.items.length + maxIndexGap < wordMax) :
    v.opened? s = some (v.putChild s ((v.child? s).getD .null)) := by
  by_cases object : ∃ ms, v = .obj ms
  · obtain ⟨ms, rfl⟩ := object
    simp only [opened?, putChild, child?]
    cases there : Members.get? s.keyText ms with
    | none => rfl
    | some w => simp [Members.put_of_get? there]
  · have array (ms : Members) : v ≠ .obj ms := fun is => object ⟨ms, is⟩
    cases s with
    | key k => cases v <;> first | rfl | exact absurd rfl (array _)
    | index n =>
        have reach := (not_tooFar_iff array).1 (near n rfl)
        have room : roomFor n = n + 1 := by
          rw [roomFor]
          omega
        have grown : (if v.items.length ≤ n then padded v.items (roomFor n) else v.items) =
            padded v.items (n + 1) := by
          split
          · rw [room]
          · simp [padded, Nat.sub_eq_zero_of_le (by omega : n + 1 ≤ v.items.length)]
        have inside : n < (padded v.items (n + 1)).length := by
          simp only [padded, List.length_append, List.length_replicate]
          omega
        simp only [opened?_index array, grown, if_pos inside, putChild_index array,
          child?_index array, padded_set_self]

theorem slot_concat (root : Value) (way : Path) (s : Segment) :
    root.slot (way ++ [s]) = ((root.slot way).child? s).getD .null := by
  rw [slot, at?_append_cons]
  cases (root.slot way).child? s <;> rfl

/-- An array that a write goes into by an index has that index afterwards, and is no longer than it
has to be. -/
theorem at?_assign_index (array : ∀ ms, root.slot way ≠ .obj ms) (n : Nat) (rest : Path)
    (new : Value) :
    ∃ items, (root.assign (way ++ .index n :: rest) new).at? way = some (.arr items) ∧
      items.length = if (root.slot way).items.length ≤ n then n + 1
        else (root.slot way).items.length := by
  rw [assign_append, at?_assign_self, assign_cons, putChild_index array]
  refine ⟨_, rfl, ?_⟩
  simp only [padded, List.length_set, List.length_append, List.length_replicate]
  split <;> omega

theorem assign_assign (v : Value) (p : Path) (w new : Value) :
    (v.assign p w).assign p new = v.assign p new := by
  induction p generalizing v with
  | nil => rfl
  | cons s rest ih =>
      rw [assign_cons, assign_cons, assign_cons, child?_putChild_self, putChild_putChild,
        Option.getD_some, ih]

/-- What is there is replaced as a write replaces it. -/
theorem replace?_of_at? {found : Value} (there : v.at? p = some found) (new : Value) :
    v.replace? p new = some (v.assign p new) := by
  induction p generalizing v with
  | nil => rfl
  | cons s rest ih =>
      rw [at?_cons, Option.bind_eq_some_iff] at there
      obtain ⟨w, down, there⟩ := there
      have below := ih there
      cases v with
      | obj ms =>
          rw [child?] at down
          simp [replace?, assign_obj, down, below]
      | arr items =>
          cases s with
          | key k => cases down
          | index n =>
              rw [child?] at down
              have inside : n < items.length := (List.getElem?_eq_some_iff.1 down).1
              simp [replace?, assign, padded, down, below, Nat.sub_eq_zero_of_le inside]
      | _ => cases s <;> cases down

end Value

/-! ## A write in place -/

/-- A write under way: what has become of the value, and where in it the write stands. -/
structure Writing where
  root : Value
  way : Path

namespace Writing

variable {root : Value} {way rest : Path} {s : Segment}

/-- Open what the write stands at and step down. -/
def open? (w : Writing) (s : Segment) : Option Writing :=
  match w.root.at? w.way with
  | none => none
  | some here =>
    match here.opened? s with
    | none => none
    | some container => (w.root.replace? w.way container).map fun root => ⟨root, w.way ++ [s]⟩

/-- Step down along a path. -/
def openAll : Writing → Path → Option Writing
  | w, [] => some w
  | w, s :: rest =>
    match w.open? s with
    | none => none
    | some w => w.openAll rest

/-- A write that stands at the end of a way and meets there what was there before. -/
def stand (root : Value) (way : Path) : Writing := ⟨root.assign way (root.slot way), way⟩

theorem stand_meets (root : Value) (way : Path) :
    (stand root way).root.at? (stand root way).way = some (root.slot way) :=
  Value.at?_assign_self root way _

/-- One step meets what was there before, when the step before it did. -/
theorem open?_stand (near : ∀ n, s = .index n → ¬ (root.slot way).TooFar n)
    (short : (root.slot way).items.length + maxIndexGap < Value.wordMax) :
    (stand root way).open? s = some (stand root (way ++ [s])) := by
  have made : (root.slot way).putChild s (((root.slot way).child? s).getD .null) =
      (root.slot way).assign [s] (root.slot (way ++ [s])) := by
    rw [Value.assign_cons, Value.slot_concat]
    rfl
  rw [open?, stand_meets]
  simp only [Value.opened?_of_near near short, Value.replace?_of_at? (stand_meets root way)]
  rw [Option.map_some, stand, stand, Value.assign_assign, made, ← Value.assign_append]

/-- A whole write meets at every place what was there before. -/
theorem openAll_stand
    (short : ∀ way, (root.slot way).items.length + maxIndexGap < Value.wordMax) (way : Path)
    (passes : Value.gap? (some (root.slot way)) rest = none) :
    (stand root way).openAll rest = some (stand root (way ++ rest)) := by
  induction rest generalizing way with
  | nil => rw [openAll, List.append_nil]
  | cons s rest ih =>
      have near := Value.near_of_gap? passes
      rw [Value.gap?_of_near near, ← Value.slot_concat] at passes
      rw [openAll, open?_stand near (short way)]
      simp only [ih _ passes, List.append_assoc, List.singleton_append]

end Writing

namespace Document

variable {d : Document} {path : String} {new : Value}

/-- A word can count the items of every array inside, and as far past its end as a write may reach.
No array that fits into a memory is longer. -/
def Fits (d : Document) : Prop :=
  ∀ way items, d.root.at? way = some (.arr items) → items.length + maxIndexGap < Value.wordMax

/-- Write a value in place: what comes of it, and the document afterwards.  There is no result
where an index lies outside its array. -/
def write (d : Document) (path : String) (new : Value) :
    Option (Except PathError Unit × Document) :=
  match Path.parse path with
  | .error e => some (.error e, d)
  | .ok p =>
    match Value.gap? (some d.root) p with
    | some n => some (.error (.indexOutOfRange path n), d)
    | none =>
      match Writing.openAll ⟨d.root, []⟩ p with
      | none => none
      | some w => (w.root.replace? w.way new).map fun root => (.ok (), ⟨root⟩)

theorem Fits.slot (fits : d.Fits) (way : Path) :
    (d.root.slot way).items.length + maxIndexGap < Value.wordMax := by
  have empty : 0 + maxIndexGap < Value.wordMax := by decide
  rw [Value.slot]
  cases there : d.root.at? way with
  | none => exact empty
  | some v =>
      cases v with
      | arr items => exact fits way items there
      | _ => exact empty

/-- A write is refused for its path, or for the first index on it that lies too far past an end. -/
theorem set_eq_error {e : PathError} : d.set path new = .error e ↔
    Path.parse path = .error e ∨
      ∃ way n rest, Path.parse path = .ok (way ++ .index n :: rest) ∧
        (d.root.slot way).TooFar n ∧
        (∀ before m more, way = before ++ .index m :: more → ¬ (d.root.slot before).TooFar m) ∧
        e = .indexOutOfRange path n := by
  rw [set]
  cases Path.parse path with
  | error e => simp
  | ok p =>
      simp only [reduceCtorEq, false_or, Except.ok.injEq]
      constructor
      · intro refused
        cases gap : Value.gap? (some d.root) p with
        | none => simp [gap] at refused
        | some n =>
            obtain ⟨way, rest, split, far, clear⟩ := Value.gap?_eq_some_iff.1 gap
            simp only [gap, Except.error.injEq] at refused
            exact ⟨way, n, rest, split, far, Value.gap?_eq_none_iff.1 clear, refused.symm⟩
      · rintro ⟨way, n, rest, split, far, clear, rfl⟩
        rw [Value.gap?_eq_some_iff.2 ⟨way, rest, split, far, Value.gap?_eq_none_iff.2 clear⟩]

theorem set_refuses_iff : (∃ e, d.set path new = .error e) ↔ (∃ e, Path.parse path = .error e) ∨
    ∃ way n rest, Path.parse path = .ok (way ++ .index n :: rest) ∧
      (d.root.slot way).TooFar n := by
  constructor
  · rintro ⟨e, refused⟩
    obtain unread | ⟨way, n, rest, read, far, -⟩ := set_eq_error.1 refused
    · exact .inl ⟨e, unread⟩
    · exact .inr ⟨way, n, rest, read, far⟩
  · rintro (⟨e, unread⟩ | ⟨way, n, rest, read, far⟩)
    · exact ⟨e, set_eq_error.2 (.inl unread)⟩
    · cases done : d.set path new with
      | error e => exact ⟨e, rfl⟩
      | ok d' =>
          obtain ⟨p, read', passes, -⟩ := set_eq_ok.1 done
          cases Except.ok.inj (read.symm.trans read')
          exact absurd far (Value.gap?_eq_none_iff.1 passes way n rest rfl)

/-- The containers of a write that passes its check can all be opened. -/
theorem openAll_of_passes (fits : d.Fits) (way rest : Path)
    (passes : Value.gap? (some d.root) (way ++ rest) = none) :
    Writing.openAll ⟨d.root, []⟩ way = some (Writing.stand d.root way) := by
  have clear : Value.gap? (some d.root) way = none := by
    refine Value.gap?_eq_none_iff.2 fun before n more split => ?_
    refine Value.gap?_eq_none_iff.1 passes before n (more ++ rest) ?_
    rw [split, List.append_assoc, List.cons_append]
  exact Writing.openAll_stand fits.slot [] clear

/-- A write in place that is refused leaves the document alone. -/
theorem write_of_refused {e : PathError} (refused : d.set path new = .error e) :
    d.write path new = some (.error e, d) := by
  rw [set] at refused
  rw [write]
  cases read : Path.parse path with
  | error e =>
      simp only [read, Except.error.injEq] at refused
      simp only [refused]
  | ok p =>
      cases gap : Value.gap? (some d.root) p with
      | none => simp [read, gap] at refused
      | some n =>
          simp only [read, gap, Except.error.injEq] at refused
          simp only [gap, refused]

/-- A write in place that is not refused does not fail, and ends with what is said of it. -/
theorem write_of_set {d' : Document} (fits : d.Fits) (done : d.set path new = .ok d') :
    d.write path new = some (.ok (), d') := by
  obtain ⟨p, read, passes, rfl⟩ := set_eq_ok.1 done
  have opened : Writing.openAll ⟨d.root, []⟩ p = some (Writing.stand d.root p) :=
    openAll_of_passes fits p [] (by rwa [List.append_nil])
  simp only [write, read, passes, opened, Value.replace?_of_at? (Writing.stand_meets d.root p),
    Option.map_some]
  rw [Writing.stand, Value.assign_assign]

end Document

/-- **Writes are checked before they are made.**  A write is refused when its path cannot be read,
or when some index on it lies too far past the end of the array that the write would apply it to,
of which the first is reported.  Made in place, container after container, a write that is refused
leaves the document alone, and one that is not does not fail: it meets at every place on its way
what the check has seen there, and ends with the document that is said to come of it.  An array
that it grows or makes for an index is just long enough for that index. -/
theorem writes_are_checked_first (d : Document) (path : String) (new : Value) :
    ((∃ e, d.set path new = .error e) ↔ (∃ e, Path.parse path = .error e) ∨
      ∃ way n rest, Path.parse path = .ok (way ++ .index n :: rest) ∧
        (d.root.slot way).TooFar n) ∧
    (∀ e, d.set path new = .error e ↔ Path.parse path = .error e ∨
      ∃ way n rest, Path.parse path = .ok (way ++ .index n :: rest) ∧
        (d.root.slot way).TooFar n ∧
        (∀ before m more, way = before ++ .index m :: more → ¬ (d.root.slot before).TooFar m) ∧
        e = .indexOutOfRange path n) ∧
    (∀ e, d.set path new = .error e → d.write path new = some (.error e, d)) ∧
    ∀ d' p, d.set path new = .ok d' → Path.parse path = .ok p →
      (d.Fits → d.write path new = some (.ok (), d') ∧
        ∀ way rest, p = way ++ rest → ∃ w, Writing.openAll ⟨d.root, []⟩ way = some w ∧
          w.way = way ∧ w.root.at? way = some (d.root.slot way)) ∧
      ∀ way n rest, p = way ++ .index n :: rest → (∀ ms, d.root.slot way ≠ .obj ms) →
        ∃ items, d'.root.at? way = some (.arr items) ∧ items.length =
          if (d.root.slot way).items.length ≤ n then n + 1
          else (d.root.slot way).items.length := by
  refine ⟨Document.set_refuses_iff, fun e => Document.set_eq_error,
    fun e => Document.write_of_refused, ?_⟩
  intro d' p done read
  obtain ⟨p', read', passes, made⟩ := Document.set_eq_ok.1 done
  obtain rfl : p' = p := Except.ok.inj (read'.symm.trans read)
  constructor
  · intro fits
    refine ⟨Document.write_of_set fits done, fun way rest split => ?_⟩
    subst split
    exact ⟨_, Document.openAll_of_passes fits way rest passes, rfl,
      Writing.stand_meets d.root way⟩
  · intro way n rest split array
    subst split made
    exact Value.at?_assign_index array n rest new

/-- An array that a write makes, and the largest index of a word refused. -/
theorem writes_are_checked_first_in_empty :
    Document.empty.Fits ∧
    Document.empty.write "list.2" .null =
      some (.ok (), ⟨.obj [("list", .arr [.null, .null, .null])]⟩) ∧
    Document.empty.write "list.18446744073709551615" .null =
      some (.error (.indexOutOfRange "list.18446744073709551615" Value.wordMax), .empty) := by
  have fits : Document.empty.Fits := by
    rintro (- | ⟨s, rest⟩) items here <;> cases here
  refine ⟨fits, ?_, ?_⟩
  · have read : Path.parse "list.2" = .ok [.key "list", .index 2] := by rfl
    have made : Document.empty.set "list.2" .null =
        .ok ⟨.obj [("list", .arr [.null, .null, .null])]⟩ := by rfl
    obtain ⟨-, -, -, goes⟩ := writes_are_checked_first .empty "list.2" .null
    exact ((goes _ _ made read).1 fits).1
  · have refused : Document.empty.set "list.18446744073709551615" .null =
        .error (.indexOutOfRange "list.18446744073709551615" Value.wordMax) := by rfl
    exact (writes_are_checked_first .empty _ .null).2.2.1 _ refused

end Flowgraph
