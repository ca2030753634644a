/- # Flowgraph.Proofs.Json.Turns -- what one character does to a reading

`Reading.Turn` says all that a character can do to a reading, by its effect on the stack of open
containers: nothing, a scalar joins the innermost container, a container is opened, or closed and
joins the next one (`Reading.step_turn`).  Two invariants follow from it: a text is nested no deeper
than it has opening brackets and braces (`depth_le_openers`), and a text that begins with a bracket
is an array (`arr_of_readTree`).

A reading that is stuck is stuck inside containers too (`Reading.step_stuck`), the other half of
`Reading.step_inside`.
-/
import Flowgraph.Proofs.Json.Depth
import Flowgraph.Proofs.Json.Nesting

set_option autoImplicit false

namespace Flowgraph.Json

/-! ## Marks -/

def Opens (c : Char) : Prop := c = '[' ∨ c = '{'

def Closes (c : Char) : Prop := c = ']' ∨ c = '}'

/-- The characters that mean something wherever they stand outside strings. -/
def Mark (c : Char) : Prop := c = '\x22' ∨ c = ',' ∨ Opens c ∨ Closes c

instance : DecidablePred Opens := fun _ => inferInstanceAs (Decidable (_ ∨ _))

instance : DecidablePred Closes := fun _ => inferInstanceAs (Decidable (_ ∨ _))

instance : DecidablePred Mark := fun _ => inferInstanceAs (Decidable (_ ∨ _))

/-- A kind of character with no marks in it. -/
theorem unmarked_of {p : Char → Bool} {c : Char} (kind : p c = true)
    (none : ['\x22', ',', '[', '{', ']', '}'].all (!p ·) = true) : ¬Mark c := by
  intro mark
  have listed : c ∈ ['\x22', ',', '[', '{', ']', '}'] := by
    simpa [Mark, Opens, Closes, or_assoc] using mark
  have other := List.all_eq_true.1 none c listed
  rw [kind] at other
  cases other

theorem unmarked_of_all {cs : List Char} (all : cs.all (fun c => !decide (Mark c)) = true) :
    ∀ c ∈ cs, ¬Mark c := by
  simpa using all

/-- The container that a frame becomes when it is closed. -/
def Frame.tree : Frame → Tree
  | .arr done => .arr done.reverse
  | .obj done _ => .obj done.reverse

/-- What a container holds so far. -/
def Frame.trees : Frame → List Tree
  | .arr done => done
  | .obj done _ => done.map Prod.snd

/-- Whether the next character of a string is behind a backslash. -/
def Escape.hides : Escape → Bool
  | .slash => true
  | _ => false

namespace Mode

/-- The modes outside strings. -/
def Out : Mode → Prop
  | .string _ _ _ => False
  | _ => True

/-- The modes before the value of the whole text is complete. -/
def Unfinished : Mode → Prop
  | .done _ => False
  | _ => True

/-- The modes in which a value or a key is opened. -/
def Awaits : Mode → Prop
  | .value | .first | .firstKey | .key => True
  | _ => False

/-- A word has no marks in it and is a scalar. -/
def Plain : Mode → Prop
  | .word rest t => t.depth = 0 ∧ ∀ c ∈ rest, ¬Mark c
  | _ => True

/-- The modes that need no container. -/
def Anywhere : Mode → Prop
  | .value | .number _ _ | .word _ _ => True
  | _ => False

/-- The modes in which the innermost container may end. -/
def MayClose : Mode → Prop
  | .after | .first | .firstKey => True
  | _ => False

variable {m : Mode}

theorem Awaits.out (awaits : m.Awaits) : m.Out := by
  cases m <;> trivial

theorem Awaits.unfinished (awaits : m.Awaits) : m.Unfinished := by
  cases m <;> trivial

theorem Anywhere.out (anywhere : m.Anywhere) : m.Out := by
  cases m <;> trivial

theorem MayClose.out (ends : m.MayClose) : m.Out := by
  cases m <;> trivial

theorem MayClose.unfinished (ends : m.MayClose) : m.Unfinished := by
  cases m <;> trivial

end Mode

namespace Reading

/-- What a character can do to a reading. -/
inductive Turn : Reading → Char → Reading → Prop
  /-- A blank, a colon, or a character of a number or a word. -/
  | pass {stack : List Frame} {m m' : Mode} {c : Char} (plain : ¬Mark c)
      (goes : m' = m ∨ m'.Anywhere ∧ m'.Plain ∧ m.Unfinished)
      (out : m.Out) : Turn ⟨stack, m⟩ c ⟨stack, m'⟩
  | spell {stack : List Frame} {rest : List Char} {t : Tree} {c : Char} :
      Turn ⟨stack, .word (c :: rest) t⟩ c ⟨stack, .word rest t⟩
  /-- The last character of a word. -/
  | word {stack : List Frame} {t : Tree} {c : Char} :
      Turn ⟨stack, .word [c] t⟩ c (deliver t stack)
  /-- The character behind a number is read as behind any value. -/
  | number {stack : List Frame} {n : Numeral} {part : NumeralPart} {x : Option Number} {c : Char}
      {r : Reading} (behind : Turn (deliver (.num x) stack) c r) : Turn ⟨stack, .number n part⟩ c r
  | quote {stack : List Frame} {m : Mode} {isKey : Bool} (awaits : m.Awaits)
      (key : isKey = true → m = .firstKey ∨ m = .key) :
      Turn ⟨stack, m⟩ '\x22' ⟨stack, .string isKey [] .plain⟩
  /-- A character of a string. -/
  | inside {stack : List Frame} {isKey : Bool} {codes codes' : List Nat} {e e' : Escape} {c : Char}
      (goes : e.hides = true ∧ e'.hides = false ∨
        e.hides = false ∧ c = '\\' ∧ e'.hides = true ∨
        e.hides = false ∧ c ≠ '\\' ∧ c ≠ '\x22' ∧ e'.hides = false) :
      Turn ⟨stack, .string isKey codes e⟩ c ⟨stack, .string isKey codes' e'⟩
  | text {stack : List Frame} {codes : List Nat} {s : Text} :
      Turn ⟨stack, .string false codes .plain⟩ '\x22' (deliver (.str s) stack)
  | key {done : List (Text × Tree)} {k s : Text} {below : List Frame} {codes : List Nat} :
      Turn ⟨.obj done k :: below, .string true codes .plain⟩ '\x22'
        ⟨.obj done s :: below, .colon⟩
  | opens {stack : List Frame} {f : Frame} {m m' : Mode} {c : Char} (opener : Opens c)
      (empty : f.trees = []) (awaits : m.Awaits) (first : m' = .first ∨ m' = .firstKey) :
      Turn ⟨stack, m⟩ c ⟨f :: stack, m'⟩
  | comma {f : Frame} {below : List Frame} {m : Mode} (next : m = .value ∨ m = .key) :
      Turn ⟨f :: below, .after⟩ ',' ⟨f :: below, m⟩
  | closes {f : Frame} {below : List Frame} {m : Mode} {c : Char} (closer : Closes c)
      (ends : m.MayClose) : Turn ⟨f :: below, m⟩ c (deliver f.tree below)

variable {r r' : Reading} {c : Char} {stack : List Frame}

theorem blank_unmarked (blank : isJsonBlank c = true) : ¬Mark c :=
  unmarked_of blank rfl

theorem pass_blank {m : Mode} (blank : isJsonBlank c = true)
    (out : m.Out) : Turn ⟨stack, m⟩ c ⟨stack, m⟩ :=
  .pass (blank_unmarked blank) (.inl rfl) out

theorem openValue_turn {m : Mode} (awaits : m = .value ∨ m = .first)
    (opened : openValue stack c = some r') : Turn ⟨stack, m⟩ c r' := by
  have awaits' : m.Awaits := by obtain rfl | rfl := awaits <;> trivial
  have out := awaits'.out
  have fresh := awaits'.unfinished
  unfold openValue at opened
  split_ifs at opened with brace bracket quote minus zero digit t f n
  · cases opened
    exact .opens (.inr brace) rfl awaits' (.inr rfl)
  · cases opened
    exact .opens (.inl bracket) rfl awaits' (.inl rfl)
  · cases opened
    subst quote
    exact .quote awaits' Bool.noConfusion
  · cases opened
    exact .pass (by rw [minus]; decide) (.inr ⟨trivial, trivial, fresh⟩) out
  · cases opened
    exact .pass (by rw [zero]; decide) (.inr ⟨trivial, trivial, fresh⟩) out
  · cases opened
    exact .pass (unmarked_of digit rfl) (.inr ⟨trivial, trivial, fresh⟩) out
  · cases opened
    exact .pass (by rw [t]; decide) (.inr ⟨trivial, ⟨rfl, unmarked_of_all rfl⟩, fresh⟩) out
  · cases opened
    exact .pass (by rw [f]; decide) (.inr ⟨trivial, ⟨rfl, unmarked_of_all rfl⟩, fresh⟩) out
  · cases opened
    exact .pass (by rw [n]; decide) (.inr ⟨trivial, ⟨rfl, unmarked_of_all rfl⟩, fresh⟩) out

theorem closeValue_cases (closed : closeValue stack c = some r') :
    isJsonBlank c = true ∧ r' = ⟨stack, .after⟩ ∨ ∃ f below, stack = f :: below ∧
      (c = ',' ∧ (∃ m, (m = .value ∨ m = .key) ∧ r' = ⟨stack, m⟩) ∨
        Closes c ∧ r' = deliver f.tree below) := by
  unfold closeValue at closed
  split at closed
  · rename_i blank
    cases closed
    exact .inl ⟨blank, rfl⟩
  · cases stack with
    | nil => cases closed
    | cons f below =>
        refine .inr ⟨f, below, rfl, ?_⟩
        cases f with
        | arr done | obj done key =>
            simp only at closed
            split_ifs at closed with comma ends
            · cases closed
              exact .inl ⟨comma, _, by simp, rfl⟩
            · cases closed
              exact .inr ⟨by simp [Closes, ends], rfl⟩

theorem closeValue_turn (closed : closeValue stack c = some r') : Turn ⟨stack, .after⟩ c r' := by
  obtain ⟨blank, rfl⟩ | ⟨f, below, rfl, ⟨rfl, m, next, rfl⟩ | ⟨closer, rfl⟩⟩ :=
    closeValue_cases closed
  · exact pass_blank blank trivial
  · exact .comma next
  · exact .closes closer trivial

/-- A container may be closed before anything stands in it. -/
theorem closeValue_first {m : Mode} (ends : m.MayClose) (closer : Closes c)
    (closed : closeValue stack c = some r') : Turn ⟨stack, m⟩ c r' := by
  have solid : isJsonBlank c ≠ true := by obtain rfl | rfl := closer <;> decide
  have other : c ≠ ',' := by obtain rfl | rfl := closer <;> decide
  obtain ⟨blank, -⟩ | ⟨f, below, rfl, ⟨comma, -⟩ | ⟨-, rfl⟩⟩ := closeValue_cases closed
  · exact absurd blank solid
  · exact absurd comma other
  · exact .closes closer ends

theorem follow_turn (followed : r.follow c = some r') : Turn r c r' := by
  obtain ⟨stack, m⟩ := r
  cases m with
  | after => exact closeValue_turn followed
  | done t =>
      simp only [follow, Option.ite_none_right_eq_some, Option.some.injEq] at followed
      obtain ⟨blank, rfl⟩ := followed
      exact pass_blank blank trivial
  | _ => cases followed

theorem hexValue?_unquoted {d : Nat} (digit : hexValue? c = some d) : c ≠ '\\' ∧ c ≠ '\x22' := by
  constructor
  · rintro rfl
    cases digit
  · rintro rfl
    cases digit

theorem endString_turn {isKey : Bool} {codes : List Nat}
    (ended : endString stack isKey codes = some r') :
    Turn ⟨stack, .string isKey codes .plain⟩ '\x22' r' := by
  unfold endString at ended
  cases isKey with
  | false =>
      cases ended
      exact .text
  | true =>
      cases stack with
      | nil => cases ended
      | cons f below =>
          cases f with
          | arr done => cases ended
          | obj done k =>
              cases ended
              exact .key

theorem stepString_turn {isKey : Bool} {codes : List Nat} {e : Escape}
    (stepped : stepString stack isKey codes e c = some r') :
    Turn ⟨stack, .string isKey codes e⟩ c r' := by
  cases e with
  | plain =>
      simp only [stepString] at stepped
      split_ifs at stepped with quote slash
      · subst quote
        exact endString_turn stepped
      · cases stepped
        exact .inside (.inr (.inl ⟨rfl, slash, rfl⟩))
      · cases stepped
        exact .inside (.inr (.inr ⟨rfl, slash, quote, rfl⟩))
  | slash =>
      simp only [stepString] at stepped
      split_ifs at stepped
      · cases stepped
        exact .inside (.inl ⟨rfl, rfl⟩)
      · obtain ⟨d, -, rfl⟩ := Option.map_eq_some_iff.1 stepped
        exact .inside (.inl ⟨rfl, rfl⟩)
  | hex left value =>
      obtain ⟨d, digit, rfl⟩ := Option.map_eq_some_iff.1 stepped
      obtain ⟨slash, quote⟩ := hexValue?_unquoted digit
      split_ifs
      · exact .inside (.inr (.inr ⟨rfl, slash, quote, rfl⟩))
      · exact .inside (.inr (.inr ⟨rfl, slash, quote, rfl⟩))

/-- No number goes on with a mark. -/
theorem extendNumber_mark (mark : Mark c) (n : Numeral) (part : NumeralPart) :
    extendNumber n part c = none := by
  obtain rfl | rfl | (rfl | rfl) | rfl | rfl := mark <;> cases part <;> rfl

/-- **What one character does to a reading.** -/
theorem step_turn (stepped : r.step c = some r') : Turn r c r' := by
  obtain ⟨stack, m⟩ := r
  cases m with
  | value =>
      simp only [step] at stepped
      split_ifs at stepped with blank
      · cases stepped
        exact pass_blank blank trivial
      · exact openValue_turn (.inl rfl) stepped
  | first =>
      simp only [step] at stepped
      split_ifs at stepped with blank closer
      · cases stepped
        exact pass_blank blank trivial
      · exact closeValue_first trivial (.inl closer) stepped
      · exact openValue_turn (.inr rfl) stepped
  | firstKey =>
      simp only [step] at stepped
      split_ifs at stepped with blank quote closer
      · cases stepped
        exact pass_blank blank trivial
      · cases stepped
        subst quote
        exact .quote trivial fun _ => .inl rfl
      · exact closeValue_first trivial (.inr closer) stepped
  | key =>
      simp only [step] at stepped
      split_ifs at stepped with blank quote
      · cases stepped
        exact pass_blank blank trivial
      · cases stepped
        subst quote
        exact .quote trivial fun _ => .inr rfl
  | colon =>
      simp only [step] at stepped
      split_ifs at stepped with blank colon
      · cases stepped
        exact pass_blank blank trivial
      · cases stepped
        exact .pass (by rw [colon]; decide) (.inr ⟨trivial, trivial, trivial⟩) trivial
  | after => exact follow_turn stepped
  | done t => exact follow_turn stepped
  | string isKey codes e => exact stepString_turn stepped
  | number n part =>
      simp only [step] at stepped
      cases extended : extendNumber n part c with
      | some next =>
          simp only [extended] at stepped
          cases stepped
          have plain : ¬Mark c := by
            intro mark
            rw [extendNumber_mark mark] at extended
            cases extended
          exact .pass plain (.inr ⟨trivial, trivial, trivial⟩) trivial
      | none =>
          simp only [extended] at stepped
          obtain ⟨r₁, ended, followed⟩ := Option.bind_eq_some_iff.1 stepped
          cases part with
          | zero | whole | fraction | power =>
              cases ended
              exact .number (follow_turn followed)
          | _ => cases ended
  | word rest t =>
      cases rest with
      | nil => cases stepped
      | cons d more =>
          cases more with
          | nil =>
              simp only [step, Option.ite_none_right_eq_some, Option.some.injEq] at stepped
              obtain ⟨rfl, rfl⟩ := stepped
              exact .word
          | cons d' more =>
              simp only [step, Option.ite_none_right_eq_some, Option.some.injEq] at stepped
              obtain ⟨rfl, rfl⟩ := stepped
              exact .spell

/-! ## Where modes may stand -/

/-- Outside containers there is nothing to close and no key, and within them nothing is complete. -/
def Placed : Reading → Prop
  | ⟨stack, .done _⟩ => stack = []
  | ⟨stack, .first⟩ | ⟨stack, .firstKey⟩ | ⟨stack, .key⟩ | ⟨stack, .colon⟩ | ⟨stack, .after⟩
  | ⟨stack, .string true _ _⟩ => stack ≠ []
  | ⟨_, m⟩ => m.Plain

theorem placed_start : start.Placed := trivial

theorem placed_deliver (t : Tree) (stack : List Frame) : (deliver t stack).Placed := by
  cases stack with
  | nil => rfl
  | cons f below => cases f <;> exact List.cons_ne_nil _ _

theorem Turn.placed (turn : Turn r c r') (placed : r.Placed) : r'.Placed := by
  induction turn with
  | @pass stack m m' c _ goes _ =>
      obtain rfl | ⟨anywhere, plain, -⟩ := goes
      · exact placed
      · cases m' <;> first | exact plain | cases anywhere
  | spell => exact ⟨placed.1, fun d member => placed.2 d (List.mem_cons_of_mem _ member)⟩
  | word | text => exact placed_deliver _ _
  | number _ ih => exact ih (placed_deliver _ _)
  | @quote stack m isKey _ key =>
      cases isKey with
      | false => trivial
      | true => obtain rfl | rfl := key rfl <;> exact placed
  | @inside stack isKey _ _ _ _ _ _ => cases isKey <;> exact placed
  | key => exact List.cons_ne_nil _ _
  | opens _ _ _ first => obtain rfl | rfl := first <;> exact List.cons_ne_nil _ _
  | comma next =>
      obtain rfl | rfl := next
      · trivial
      · exact List.cons_ne_nil _ _
  | closes => exact placed_deliver _ _

/-- What every turn keeps, a run of characters keeps. -/
theorem feed_keeps {P : Reading → Prop} (keeps : ∀ {r c r'}, Turn r c r' → P r → P r')
    {cs : List Char} (start : P r) (fed : r.feed cs = some r') : P r' := by
  induction cs generalizing r with
  | nil =>
      cases fed
      exact start
  | cons c cs ih =>
      rw [feed_cons] at fed
      obtain ⟨r₁, stepped, fed⟩ := Option.bind_eq_some_iff.1 fed
      exact ih (keeps (step_turn stepped) start) fed

/-- A text ends outside containers, behind a value or with a number. -/
theorem finish_cases {t : Tree} (placed : r.Placed) (finished : r.finish = some t) :
    r = ⟨[], .done t⟩ ∨ ∃ n part x, r = ⟨[], .number n part⟩ ∧ t = .num x := by
  obtain ⟨stack, m⟩ := r
  cases m with
  | done t' =>
      cases finished
      cases placed
      exact .inl rfl
  | number n part =>
      simp only [finish] at finished
      split at finished
      · rename_i above t' ended
        cases finished
        obtain ⟨rfl, -⟩ := endNumber_done ended
        cases part with
        | zero | whole | fraction | power =>
            cases ended
            exact .inr ⟨n, _, _, rfl, rfl⟩
        | _ => cases ended
      · cases finished
  | _ => cases finished

end Reading

/-! ## Depth -/

/-- How many brackets and braces a text opens. -/
def openers (cs : List Char) : Nat := cs.countP fun c => decide (Opens c)

theorem Frame.depth_tree_le {f : Frame} {n : Nat} (each : ∀ t ∈ f.trees, t.depth ≤ n) :
    f.tree.depth ≤ n + 1 := by
  cases f with
  | arr done =>
      refine Nat.succ_le_succ (Tree.depthItems_le_iff.2 fun t member => ?_)
      exact each t (List.mem_reverse.1 member)
  | obj done key =>
      refine Nat.succ_le_succ (Tree.depthMembers_le_iff.2 fun t member => ?_)
      rw [List.map_reverse] at member
      exact each t (List.mem_reverse.1 member)

namespace Reading

variable {r r' : Reading} {c : Char} {stack : List Frame} {n : Nat} {t : Tree}

/-- Nothing in the open containers is nested deeper than `n`, the containers counted. -/
def Stacked (n : Nat) : List Frame → Prop
  | [] => True
  | f :: below =>
    (∀ t ∈ f.trees, t.depth + (below.length + 1) ≤ n) ∧ below.length + 1 ≤ n ∧ Stacked n below

/-- Nothing that has been read is nested deeper than `n`. -/
def Within (n : Nat) (r : Reading) : Prop := Stacked n r.stack ∧ ∀ t, r.mode = .done t → t.depth ≤ n

theorem Stacked.mono {m : Nat} (stacked : Stacked n stack) (le : n ≤ m) : Stacked m stack := by
  induction stack with
  | nil => trivial
  | cons f below ih =>
      obtain ⟨each, room, later⟩ := stacked
      exact ⟨fun t member => Nat.le_trans (each t member) le, Nat.le_trans room le, ih later⟩

theorem Stacked.deliver (stacked : Stacked n stack) (fits : t.depth + stack.length ≤ n) :
    (deliver t stack).Within n := by
  cases stack with
  | nil =>
      refine ⟨trivial, fun t' done => ?_⟩
      cases done
      exact fits
  | cons f below =>
      obtain ⟨each, room, later⟩ := stacked
      cases f with
      | arr done =>
          refine ⟨⟨fun t' member => ?_, room, later⟩, nofun⟩
          obtain rfl | old := List.mem_cons.1 member
          · exact fits
          · exact each t' old
      | obj done key =>
          refine ⟨⟨fun t' member => ?_, room, later⟩, nofun⟩
          obtain rfl | old := List.mem_cons.1 member
          · exact fits
          · exact each t' old

theorem Stacked.length_le (stacked : Stacked n stack) : stack.length ≤ n := by
  cases stack with
  | nil => exact Nat.zero_le n
  | cons f below => exact stacked.2.1

/-- A character makes what is read at most one deeper, and only if it opens a container. -/
theorem Turn.within (turn : Turn r c r') (placed : r.Placed) (within : r.Within n) :
    r'.Within (n + openers [c]) := by
  have le : n ≤ n + openers [c] := Nat.le_add_right _ _
  induction turn with
  | @pass stack m m' c _ goes _ =>
      refine ⟨within.1.mono le, fun t done => ?_⟩
      obtain rfl | ⟨anywhere, -, -⟩ := goes
      · exact Nat.le_trans (within.2 t done) le
      · cases done
        cases anywhere
  | spell => exact ⟨within.1.mono le, nofun⟩
  | word =>
      refine Stacked.deliver (within.1.mono le) ?_
      rw [placed.1, Nat.zero_add]
      exact (within.1.mono le).length_le
  | number _ ih =>
      refine ih (placed_deliver _ _) (within.1.deliver ?_) le
      rw [Tree.depth, Nat.zero_add]
      exact within.1.length_le
  | quote | inside => exact ⟨within.1.mono le, nofun⟩
  | text =>
      refine Stacked.deliver (within.1.mono le) ?_
      rw [Tree.depth, Nat.zero_add]
      exact (within.1.mono le).length_le
  | key => exact ⟨within.1.mono le, nofun⟩
  | @opens stack f m m' c opener empty _ first =>
      have one : openers [c] = 1 := by simp [openers, opener]
      have room : stack.length ≤ n := within.1.length_le
      refine ⟨⟨by simp [empty], by omega, within.1.mono le⟩, fun t done => ?_⟩
      obtain rfl | rfl := first <;> cases done
  | comma next =>
      refine ⟨within.1.mono le, fun t done => ?_⟩
      obtain rfl | rfl := next <;> cases done
  | @closes f below m c _ _ =>
      obtain ⟨each, room, later⟩ := within.1
      refine Stacked.deliver (later.mono le) ?_
      have deep := Frame.depth_tree_le (f := f) (n := n - (below.length + 1)) fun t member => by
        have := each t member
        omega
      omega

theorem within_feed {cs : List Char} (placed : r.Placed) (within : r.Within n)
    (fed : r.feed cs = some r') : r'.Within (n + openers cs) := by
  induction cs generalizing r n with
  | nil =>
      cases fed
      exact within
  | cons c cs ih =>
      rw [feed_cons] at fed
      obtain ⟨r₁, stepped, fed⟩ := Option.bind_eq_some_iff.1 fed
      have turn := step_turn stepped
      have later := ih (turn.placed placed) (turn.within placed within) fed
      have count : n + openers [c] + openers cs = n + openers (c :: cs) := by
        rw [Nat.add_assoc, openers, openers, openers, ← List.countP_append, List.singleton_append]
      rwa [count] at later

end Reading

/-- **A text is nested no deeper than it has opening brackets and braces.** -/
theorem depth_le_openers {cs : List Char} {t : Tree} (read : readTree cs = some t) :
    t.depth ≤ openers cs := by
  obtain ⟨r, fed, finished⟩ := Option.bind_eq_some_iff.1 read
  have placed := Reading.placed_start
  have start : Reading.start.Within 0 := ⟨trivial, nofun⟩
  have within := Reading.within_feed placed start fed
  rw [Nat.zero_add] at within
  obtain rfl | ⟨n, part, x, rfl, rfl⟩ :=
    Reading.finish_cases (Reading.feed_keeps Reading.Turn.placed placed fed) finished
  · exact within.2 t rfl
  · exact Nat.zero_le _

/-! ## Arrays -/

namespace Reading

variable {r r' : Reading} {c : Char} {stack : List Frame} {t : Tree}

/-- The outermost container is an array, which is open or has been closed. -/
def InArray (r : Reading) : Prop :=
  (∃ done, r.stack.getLast? = some (.arr done)) ∨ ∃ ts, r.mode = .done (.arr ts)

theorem inArray_deliver {done : List Tree} (last : stack.getLast? = some (.arr done)) (t : Tree) :
    (deliver t stack).InArray := by
  cases stack with
  | nil => cases last
  | cons f below =>
      cases f with
      | arr done' | obj done' key =>
          cases below with
          | nil => cases last <;> exact .inl ⟨_, rfl⟩
          | cons f' below => exact .inl ⟨done, last⟩

/-- Before the array is closed it is on the stack. -/
theorem InArray.last {m : Mode} (within : InArray ⟨stack, m⟩) (fresh : m.Unfinished) :
    ∃ done, stack.getLast? = some (.arr done) := by
  obtain last | ⟨ts, rfl⟩ := within
  · exact last
  · cases fresh

theorem Turn.inArray (turn : Turn r c r') (within : r.InArray) : r'.InArray := by
  induction turn with
  | pass _ goes _ =>
      obtain rfl | ⟨-, -, fresh⟩ := goes
      · exact within
      · exact .inl (within.last fresh)
  | spell | inside => exact .inl (within.last trivial)
  | word | text =>
      obtain ⟨done, last⟩ := within.last trivial
      exact inArray_deliver last _
  | number _ ih =>
      obtain ⟨done, last⟩ := within.last trivial
      exact ih (inArray_deliver last _)
  | quote awaits => exact .inl (within.last awaits.unfinished)
  | @key _ _ _ below =>
      obtain ⟨done, last⟩ := within.last trivial
      cases below with
      | nil => cases last
      | cons => exact .inl ⟨done, last⟩
  | @opens stack f _ _ _ _ _ awaits _ =>
      obtain ⟨done, last⟩ := within.last awaits.unfinished
      cases stack with
      | nil => cases last
      | cons => exact .inl ⟨done, last⟩
  | comma => exact .inl (within.last trivial)
  | @closes f below _ _ _ ends =>
      obtain ⟨done, last⟩ := within.last ends.unfinished
      cases below with
      | nil =>
          cases last
          exact .inr ⟨_, rfl⟩
      | cons => exact inArray_deliver (by exact last) _

end Reading

/-- A text that begins with a bracket is an array. -/
theorem arr_of_readTree {cs : List Char} {t : Tree} (read : readTree ('[' :: cs) = some t) :
    ∃ ts, t = .arr ts := by
  obtain ⟨r, fed, finished⟩ := Option.bind_eq_some_iff.1 read
  have opened : Reading.start.step '[' = some ⟨[.arr []], .first⟩ := rfl
  rw [Reading.feed_cons, opened, Option.bind_some] at fed
  have placed : (⟨[.arr []], .first⟩ : Reading).Placed := List.cons_ne_nil _ _
  have within : r.InArray := Reading.feed_keeps Reading.Turn.inArray (.inl ⟨[], rfl⟩) fed
  obtain rfl | ⟨n, part, x, rfl, rfl⟩ :=
    Reading.finish_cases (Reading.feed_keeps Reading.Turn.placed placed fed) finished
  · obtain ⟨done, last⟩ | ⟨ts, done⟩ := within
    · cases last
    · cases done
      exact ⟨ts, rfl⟩
  · obtain ⟨done, last⟩ := within.last trivial
    cases last

/-! ## Readings that are stuck -/

namespace Reading

variable {r : Reading} {c : Char} {stack below : List Frame}

theorem openValue_stuck (stuck : openValue stack c = none) (stack' : List Frame) :
    openValue stack' c = none := by
  unfold openValue at stuck ⊢
  split_ifs at stuck ⊢
  rfl

/-- What may follow a value depends on the innermost container alone. -/
theorem closeValue_stuck {f : Frame} (stuck : closeValue (f :: stack) c = none)
    (stack' : List Frame) : closeValue (f :: stack') c = none := by
  cases f with
  | arr done | obj done key =>
      simp only [closeValue] at stuck ⊢
      split_ifs at stuck ⊢
      rfl

/-- Behind a value in a container only blanks, a comma and the end of the container may follow. -/
theorem closeValue_other (solid : isJsonBlank c = false) (comma : c ≠ ',') (ends : ¬Closes c) :
    closeValue stack c = none := by
  cases closed : closeValue stack c with
  | none => rfl
  | some r =>
      obtain ⟨blank, -⟩ | ⟨f, below, -, ⟨here, -⟩ | ⟨here, -⟩⟩ := closeValue_cases closed
      · rw [solid] at blank
        cases blank
      · exact absurd here comma
      · exact absurd here ends

theorem follow_stuck (placed : r.Placed) (stuck : r.follow c = none)
    (stays : r.stack = [] → c ≠ ',' ∧ ¬Closes c) : (inside below r).follow c = none := by
  obtain ⟨stack, m⟩ := r
  cases m with
  | after =>
      obtain ⟨f, stack, rfl⟩ := List.exists_cons_of_ne_nil placed
      exact closeValue_stuck stuck _
  | done t =>
      cases placed
      have solid : isJsonBlank c = false :=
        Bool.eq_false_iff.2 fun blank => by simp [follow, blank] at stuck
      obtain ⟨comma, ends⟩ := stays rfl
      cases below with
      | nil => simp [inside, deliver, follow, solid]
      | cons f below => cases f <;> exact closeValue_other solid comma ends
  | _ => rfl

theorem stepString_stuck {isKey : Bool} {codes : List Nat} {e : Escape}
    (keyed : isKey = true → stack ≠ []) (stuck : stepString stack isKey codes e c = none) :
    stepString (stack ++ below) isKey codes e c = none := by
  cases e with
  | plain =>
      simp only [stepString] at stuck ⊢
      split_ifs at stuck ⊢ with quote
      · cases isKey with
        | false => cases stuck
        | true =>
            obtain ⟨f, stack, rfl⟩ := List.exists_cons_of_ne_nil (keyed rfl)
            cases f with
            | arr done => rfl
            | obj done key => cases stuck
      · rfl
  | slash =>
      simp only [stepString] at stuck ⊢
      split_ifs at stuck ⊢
      rw [Option.map_eq_none_iff] at stuck ⊢
      exact stuck
  | hex left value =>
      rw [stepString, Option.map_eq_none_iff] at stuck ⊢
      exact stuck

theorem endNumber_cases (stack : List Frame) (n : Numeral) (part : NumeralPart) :
    endNumber stack n part = none ∧ (∀ stack', endNumber stack' n part = none) ∨
      ∃ x, ∀ stack', endNumber stack' n part = some (deliver (.num x) stack') := by
  cases part with
  | zero | whole | fraction | power => exact .inr ⟨_, fun _ => rfl⟩
  | _ => exact .inl ⟨rfl, fun _ => rfl⟩

/-- **A reading that is stuck is stuck inside containers too**, unless the character ends a value
that is complete outside of them. -/
theorem step_stuck (placed : r.Placed) (stuck : r.step c = none)
    (stays : r.stack = [] → r.mode.Out → c ≠ ',' ∧ ¬Closes c) : (inside below r).step c = none := by
  -- only behind a value that is complete does it matter what stands around the reading
  obtain ⟨stack, m⟩ := r
  cases m with
  | value =>
      simp only [step, inside] at stuck ⊢
      split_ifs at stuck ⊢
      exact openValue_stuck stuck _
  | first =>
      obtain ⟨f, stack, rfl⟩ := List.exists_cons_of_ne_nil placed
      simp only [step, inside] at stuck ⊢
      split_ifs at stuck ⊢
      · exact closeValue_stuck stuck _
      · exact openValue_stuck stuck _
  | firstKey =>
      obtain ⟨f, stack, rfl⟩ := List.exists_cons_of_ne_nil placed
      simp only [step, inside] at stuck ⊢
      split_ifs at stuck ⊢
      · exact closeValue_stuck stuck _
      · rfl
  | key | colon =>
      simp only [step, inside] at stuck ⊢
      split_ifs at stuck ⊢
      rfl
  | after => exact follow_stuck placed stuck fun outside => absurd outside placed
  | done t =>
      have ends : (inside below ⟨stack, .done t⟩).follow c = none :=
        follow_stuck placed stuck fun outside => stays outside trivial
      exact (step_deliver t below c).trans ends
  | string isKey codes e =>
      refine stepString_stuck (fun key => ?_) stuck
      subst key
      exact placed
  | number n part =>
      simp only [step, inside] at stuck ⊢
      cases extended : extendNumber n part c with
      | some next => simp [extended] at stuck
      | none =>
          simp only [extended] at stuck ⊢
          obtain ⟨-, never⟩ | ⟨x, anywhere⟩ := endNumber_cases stack n part
          · rw [never]
            rfl
          · rw [anywhere, Option.bind_some] at stuck ⊢
            rw [← inside_deliver]
            refine follow_stuck (placed_deliver _ _) stuck fun outside => ?_
            cases stack with
            | nil => exact stays rfl trivial
            | cons f stack => cases f <;> cases outside
  | word rest t =>
      cases rest with
      | nil => rfl
      | cons d more =>
          cases more with
          | nil | cons =>
              simp only [step, inside] at stuck ⊢
              split_ifs at stuck ⊢
              rfl

end Reading
end Flowgraph.Json
