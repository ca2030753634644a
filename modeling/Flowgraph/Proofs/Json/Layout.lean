/- # Flowgraph.Proofs.Json.Layout -- a form says the same in every layout

Items and members are read one after the other, with blanks around them or without
(`readTree_array`, `readTree_object`).  A form whose scalars say something says a tree
(`Form.tree?`), and this is what is read from it however it is laid out
(`Form.readTree_layouts`).
-/
import Mathlib.Data.List.Forall2
import Flowgraph.Proofs.Json.Nesting

set_option autoImplicit false

namespace Flowgraph.Json

/-! ## Containers -/

/-- Texts with commas between them. -/
def joined : List (List Char) → List Char
  | [] => []
  | [cs] => cs
  | cs :: ds :: rest => cs ++ ',' :: joined (ds :: rest)

/-- A text of blanks. -/
def Blank (cs : List Char) : Prop := ∀ c ∈ cs, isJsonBlank c = true

/-- A text that says a member of an object. -/
def SaysMember (cs : List Char) (m : Text × Tree) : Prop :=
  ∃ blanks key text, cs = blanks ++ quoted key ++ ':' :: text ∧ Blank blanks ∧ m.1 = some key ∧
    readTree text = some m.2

theorem endsNumber_of_blank {c : Char} (blank : isJsonBlank c = true) : endsNumber c = true := by
  simp only [isJsonBlank, Bool.or_eq_true, beq_iff_eq] at blank
  rcases blank with ((rfl | rfl) | rfl) | rfl <;> rfl

namespace Reading

variable {cs rest blanks : List Char} {t : Tree} {below : List Frame} {mode : Mode}

theorem feed_blank (stack : List Frame) (rest : List Char)
    (skips : ∀ c, isJsonBlank c = true → (⟨stack, mode⟩ : Reading).step c = some ⟨stack, mode⟩)
    (blank : Blank blanks) :
    (⟨stack, mode⟩ : Reading).feed (blanks ++ rest) = (⟨stack, mode⟩ : Reading).feed rest := by
  induction blanks with
  | nil => rfl
  | cons c blanks ih =>
      rw [List.cons_append, feed_cons, skips c (blank c List.mem_cons_self), Option.bind_some]
      exact ih fun d member => blank d (List.mem_cons_of_mem _ member)

theorem step_value_blank {c : Char} (stack : List Frame) (blank : isJsonBlank c = true) :
    (⟨stack, .value⟩ : Reading).step c = some ⟨stack, .value⟩ := by
  simp [step, blank]

theorem step_after_blank {c : Char} (stack : List Frame) (blank : isJsonBlank c = true) :
    (⟨stack, .after⟩ : Reading).step c = some ⟨stack, .after⟩ := by
  simp [step, follow, closeValue, blank]

/-- A value may stand behind an opening bracket as it may behind a comma. -/
theorem feed_first (reads : readTree cs = some t) (stack : List Frame) (rest : List Char) :
    (⟨stack, .first⟩ : Reading).feed (cs ++ rest) =
      (⟨stack, .value⟩ : Reading).feed (cs ++ rest) := by
  induction cs with
  | nil => cases reads
  | cons c cs ih =>
      rw [List.cons_append, feed_cons, feed_cons]
      by_cases blank : isJsonBlank c = true
      · rw [readTree, feed_cons, start, step_value_blank [] blank] at reads
        rw [step_value_blank stack blank]
        simp only [step, blank, if_true, Option.bind_some]
        exact ih reads
      · have other : c ≠ ']' := by
          rintro rfl
          cases reads
        simp [step, blank, other]

/-- Items behind each other, up to the end of the array. -/
theorem feed_items {css : List (List Char)} {ts : List Tree} (some : css ≠ [])
    (each : List.Forall₂ (fun cs t => readTree cs = .some t) css ts) (blank : Blank blanks)
    (done : List Tree) (below : List Frame) :
    (⟨.arr done :: below, .value⟩ : Reading).feed (joined css ++ (blanks ++ [']'])) =
      .some (deliver (.arr (done.reverse ++ ts)) below) := by
  induction each generalizing done with
  | nil => exact absurd rfl some
  | @cons cs t css ts reads later ih =>
      cases later with
      | nil =>
          have close : (⟨.arr (t :: done) :: below, .after⟩ : Reading).feed (blanks ++ [']']) =
              .some (deliver (.arr (done.reverse ++ [t])) below) := by
            rw [feed_blank _ _ (fun c blank => step_after_blank _ blank) blank]
            simp [feed_cons, step, follow, closeValue, isJsonBlank]
            rfl
          rw [joined]
          cases blanks with
          | nil => rw [List.nil_append, feed_text reads rfl]; exact close
          | cons c blanks =>
              rw [List.cons_append, feed_text reads
                (endsNumber_of_blank (blank c List.mem_cons_self))]
              exact close
      | @cons cs' t' css ts reads' later =>
          rw [joined, List.append_assoc, List.cons_append, feed_text reads rfl, feed_cons]
          have comma : (deliver t (.arr done :: below)).step ',' =
            .some ⟨.arr (t :: done) :: below, .value⟩ := rfl
          rw [comma, Option.bind_some, ih (List.cons_ne_nil _ _), List.reverse_cons,
            List.append_assoc, List.singleton_append]

/-- A member behind a brace or a comma. -/
theorem feed_member {cs : List Char} {m : Text × Tree} {c : Char} (one : SaysMember cs m)
    (opens : mode = .key ∨ mode = .firstKey) (ends : endsNumber c = true)
    (done : List (Text × Tree)) (key : Text) (below : List Frame) (rest : List Char) :
    (⟨.obj done key :: below, mode⟩ : Reading).feed (cs ++ c :: rest) =
      (⟨.obj (m :: done) m.1 :: below, .after⟩ : Reading).feed (c :: rest) := by
  obtain ⟨blanks, k, text, rfl, blank, named, reads⟩ := one
  obtain ⟨_, t⟩ := m
  subst named
  have skips : ∀ c, isJsonBlank c = true → (⟨.obj done key :: below, mode⟩ : Reading).step c =
      some ⟨.obj done key :: below, mode⟩ := by
    intro c blank
    rcases opens with rfl | rfl <;> simp [step, blank]
  have quote : (⟨.obj done key :: below, mode⟩ : Reading).step '\x22' =
      some ⟨.obj done key :: below, .string true [] .plain⟩ := by
    rcases opens with rfl | rfl <;> rfl
  have colon : (⟨.obj done (some k) :: below, .colon⟩ : Reading).step ':' =
      some ⟨.obj done (some k) :: below, .value⟩ := rfl
  have shape : blanks ++ quoted k ++ ':' :: text ++ c :: rest = blanks ++ ('\x22' ::
      (k.toList.flatMap escape ++ '\x22' :: (':' :: (text ++ c :: rest)))) := by
    simp [quoted]
  rw [shape, feed_blank _ _ skips blank, feed_cons, quote, Option.bind_some, feed_quoted,
    endString_key, Option.bind_some, feed_cons, colon, Option.bind_some, feed_text reads ends]
  rfl

/-- Members behind each other, up to the end of the object. -/
theorem feed_members {css : List (List Char)} {ms : List (Text × Tree)} (some : css ≠ [])
    (each : List.Forall₂ SaysMember css ms) (blank : Blank blanks)
    (opens : mode = .key ∨ mode = .firstKey) (done : List (Text × Tree)) (key : Text)
    (below : List Frame) :
    (⟨.obj done key :: below, mode⟩ : Reading).feed (joined css ++ (blanks ++ ['}'])) =
      .some (deliver (.obj (done.reverse ++ ms)) below) := by
  induction each generalizing done key mode with
  | nil => exact absurd rfl some
  | @cons cs m css ms one later ih =>
      cases later with
      | nil =>
          have close : (⟨.obj (m :: done) m.1 :: below, .after⟩ : Reading).feed (blanks ++ ['}']) =
              .some (deliver (.obj (done.reverse ++ [m])) below) := by
            rw [feed_blank _ _ (fun c blank => step_after_blank _ blank) blank]
            simp [feed_cons, step, follow, closeValue, isJsonBlank]
            rfl
          rw [joined]
          cases blanks with
          | nil =>
              rw [List.nil_append, feed_member one opens rfl]
              exact close
          | cons c blanks =>
              rw [List.cons_append, feed_member one opens
                (endsNumber_of_blank (blank c List.mem_cons_self))]
              exact close
      | @cons cs' m' css ms one' later =>
          rw [joined, List.append_assoc, List.cons_append, feed_member one opens rfl, feed_cons]
          have comma : (⟨.obj (m :: done) m.1 :: below, .after⟩ : Reading).step ',' =
            .some ⟨.obj (m :: done) m.1 :: below, .key⟩ := rfl
          rw [comma, Option.bind_some, ih (List.cons_ne_nil _ _) (.inl rfl), List.reverse_cons,
            List.append_assoc, List.singleton_append]

end Reading

theorem readTree_array {css : List (List Char)} {ts : List Tree} {blanks : List Char}
    (some : css ≠ []) (each : List.Forall₂ (fun cs t => readTree cs = .some t) css ts)
    (blank : Blank blanks) : readTree ('[' :: joined css ++ blanks ++ [']']) = .some (.arr ts) := by
  have opened : Reading.start.step '[' = .some ⟨[.arr []], .first⟩ := rfl
  have first : (⟨[.arr []], .first⟩ : Reading).feed (joined css ++ (blanks ++ [']'])) =
      (⟨[.arr []], .value⟩ : Reading).feed (joined css ++ (blanks ++ [']'])) := by
    cases each with
    | nil => exact absurd rfl some
    | cons reads later =>
        cases later with
        | nil => exact Reading.feed_first reads _ _
        | cons => rw [joined, List.append_assoc, Reading.feed_first reads]
  rw [readTree, List.cons_append, List.cons_append, List.append_assoc, Reading.feed_cons, opened,
    Option.bind_some, first, Reading.feed_items some each blank]
  rfl

theorem readTree_object {css : List (List Char)} {ms : List (Text × Tree)} {blanks : List Char}
    (some : css ≠ []) (each : List.Forall₂ SaysMember css ms) (blank : Blank blanks) :
    readTree ('{' :: joined css ++ blanks ++ ['}']) = .some (.obj ms) := by
  have opened : Reading.start.step '{' = .some ⟨[.obj [] none], .firstKey⟩ := rfl
  rw [readTree, List.cons_append, List.cons_append, List.append_assoc, Reading.feed_cons, opened,
    Option.bind_some, Reading.feed_members some each blank (.inr rfl)]
  rfl

theorem readTree_blank {blanks cs : List Char} (blank : Blank blanks) :
    readTree (blanks ++ cs) = readTree cs := by
  rw [readTree, readTree, Reading.start,
    Reading.feed_blank _ _ (fun c blank => Reading.step_value_blank _ blank) blank]

/-! ## Forms -/

namespace Form

mutual

/-- The tree that a form says, if its scalars say something. -/
def tree? : Form → Option Tree
  | .scalar text => readTree text
  | .arr items => (trees? items).map .arr
  | .obj members => (memberTrees? members).map .obj

def trees? : List Form → Option (List Tree)
  | [] => some []
  | f :: fs =>
    match tree? f, trees? fs with
    | some t, some ts => some (t :: ts)
    | _, _ => none

def memberTrees? : List (String × Form) → Option (List (Text × Tree))
  | [] => some []
  | (k, f) :: fs =>
    match tree? f, memberTrees? fs with
    | some t, some ts => some ((some k, t) :: ts)
    | _, _ => none

end

theorem blank_newLine (depth : Nat) : Blank (newLine depth) := by
  intro c member
  rcases List.mem_cons.1 member with rfl | space
  · rfl
  · rw [List.eq_of_mem_replicate space]
    rfl

theorem compactItems_eq (items : List Form) : compactItems items = joined (items.map compact) := by
  induction items with
  | nil => rfl
  | cons f items ih =>
      cases items with
      | nil => rfl
      | cons => rw [compactItems, ih]; rfl

theorem compactMembers_eq (members : List (String × Form)) : compactMembers members =
    joined (members.map fun m => quoted m.1 ++ ':' :: compact m.2) := by
  induction members with
  | nil => rfl
  | cons m members ih =>
      cases members with
      | nil => rfl
      | cons => rw [compactMembers, ih]; simp [joined]

theorem prettyItems_eq (depth : Nat) (items : List Form) : prettyItems depth items =
    joined (items.map fun f => newLine depth ++ pretty depth f) := by
  induction items with
  | nil => rfl
  | cons f items ih =>
      cases items with
      | nil => rfl
      | cons => rw [prettyItems, ih]; simp [joined]

theorem prettyMembers_eq (depth : Nat) (members : List (String × Form)) :
    prettyMembers depth members = joined (members.map fun m =>
      newLine depth ++ quoted m.1 ++ ':' :: ' ' :: pretty depth m.2) := by
  induction members with
  | nil => rfl
  | cons m members ih =>
      cases members with
      | nil => rfl
      | cons => rw [prettyMembers, ih]; simp [joined]

/-- If each of some forms is laid out so that it says its tree, the texts say the trees. -/
theorem forall₂_of_trees? {lay : Form → List Char} {items : List Form} {ts : List Tree}
    (each : ∀ f ∈ items, ∀ t, f.tree? = some t → readTree (lay f) = some t)
    (trees : trees? items = some ts) :
    List.Forall₂ (fun cs t => readTree cs = some t) (items.map lay) ts := by
  induction items generalizing ts with
  | nil =>
      cases trees
      exact .nil
  | cons f items ih =>
      rw [trees?] at trees
      split at trees
      · rename_i t ts' tree later
        cases trees
        exact .cons (each f List.mem_cons_self t tree)
          (ih (fun g member => each g (List.mem_cons_of_mem _ member)) later)
      · cases trees

theorem forall₂_of_memberTrees? {lay : String × Form → List Char} {members : List (String × Form)}
    {ms : List (Text × Tree)}
    (each : ∀ m ∈ members, ∀ t, m.2.tree? = some t → SaysMember (lay m) (some m.1, t))
    (trees : memberTrees? members = some ms) :
    List.Forall₂ SaysMember (members.map lay) ms := by
  induction members generalizing ms with
  | nil =>
      cases trees
      exact .nil
  | cons m members ih =>
      rw [memberTrees?] at trees
      split at trees
      · rename_i t ms' tree later
        cases trees
        exact .cons (each m List.mem_cons_self t tree)
          (ih (fun n member => each n (List.mem_cons_of_mem _ member)) later)
      · cases trees

theorem readTree_items {items : List Form} {ts : List Tree} (some : items ≠ [])
    (trees : trees? items = .some ts)
    (each : ∀ f ∈ items, ∀ t, f.tree? = .some t →
      readTree f.compact = .some t ∧ ∀ depth, readTree (f.pretty depth) = .some t) :
    readTree (.arr items : Form).compact = .some (.arr ts) ∧
      ∀ depth, readTree ((.arr items : Form).pretty depth) = .some (.arr ts) := by
  obtain ⟨f, rest, rfl⟩ := List.exists_cons_of_ne_nil some
  constructor
  · have laid := forall₂_of_trees? (fun f member t tree => (each f member t tree).1) trees
    have bare : Blank [] := nofun
    have compacted := readTree_array (by simp) laid bare
    rw [compact, compactItems_eq]
    simpa using compacted
  · intro depth
    have laid : ∀ f' ∈ f :: rest, ∀ t, f'.tree? = .some t →
        readTree (newLine (depth + 1) ++ f'.pretty (depth + 1)) = .some t := by
      intro f' member t tree
      rw [readTree_blank (blank_newLine _)]
      exact (each f' member t tree).2 _
    rw [pretty, prettyItems_eq]
    exact readTree_array (by simp) (forall₂_of_trees? laid trees) (blank_newLine depth)

theorem readTree_members {members : List (String × Form)} {ms : List (Text × Tree)}
    (some : members ≠ []) (trees : memberTrees? members = .some ms)
    (each : ∀ m ∈ members, ∀ t, m.2.tree? = .some t →
      readTree m.2.compact = .some t ∧ ∀ depth, readTree (m.2.pretty depth) = .some t) :
    readTree (.obj members : Form).compact = .some (.obj ms) ∧
      ∀ depth, readTree ((.obj members : Form).pretty depth) = .some (.obj ms) := by
  obtain ⟨m, rest, rfl⟩ := List.exists_cons_of_ne_nil some
  constructor
  · have laid : ∀ m' ∈ m :: rest, ∀ t, m'.2.tree? = .some t →
        SaysMember (quoted m'.1 ++ ':' :: m'.2.compact) (.some m'.1, t) := by
      intro m' member t tree
      exact ⟨[], m'.1, m'.2.compact, rfl, nofun, rfl, (each m' member t tree).1⟩
    have bare : Blank [] := nofun
    have compacted := readTree_object (by simp) (forall₂_of_memberTrees? laid trees) bare
    rw [compact, compactMembers_eq]
    simpa using compacted
  · intro depth
    have space : Blank [' '] := by
      intro c member
      rw [List.mem_singleton.1 member]
      rfl
    have laid : ∀ m' ∈ m :: rest, ∀ t, m'.2.tree? = .some t → SaysMember
        (newLine (depth + 1) ++ quoted m'.1 ++ ':' :: ' ' :: m'.2.pretty (depth + 1))
        (.some m'.1, t) := by
      intro m' member t tree
      refine ⟨newLine (depth + 1), m'.1, [' '] ++ m'.2.pretty (depth + 1), rfl, blank_newLine _,
        rfl, ?_⟩
      rw [readTree_blank space]
      exact (each m' member t tree).2 _
    rw [pretty, prettyMembers_eq]
    exact readTree_object (by simp) (forall₂_of_memberTrees? laid trees) (blank_newLine depth)

/-- **A form says its tree in every layout.** -/
theorem readTree_layouts : ∀ (f : Form) (t : Tree), f.tree? = some t →
    readTree f.compact = some t ∧ ∀ depth, readTree (f.pretty depth) = some t
  | .scalar text, t, tree => by
      refine ⟨tree, fun depth => ?_⟩
      rw [pretty]
      exact tree
  | .arr [], t, tree => by
      cases tree
      exact ⟨rfl, fun _ => rfl⟩
  | .arr (f :: items), t, tree => by
      obtain ⟨ts, trees, rfl⟩ := Option.map_eq_some_iff.1 tree
      exact readTree_items (List.cons_ne_nil _ _) trees fun f' member => readTree_layouts f'
  | .obj [], t, tree => by
      cases tree
      exact ⟨rfl, fun _ => rfl⟩
  | .obj (m :: members), t, tree => by
      obtain ⟨ms, trees, rfl⟩ := Option.map_eq_some_iff.1 tree
      exact readTree_members (List.cons_ne_nil _ _) trees fun m' member => readTree_layouts m'.2
termination_by f => f
decreasing_by
  · have smaller := List.sizeOf_lt_of_mem member
    rw [Form.arr.sizeOf_spec]
    omega
  · have smaller := List.sizeOf_lt_of_mem member
    obtain ⟨k, f⟩ := m'
    rw [Form.obj.sizeOf_spec]
    simp only [Prod.mk.sizeOf_spec] at smaller ⊢
    omega

end Form
end Flowgraph.Json
