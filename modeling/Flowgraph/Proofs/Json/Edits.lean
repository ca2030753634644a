/- # Flowgraph.Proofs.Json.Edits -- edits that mean nothing

A record may be written in many ways.  Its members may stand in another order, members that
nobody knows may be added, a field may be left out instead of being written as its default,
and the same may be done inside of its fields and of the items of its lists
(`RecordEdit`, `ListEdit`).  What is opened then means the same under every name
(`RecordEdit.open?`), so every decoder that asks for fields by their names decodes the same.
-/
import Mathlib.Data.List.Nodup
import Mathlib.Data.List.Perm.Basic
import Flowgraph.Json.Record

set_option autoImplicit false

namespace Flowgraph.Json

variable {α : Type}

/-- A field of a record, as far as it can be edited. -/
structure Field where
  name : String
  /-- What leaving the field out stands for, if it may be left out. -/
  default? : Option Tree := none
  /-- The edits inside of the field. -/
  Edit : Tree → Tree → Prop := fun _ _ => False

/-- The edits of a record with some fields. -/
inductive RecordEdit (fields : List Field) : Tree → Tree → Prop
  /-- The members stand in another order. -/
  | reordered {members members' : List (Text × Tree)} :
      members.Perm members' → RecordEdit fields (.obj members) (.obj members')
  /-- There is a member more, of an unknown name. -/
  | unknown {members : List (Text × Tree)} {key : String} {t : Tree} :
      key ∉ fields.map Field.name →
        RecordEdit fields (.obj members) (.obj ((some key, t) :: members))
  /-- A field is left out instead of being written as its default. -/
  | leftOut {members : List (Text × Tree)} {f : Field} {t : Tree} :
      f ∈ fields → f.default? = some t → (∀ m ∈ members, m.1 ≠ some f.name) →
        RecordEdit fields (.obj ((some f.name, t) :: members)) (.obj members)
  /-- A field is edited inside. -/
  | inside {members : List (Text × Tree)} {f : Field} {t t' : Tree} :
      f ∈ fields → f.Edit t t' → RecordEdit fields
        (.obj ((some f.name, t) :: members)) (.obj ((some f.name, t') :: members))
  /-- In a record that is written as an array, the last field is left out. -/
  | lastLeftOut {before : List Tree} {f : Field} {t : Tree} :
      fields[before.length]? = some f → f.default? = some t →
        RecordEdit fields (.arr (before ++ [t])) (.arr before)
  /-- In a record that is written as an array, a field is edited inside. -/
  | insideItem {before after : List Tree} {f : Field} {t t' : Tree} :
      fields[before.length]? = some f → f.Edit t t' →
        RecordEdit fields (.arr (before ++ t :: after)) (.arr (before ++ t' :: after))

/-- The edits of a list by edits of its items. -/
inductive ListEdit (edit : Tree → Tree → Prop) : Tree → Tree → Prop
  | item {before after : List Tree} {t t' : Tree} :
      edit t t' → ListEdit edit (.arr (before ++ t :: after)) (.arr (before ++ t' :: after))

/-- What stands in a field, or does not, means the same. -/
inductive Field.Same (f : Field) : Option Tree → Option Tree → Prop
  | unchanged (o : Option Tree) : f.Same o o
  | edited {t t' : Tree} : f.Edit t t' → f.Same (some t) (some t')
  | leftOut {t : Tree} : f.default? = some t → f.Same (some t) none

/-! ## Members -/

namespace Record

/-- A member with a known key joins the fields, unless its key is there already. -/
def join? (names : List String) (k : String) (t : Tree) (fs : List (String × Tree)) :
    Option (List (String × Tree)) :=
  if k ∈ names then if (fs.lookup k).isSome then none else some ((k, t) :: fs) else some fs

theorem known?_cons (names : List String) (k : String) (t : Tree) (ms : List (Text × Tree)) :
    known? names ((some k, t) :: ms) = (known? names ms).bind (join? names k t) := by
  rw [known?]
  cases known? names ms <;> rfl

theorem lookup_cons_eq (k l : String) (t : Tree) (fs : List (String × Tree)) :
    ((k, t) :: fs).lookup l = if l = k then some t else fs.lookup l := by
  by_cases same : l = k
  · simp [same]
  · rw [List.lookup_cons, beq_false_of_ne same, if_neg same]

/-- Under every name two lists of fields hold the same tree. -/
def Agree (fs fs' : List (String × Tree)) : Prop := ∀ k, fs.lookup k = fs'.lookup k

theorem agree_refl (o : Option (List (String × Tree))) : Option.Rel Agree o o := by
  cases o with
  | none => exact .none
  | some fs => exact .some fun _ => rfl

theorem join?_agree {fs fs' : List (String × Tree)} (agree : Agree fs fs') (names : List String)
    (k : String) (t : Tree) : Option.Rel Agree (join? names k t fs) (join? names k t fs') := by
  unfold join?
  rw [agree k]
  split_ifs
  · exact .none
  · refine .some fun l => ?_
    rw [lookup_cons_eq, lookup_cons_eq, agree l]
  · exact .some agree

/-- Two members may join in either order. -/
theorem join?_swap (names : List String) (k l : String) (t u : Tree) (fs : List (String × Tree)) :
    Option.Rel Agree ((join? names k t fs).bind (join? names l u))
      ((join? names l u fs).bind (join? names k t)) := by
  have skipped : ∀ {k : String}, k ∉ names → ∀ t, join? names k t = some := by
    intro k unknown t
    funext fs
    exact if_neg unknown
  by_cases known : k ∈ names
  · by_cases known' : l ∈ names
    · by_cases same : k = l
      · subst same
        cases there : (fs.lookup k).isSome <;> simp [join?, known, there]
      · cases there : (fs.lookup k).isSome <;> cases there' : (fs.lookup l).isSome <;>
          simp [join?, known, known', there, there', lookup_cons_eq, same, Ne.symm same]
        -- only the fields stand in another order, and each is found before the other
        intro m
        rw [lookup_cons_eq, lookup_cons_eq, lookup_cons_eq, lookup_cons_eq]
        grind
    · rw [skipped known', Option.bind_some, Option.bind_fun_some]
      exact agree_refl _
  · rw [skipped known, Option.bind_some, Option.bind_fun_some]
    exact agree_refl _

/-- In whatever order the members stand, the same is found. -/
theorem known?_perm {names : List String} {ms ms' : List (Text × Tree)} (perm : ms.Perm ms') :
    Option.Rel Agree (known? names ms) (known? names ms') := by
  induction perm with
  | nil => exact .some fun _ => rfl
  | @cons m ms ms' _ ih =>
      obtain ⟨_ | k, t⟩ := m
      · exact .none
      · rw [known?_cons, known?_cons]
        generalize known? names ms = o, known? names ms' = o' at ih
        cases ih with
        | none => exact .none
        | some agree => exact join?_agree agree names k t
  | swap m n ms =>
      obtain ⟨_ | k, t⟩ := m <;> obtain ⟨_ | l, u⟩ := n
      · exact .none
      · simp only [known?]
        exact .none
      · simp only [known?]
        exact .none
      · rw [known?_cons, known?_cons, known?_cons, known?_cons]
        cases known? names ms with
        | none => exact .none
        | some fs => exact join?_swap names k l t u fs
  | @trans ms ms' ms'' _ _ ih ih' =>
      generalize known? names ms = o, known? names ms' = o', known? names ms'' = o'' at ih ih'
      cases ih with
      | none => exact ih'
      | some agree =>
          cases ih' with
          | some agree' => exact .some fun k => (agree k).trans (agree' k)

/-- What no member is called is not found. -/
theorem lookup_known? {names : List String} {ms : List (Text × Tree)} {fs : List (String × Tree)}
    {k : String} (found : known? names ms = some fs) (absent : ∀ m ∈ ms, m.1 ≠ some k) :
    fs.lookup k = none := by
  induction ms generalizing fs with
  | nil =>
      cases found
      rfl
  | cons m ms ih =>
      obtain ⟨_ | l, t⟩ := m
      · cases found
      · rw [known?_cons] at found
        obtain ⟨fs', found, joined⟩ := Option.bind_eq_some_iff.1 found
        have later := ih found fun m member => absent m (List.mem_cons_of_mem _ member)
        have other : k ≠ l := fun same =>
          absent (some l, t) List.mem_cons_self (congrArg some same.symm)
        unfold join? at joined
        split_ifs at joined
        · cases joined
          rw [lookup_cons_eq, if_neg other, later]
        · cases joined
          exact later

/-! ## Records -/

/-- Two records hold under the name of every field what means the same. -/
structure Alike (fields : List Field) (r r' : Record) : Prop where
  positional : r.positional = r'.positional
  same : ∀ f ∈ fields, f.Same (r.fields.lookup f.name) (r'.fields.lookup f.name)

variable {fields : List Field} {f : Field} {t t' : Tree}

theorem eq_of_name (distinct : (fields.map Field.name).Nodup) {f g : Field} (member : f ∈ fields)
    (member' : g ∈ fields) (same : g.name = f.name) : g = f :=
  List.inj_on_of_nodup_map distinct member' member same

/-- A member that is edited inside is found edited, and the others as they were. -/
theorem known?_inside (distinct : (fields.map Field.name).Nodup) (member : f ∈ fields)
    (edit : f.Edit t t') (ms : List (Text × Tree)) :
    Option.Rel (fun fs fs' => ∀ g ∈ fields, g.Same (fs.lookup g.name) (fs'.lookup g.name))
      (known? (fields.map Field.name) ((some f.name, t) :: ms))
      (known? (fields.map Field.name) ((some f.name, t') :: ms)) := by
  rw [known?_cons, known?_cons]
  cases known? (fields.map Field.name) ms with
  | none => exact .none
  | some fs =>
      show Option.Rel _ (join? _ f.name t fs) (join? _ f.name t' fs)
      unfold join?
      rw [if_pos (List.mem_map_of_mem member), if_pos (List.mem_map_of_mem member)]
      split_ifs
      · exact .none
      · refine .some fun g member' => ?_
        rw [lookup_cons_eq, lookup_cons_eq]
        split_ifs with same
        · obtain rfl := eq_of_name distinct member member' same
          exact .edited edit
        · exact .unchanged _

/-- A member that is left out is found to be missing, and the others as they were. -/
theorem known?_leftOut (distinct : (fields.map Field.name).Nodup) (member : f ∈ fields)
    (default : f.default? = some t) {ms : List (Text × Tree)}
    (absent : ∀ m ∈ ms, m.1 ≠ some f.name) :
    Option.Rel (fun fs fs' => ∀ g ∈ fields, g.Same (fs.lookup g.name) (fs'.lookup g.name))
      (known? (fields.map Field.name) ((some f.name, t) :: ms))
      (known? (fields.map Field.name) ms) := by
  rw [known?_cons]
  cases found : known? (fields.map Field.name) ms with
  | none => exact .none
  | some fs =>
      have missing := lookup_known? found absent
      have joined : join? (fields.map Field.name) f.name t fs = some ((f.name, t) :: fs) := by
        rw [join?, if_pos (List.mem_map_of_mem member), missing]
        rfl
      rw [Option.bind_some, joined]
      refine .some fun g member' => ?_
      rw [lookup_cons_eq]
      split_ifs with same
      · obtain rfl := eq_of_name distinct member member' same
        rw [missing]
        exact .leftOut default
      · exact .unchanged _

/-- The fields of an array up to some place, and from that place on. -/
theorem zip_append {fields : List Field} {before : List Tree}
    (there : fields[before.length]? = some f) (rest : List Tree) :
    (fields.map Field.name).zip (before ++ rest) =
      ((fields.map Field.name).take before.length).zip before ++
        (f.name :: (fields.map Field.name).drop (before.length + 1)).zip rest := by
  have names : (fields.map Field.name)[before.length]? = some f.name := by
    rw [List.getElem?_map, there, Option.map_some]
  obtain ⟨within, name⟩ := List.getElem?_eq_some_iff.1 names
  have place : ((fields.map Field.name).take before.length).length = before.length := by
    rw [List.length_take]
    omega
  rw [← List.zip_append place, ← name, ← List.drop_eq_getElem_cons within, List.take_append_drop]

/-- An item that is edited inside is found edited, and the others as they were. -/
theorem open?_insideItem (distinct : (fields.map Field.name).Nodup) {before : List Tree}
    (there : fields[before.length]? = some f) (edit : f.Edit t t') (after : List Tree) :
    Option.Rel (Alike fields) (open? (fields.map Field.name) (.arr (before ++ t :: after)))
      (open? (fields.map Field.name) (.arr (before ++ t' :: after))) := by
  have count : (before ++ t :: after).length = (before ++ t' :: after).length := by simp
  simp only [open?, count]
  split_ifs
  · refine .some ⟨rfl, fun g member => ?_⟩
    simp only [zip_append there, List.zip_cons_cons, List.lookup_append, lookup_cons_eq]
    cases List.lookup g.name _ with
    | some u => exact .unchanged _
    | none =>
        rw [Option.none_or, Option.none_or]
        split_ifs with same
        · obtain rfl := eq_of_name distinct (List.mem_of_getElem? there) member same
          exact .edited edit
        · exact .unchanged _
  · exact .none

/-- A last item that is left out is found to be missing, and the others as they were. -/
theorem open?_lastLeftOut (distinct : (fields.map Field.name).Nodup) {before : List Tree}
    (there : fields[before.length]? = some f) (default : f.default? = some t) :
    Option.Rel (Alike fields) (open? (fields.map Field.name) (.arr (before ++ [t])))
      (open? (fields.map Field.name) (.arr before)) := by
  obtain ⟨within, -⟩ := List.getElem?_eq_some_iff.1 there
  have zipped := zip_append there []
  rw [List.append_nil, List.zip_nil_right, List.append_nil] at zipped
  rw [open?, open?, if_pos (by simp; omega), if_pos (by simp; omega)]
  refine .some ⟨rfl, fun g member => ?_⟩
  simp only [zip_append there, zipped, List.zip_cons_cons, List.zip_nil_right,
    List.lookup_append, lookup_cons_eq, List.lookup_nil]
  cases List.lookup g.name _ with
  | some u => exact .unchanged _
  | none =>
      rw [Option.none_or]
      split_ifs with same
      · obtain rfl := eq_of_name distinct (List.mem_of_getElem? there) member same
        exact .leftOut default
      · exact .unchanged _

/-- **An edited record is opened alike**, or neither is opened. -/
theorem open?_edit (distinct : (fields.map Field.name).Nodup) (edit : RecordEdit fields t t') :
    Option.Rel (Alike fields) (open? (fields.map Field.name) t)
      (open? (fields.map Field.name) t') := by
  have members : ∀ {ms ms' : List (Text × Tree)},
      Option.Rel (fun fs fs' => ∀ f ∈ fields, f.Same (fs.lookup f.name) (fs'.lookup f.name))
        (known? (fields.map Field.name) ms) (known? (fields.map Field.name) ms') →
      Option.Rel (Alike fields) (open? (fields.map Field.name) (.obj ms))
        (open? (fields.map Field.name) (.obj ms')) := by
    intro ms ms' rel
    rw [open?, open?]
    generalize known? _ ms = o, known? _ ms' = o' at rel
    cases rel with
    | none => exact .none
    | some same => exact .some ⟨rfl, same⟩
  have agreeing : ∀ {ms ms' : List (Text × Tree)},
      Option.Rel Agree (known? (fields.map Field.name) ms) (known? (fields.map Field.name) ms') →
      Option.Rel (Alike fields) (open? (fields.map Field.name) (.obj ms))
        (open? (fields.map Field.name) (.obj ms')) := by
    intro ms ms' rel
    apply members
    generalize known? _ ms = o, known? _ ms' = o' at rel
    cases rel with
    | none => exact .none
    | some agree =>
        refine .some fun f _ => ?_
        rw [agree f.name]
        exact .unchanged _
  cases edit with
  | reordered perm => exact agreeing (known?_perm perm)
  | @unknown ms key t fresh =>
      apply agreeing
      have skipped : join? (fields.map Field.name) key t = some := funext fun fs => if_neg fresh
      rw [known?_cons, skipped, Option.bind_fun_some]
      exact agree_refl _
  | leftOut member default absent => exact members (known?_leftOut distinct member default absent)
  | inside member edit => exact members (known?_inside distinct member edit _)
  | lastLeftOut there default => exact open?_lastLeftOut distinct there default
  | insideItem there edit => exact open?_insideItem distinct there edit _

/-! ## Decoders -/

variable {r r' : Record} {decode : Decoder α}

/-- A decoder that decodes a record by what it holds decodes an edited one the same. -/
theorem bind_edit {names : List String} {read : Record → Option α}
    (named : fields.map Field.name = names) (distinct : names.Nodup)
    (edit : RecordEdit fields t t') (alike : ∀ r r', Alike fields r r' → read r = read r') :
    (open? names t).bind read = (open? names t').bind read := by
  subst named
  have rel := open?_edit distinct edit
  generalize open? _ t = o, open? _ t' = o' at rel
  cases rel with
  | none => rfl
  | some same => exact alike _ _ same

/-- A field that may not be left out is decoded the same. -/
theorem Alike.required? (alike : Alike fields r r') (f : Field) (member : f ∈ fields)
    (needed : f.default? = none) (keeps : ∀ t t', f.Edit t t' → decode t = decode t') :
    r.required? f.name decode = r'.required? f.name decode := by
  have same := alike.same f member
  rw [Record.required?, Record.required?]
  generalize r.fields.lookup f.name = o, r'.fields.lookup f.name = o' at same
  cases same with
  | unchanged => rfl
  | edited edit => exact keeps _ _ edit
  | leftOut default => rw [needed] at default; cases default

/-- A field that may be left out is decoded the same. -/
theorem Alike.defaulted? {x : α} (alike : Alike fields r r') (f : Field) (member : f ∈ fields)
    (written : f.default? = some t) (means : decode t = some x)
    (keeps : ∀ t t', f.Edit t t' → decode t = decode t') :
    r.defaulted? f.name x decode = r'.defaulted? f.name x decode := by
  have same := alike.same f member
  rw [Record.defaulted?, Record.defaulted?]
  generalize r.fields.lookup f.name = o, r'.fields.lookup f.name = o' at same
  cases same with
  | unchanged => rfl
  | edited edit => exact keeps _ _ edit
  | leftOut default =>
      rw [written] at default
      cases default
      exact means

end Record

namespace Decoder

variable {decode : Decoder α} {edit : Tree → Tree → Prop}

/-- Lists are decoded the same when their items are. -/
theorem list_edit (keeps : ∀ t t', edit t t' → decode t = decode t') {t t' : Tree}
    (edited : ListEdit edit t t') : list decode t = list decode t' := by
  cases edited with
  | @item before after t t' edited =>
      show items decode (before ++ t :: after) = items decode (before ++ t' :: after)
      induction before with
      | nil => rw [List.nil_append, List.nil_append, items, items, keeps t t' edited]
      | cons u before ih => rw [List.cons_append, List.cons_append, items, items, ih]

/-- A record that may be null is decoded the same when the record is. -/
theorem nullable_edit {fields : List Field} {t t' : Tree} (edit : RecordEdit fields t t')
    (same : decode t = decode t') : nullable decode t = nullable decode t' := by
  cases edit <;> exact congrArg (Option.map some) same

end Decoder
end Flowgraph.Json
