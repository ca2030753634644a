/- # Flowgraph.Proofs.Json.Records -- written records are read back

A form is read as something by a decoder (`Form.Reads`) if what it says is decoded so.
Lists, things that may be missing and records are read as their parts are: a record is
opened with just the fields that were written (`Record.open?_written`), so what a decoder
finds under a name is what the form of that name says.

A form has a value in some room (`Form.Valued`) if what it says has one.  The forms that are
written have one as soon as there is room for the containers inside each other.
-/
import Flowgraph.Json.Record
import Flowgraph.Proofs.Json.Values

set_option autoImplicit false

namespace Flowgraph.Json

variable {α : Type}

namespace Form

/-- A form says something that is decoded as `x`. -/
def Reads (f : Form) (decode : Decoder α) (x : α) : Prop :=
  ∃ t, f.tree? = some t ∧ decode t = some x

/-- A form says something that has a value, nested no deeper than `room`. -/
def Valued (f : Form) (room : Nat) : Prop := ∃ t v, f.tree? = some t ∧ t.value? room = some v

section Reads

variable {decode : Decoder α} {form : α → Form} {xs : List α} {x : α} {f : Form}

theorem reads_str (s : String) : (str s).Reads Decoder.text s := ⟨_, tree?_str s, rfl⟩

theorem reads_bool (b : Bool) : (bool b).Reads Decoder.bool b := ⟨_, tree?_bool b, rfl⟩

theorem reads_list (each : ∀ x ∈ xs, (form x).Reads decode x) :
    (arr (xs.map form)).Reads (Decoder.list decode) xs := by
  have all : ∃ ts, trees? (xs.map form) = some ts ∧ Decoder.items decode ts = some xs := by
    induction xs with
    | nil => exact ⟨[], rfl, rfl⟩
    | cons x xs ih =>
        obtain ⟨t, tree, decoded⟩ := each x List.mem_cons_self
        obtain ⟨ts, trees, later⟩ := ih fun y member => each y (List.mem_cons_of_mem _ member)
        refine ⟨t :: ts, ?_, ?_⟩
        · rw [List.map_cons, trees?, tree, trees]
        · rw [Decoder.items, decoded, later]
  obtain ⟨ts, trees, decoded⟩ := all
  refine ⟨.arr ts, ?_, decoded⟩
  rw [tree?, trees, Option.map_some]

/-- Something that is never decoded from null may be missing. -/
theorem reads_option {o : Option α} (never : decode .null = none)
    (each : ∀ x ∈ o, (form x).Reads decode x) :
    (option form o).Reads (Decoder.nullable decode) o := by
  cases o with
  | none => exact ⟨.null, rfl, rfl⟩
  | some x =>
      obtain ⟨t, tree, decoded⟩ := each x rfl
      refine ⟨t, tree, ?_⟩
      cases t with
      | null => rw [never] at decoded; cases decoded
      | _ => rw [Decoder.nullable, decoded, Option.map_some]; exact nofun

theorem Reads.said (reads : f.Reads decode x) : ∃ t, f.tree? = some t :=
  let ⟨t, tree, _⟩ := reads
  ⟨t, tree⟩

theorem reads_text_option (o : Option String) :
    (option str o).Reads (Decoder.nullable Decoder.text) o :=
  reads_option rfl fun s _ => reads_str s

/-- A form that says something says it in both of its texts. -/
theorem readTree_texts {t : Tree} (tree : f.tree? = some t) :
    readTree f.toText.toList = some t ∧ readTree f.toPretty.toList = some t := by
  obtain ⟨compacted, indented⟩ := readTree_layouts f t tree
  rw [toText, toPretty, String.toList_ofList, String.toList_ofList]
  exact ⟨compacted, indented 0⟩

/-- A form that is read is read from both of its texts. -/
theorem Reads.texts (reads : f.Reads decode x) :
    (readTree f.toText.toList).bind decode = some x ∧
      (readTree f.toPretty.toList).bind decode = some x := by
  obtain ⟨t, tree, decoded⟩ := reads
  obtain ⟨compacted, indented⟩ := readTree_texts tree
  rw [compacted, indented]
  exact ⟨decoded, decoded⟩

end Reads

section Valued

variable {room : Nat}

theorem valued_str (s : String) (room : Nat) : (str s).Valued room := ⟨_, _, tree?_str s, rfl⟩

theorem valued_bool (b : Bool) (room : Nat) : (bool b).Valued room := ⟨_, _, tree?_bool b, rfl⟩

theorem valued_text_option (o : Option String) (room : Nat) : (option str o).Valued room := by
  cases o with
  | none => exact ⟨_, _, tree?_null, rfl⟩
  | some s => exact valued_str s room

theorem valued_value {v : Value} (distinct : v.Distinct) (back : v.FloatsReadBack)
    (depth : (form v).depth ≤ room) : (form v).Valued room :=
  ⟨_, _, tree?_form v back, Tree.value?_ofValue v room distinct depth⟩

theorem valued_arr {items : List Form} (each : ∀ f ∈ items, f.Valued room) :
    (arr items).Valued (room + 1) := by
  have all : ∃ ts vs, trees? items = some ts ∧ Tree.values? room ts = some vs := by
    induction items with
    | nil => exact ⟨[], [], rfl, rfl⟩
    | cons f items ih =>
        obtain ⟨t, v, tree, value⟩ := each f List.mem_cons_self
        obtain ⟨ts, vs, trees, values⟩ := ih fun g member => each g (List.mem_cons_of_mem _ member)
        refine ⟨t :: ts, v :: vs, ?_, ?_⟩
        · rw [trees?, tree, trees]
        · rw [Tree.values?, value, values]
  obtain ⟨ts, vs, trees, values⟩ := all
  refine ⟨.arr ts, .arr vs, ?_, ?_⟩
  · rw [tree?, trees, Option.map_some]
  · rw [Tree.value?, if_neg (Nat.succ_ne_zero room), Nat.add_sub_cancel, values, Option.map_some]

theorem valued_obj {members : List (String × Form)} (each : ∀ m ∈ members, m.2.Valued room) :
    (obj members).Valued (room + 1) := by
  have all : ∃ ts ms, memberTrees? members = some ts ∧ Tree.members? room ts = some ms := by
    induction members with
    | nil => exact ⟨[], [], rfl, rfl⟩
    | cons m members ih =>
        obtain ⟨t, v, tree, value⟩ := each m List.mem_cons_self
        obtain ⟨ts, ms, trees, values⟩ := ih fun g member => each g (List.mem_cons_of_mem _ member)
        refine ⟨(some m.1, t) :: ts, (m.1, v) :: ms, ?_, ?_⟩
        · rw [memberTrees?, tree, trees]
        · simp only [Tree.members?, value, values]
  obtain ⟨ts, ms, trees, values⟩ := all
  refine ⟨.obj ts, .obj (Members.ofList ms), ?_, ?_⟩
  · rw [tree?, trees, Option.map_some]
  · rw [Tree.value?, if_neg (Nat.succ_ne_zero room), Nat.add_sub_cancel, values, Option.map_some]

end Valued

end Form

/-! ## Records -/

namespace Record

/-- A record holds under the name of each member what its form says. -/
def Holds (r : Record) (members : List (String × Form)) : Prop :=
  ∀ m ∈ members, r.fields.lookup m.1 = m.2.tree?

/-- Members with different known keys are all found. -/
theorem known?_written {names : List String} {fields : List (String × Tree)}
    (known : ∀ f ∈ fields, f.1 ∈ names) (distinct : (fields.map Prod.fst).Nodup) :
    known? names (fields.map fun f => (some f.1, f.2)) = some fields := by
  induction fields with
  | nil => rfl
  | cons f fields ih =>
      rw [List.map_cons, List.nodup_cons] at distinct
      have later := ih (fun g member => known g (List.mem_cons_of_mem _ member)) distinct.2
      have fresh : fields.lookup f.1 = none := by
        rw [List.lookup_eq_none_iff]
        intro g member
        rw [bne_iff_ne]
        rintro same
        exact distinct.1 (same ▸ List.mem_map_of_mem member)
      rw [List.map_cons, known?, later]
      simp [known f List.mem_cons_self, fresh]

theorem memberTrees?_written {members : List (String × Form)}
    (distinct : (members.map Prod.fst).Nodup) (said : ∀ m ∈ members, ∃ t, m.2.tree? = some t) :
    ∃ fields : List (String × Tree), fields.map Prod.fst = members.map Prod.fst ∧
      Form.memberTrees? members = some (fields.map fun f => (some f.1, f.2)) ∧
      ∀ m ∈ members, fields.lookup m.1 = m.2.tree? := by
  induction members with
  | nil => exact ⟨[], rfl, rfl, nofun⟩
  | cons m members ih =>
      rw [List.map_cons, List.nodup_cons] at distinct
      obtain ⟨t, tree⟩ := said m List.mem_cons_self
      obtain ⟨fields, keys, trees, found⟩ :=
        ih distinct.2 fun n member => said n (List.mem_cons_of_mem _ member)
      refine ⟨(m.1, t) :: fields, ?_, ?_, ?_⟩
      · rw [List.map_cons, List.map_cons, keys]
      · rw [Form.memberTrees?, tree, trees, List.map_cons]
      · intro n member
        rcases List.mem_cons.1 member with rfl | member
        · rw [List.lookup_cons, beq_self_eq_true, tree]
        · have other : (n.1 == m.1) = false := by
            rw [beq_eq_false_iff_ne]
            exact fun same => distinct.1 (same ▸ List.mem_map_of_mem member)
          rw [List.lookup_cons, other]
          exact found n member

/-- **A record that was written is opened with what was written.** -/
theorem open?_written {names : List String} {members : List (String × Form)}
    (named : members.map Prod.fst = names) (distinct : names.Nodup)
    (said : ∀ m ∈ members, ∃ t, m.2.tree? = some t) :
    ∃ t r, (Form.obj members).tree? = some t ∧ open? names t = some r ∧ r.Holds members := by
  obtain ⟨fields, keys, trees, found⟩ := memberTrees?_written (named.symm ▸ distinct) said
  rw [named] at keys
  have known : ∀ f ∈ fields, f.1 ∈ names := fun f member => keys ▸ List.mem_map_of_mem member
  refine ⟨.obj (fields.map fun f => (some f.1, f.2)), ⟨false, fields⟩, ?_, ?_, found⟩
  · rw [Form.tree?, trees, Option.map_some]
  · rw [open?, known?_written known (keys.symm ▸ distinct), Option.map_some]

section Holds

variable {r : Record} {members : List (String × Form)} {name : String} {f : Form}
  {decode : Decoder α} {x default : α}

theorem Holds.required? (holds : r.Holds members) (there : (name, f) ∈ members)
    (reads : f.Reads decode x) : r.required? name decode = some x := by
  obtain ⟨t, tree, decoded⟩ := reads
  rw [Record.required?, holds _ there, tree, Option.bind_some, decoded]

theorem Holds.defaulted? (holds : r.Holds members) (there : (name, f) ∈ members)
    (reads : f.Reads decode x) : r.defaulted? name default decode = some x := by
  obtain ⟨t, tree, decoded⟩ := reads
  rw [Record.defaulted?, holds _ there, tree]
  exact decoded

theorem Holds.optional? {o : Option α} (holds : r.Holds members)
    (there : (name, f) ∈ members) (reads : f.Reads (Decoder.nullable decode) o) :
    r.optional? name decode = some o := by
  obtain ⟨t, tree, decoded⟩ := reads
  rw [Record.optional?, holds _ there, tree]
  exact decoded

end Holds

end Record

/-- The tag of a record that was written, and the record without it. -/
theorem untagged?_written {tag name : String} {members : List (String × Form)} {t : Tree}
    (fresh : tag ∉ members.map Prod.fst) (tree : (Form.obj members).tree? = some t) :
    ∃ t', (Form.obj ((tag, .str name) :: members)).tree? = some t' ∧
      untagged? tag t' = some (.str (some name), t) := by
  obtain ⟨ts, trees, rfl⟩ := Option.map_eq_some_iff.1 tree
  have keys : ∀ m ∈ ts, m.1 ≠ some tag := by
    clear tree
    induction members generalizing ts with
    | nil =>
        cases trees
        exact nofun
    | cons m members ih =>
        rw [List.map_cons, List.mem_cons, not_or] at fresh
        rw [Form.memberTrees?] at trees
        split at trees
        · rename_i t ts' tree later
          cases trees
          intro k member
          rcases List.mem_cons.1 member with rfl | member
          · exact fun same => fresh.1 (Option.some.inj same).symm
          · exact ih fresh.2 ts' later k member
        · cases trees
  refine ⟨.obj ((some tag, .str (some name)) :: ts), ?_, ?_⟩
  · rw [Form.tree?, Form.memberTrees?, Form.tree?_str, trees, Option.map_some]
  · have none : ts.filter (fun m => m.1 == some tag) = [] := by
      rw [List.filter_eq_nil_iff]
      intro m member
      simpa using keys m member
    have all : ts.filter (fun m => m.1 != some tag) = ts := by
      rw [List.filter_eq_self]
      intro m member
      simpa using keys m member
    simp [untagged?, without, none, all]

/-- **A tagged record that was written is opened, without its tag, with what was written.** -/
theorem Record.open?_tagged {tag name : String} {names : List String}
    {members : List (String × Form)} (named : members.map Prod.fst = names)
    (distinct : (tag :: names).Nodup) (said : ∀ m ∈ members, ∃ t, m.2.tree? = some t) :
    ∃ t rest r, (Form.obj ((tag, .str name) :: members)).tree? = some t ∧
      untagged? tag t = some (.str (some name), rest) ∧ open? names rest = some r ∧
      r.Holds members := by
  rw [List.nodup_cons] at distinct
  obtain ⟨rest, r, tree, opened, holds⟩ := open?_written named distinct.2 said
  obtain ⟨t, tagged, untagged⟩ := @untagged?_written tag name _ _ (named ▸ distinct.1) tree
  exact ⟨t, rest, r, tagged, untagged, opened, holds⟩

end Flowgraph.Json
