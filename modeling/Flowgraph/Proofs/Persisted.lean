/- # Flowgraph.Proofs.Persisted -- what was written is read back

Workflows, events and notices are read back from their texts, compact or indented, and a
text of a workflow may be edited in all the ways that mean nothing
(`persisted_formats_read_back`).  Numbers with a point and times have texts of their own; of
each that occurs it is assumed that its text reads back.
-/
import Flowgraph.Proofs.Event.ReadBack
import Flowgraph.Proofs.Workflow.Edits

set_option autoImplicit false

namespace Flowgraph

open Json

/-- A written workflow is read back from both of its texts. -/
theorem Workflow.parse?_form {w : Workflow} (finite : w.FinitePositions)
    (back : w.PositionsReadBack) :
    parse? w.form.toText = some w ∧ parse? w.form.toPretty = some w :=
  (reads finite back).texts

/-- Two texts of which one is edited from the other are read as the same, if anything. -/
theorem Workflow.parse?_edits {text text' : String} {t t' : Tree}
    (before : readTree text.toList = some t) (after : readTree text'.toList = some t')
    (edits : Relation.EqvGen Edit t t') : parse? text' = parse? text := by
  rw [parse?, parse?, before, after, Option.bind_some, Option.bind_some, decode_edits edits]

/-- **Persisted formats read back.**  A workflow with finite positions, an event of any kind
and a notice of any kind are read back from what was written.  What is written for an accepted
text of a workflow is accepted, and is written for itself.  Members that are unknown, stand in
another order, or are left out instead of being written as their default change nothing. -/
theorem persisted_formats_read_back :
    (∀ w : Workflow, w.FinitePositions → w.PositionsReadBack →
      Workflow.parse? w.form.toText = some w ∧ Workflow.parse? w.form.toPretty = some w) ∧
    (∀ (text : String) (w : Workflow), Workflow.parse? text = some w →
      w.FinitePositions → w.PositionsReadBack →
        (∃ w', Workflow.parse? w.form.toText = some w' ∧ w'.form.toText = w.form.toText) ∧
        ∃ w', Workflow.parse? w.form.toPretty = some w' ∧ w'.form.toPretty = w.form.toPretty) ∧
    (∀ (text text' : String) (t t' : Tree), readTree text.toList = some t →
      readTree text'.toList = some t' → Relation.EqvGen Workflow.Edit t t' →
        Workflow.parse? text' = Workflow.parse? text) ∧
    (∀ e : Event, e.Sound → e.ReadsBack → e.form.depth ≤ maxDepth →
      Event.parse? e.form.toText = some e ∧ Event.parse? e.form.toPretty = some e) ∧
    (∀ n : Notice, n.Sound → n.FloatsReadBack → n.form.depth ≤ maxDepth →
      (readTree n.form.toText.toList).bind Notice.decode = some n ∧
        (readTree n.form.toPretty.toList).bind Notice.decode = some n) := by
  refine ⟨?_, ?_, ?_, ?_, ?_⟩
  · intro w finite back
    exact Workflow.parse?_form finite back
  · intro text w _ finite back
    obtain ⟨compacted, indented⟩ := Workflow.parse?_form finite back
    exact ⟨⟨w, compacted, rfl⟩, w, indented, rfl⟩
  · intro text text' t t' before after edits
    exact Workflow.parse?_edits before after edits
  · intro e sound back depth
    exact (Event.reads sound back depth).texts
  · intro n sound back depth
    exact (Notice.reads sound back depth).texts

/-! ## A workflow, an event and a notice -/

namespace Persisted

/-- A node with every field written, joined to itself. -/
def plan : Workflow where
  id := ⟨1⟩
  name := "plan"
  description := none
  nodes := [⟨⟨2⟩, some "first", "log", [⟨"$.a", "message"⟩], [⟨"headers", "k", "$.b"⟩],
    [⟨"r", "s"⟩], ["yes", "no"], some ⟨1.5, -0.25⟩, true⟩]
  connections := [⟨⟨2⟩, some "yes", ⟨2⟩⟩]

/-- An empty workflow. -/
def bare : Workflow := .new ⟨1⟩ "bare"

/-- The same in another order, with a member left out and one more that nobody knows. -/
def edited : Form :=
  .obj [("type", .bool true), ("nodes", .arr []), ("connections", .arr []), ("id", bare.id.form),
    ("name", .str bare.name)]

/-- Data with members that are named like the tags, one of them null. -/
def report : Notice :=
  .data "type" (.obj [("type", .null), ("event_type", .obj [("share", .num (.float 12.5 (by rfl)))])])

def reported : Event := ⟨⟨3⟩, ⟨1700000000, 123000000⟩, .node ⟨2⟩ (.notice report)⟩

theorem plan_finite : plan.FinitePositions := by
  intro n member p there
  simp only [plan, List.mem_singleton] at member
  subst member
  cases there
  exact ⟨by decide +kernel, by decide +kernel⟩

theorem plan_readsBack : plan.PositionsReadBack := by
  intro n member p there
  simp only [plan, List.mem_singleton] at member
  subst member
  cases there
  exact ⟨.of_text (by decide +kernel), .of_text (by decide +kernel)⟩

theorem report_sound : report.Sound where
  finite := nofun
  distinct := by
    rintro key value ⟨⟩
    simp [Value.Distinct, Value.DistinctMembers]

theorem report_readsBack : report.FloatsReadBack := by
  have share : FloatReadsBack 12.5 := @FloatReadsBack.of_text 12.5 (by rfl) (by decide +kernel)
  simp [report, Notice.FloatsReadBack, Value.FloatsReadBack, Value.FloatsReadBackMembers, share]

theorem reported_sound : reported.Sound where
  duration := nofun
  notice := by
    rintro n ⟨⟩
    exact report_sound

theorem reported_readsBack : reported.ReadsBack where
  time := by decide +kernel
  notice := by
    rintro n ⟨⟩
    exact report_readsBack

/-- The members in another order, a description that is null left out, an unknown one added. -/
theorem bare_edited : ∃ t t', bare.form.tree? = some t ∧ edited.tree? = some t' ∧
    Relation.EqvGen Workflow.Edit t t' := by
  let named : List (Text × Tree) :=
    [(some "id", .str (some bare.id.toText)), (some "name", .str (some "bare"))]
  let lists : List (Text × Tree) := [(some "nodes", .arr []), (some "connections", .arr [])]
  have moved : Workflow.Edit (.obj (named ++ (some "description", .null) :: lists))
      (.obj ((some "description", .null) :: lists ++ named)) :=
    .reordered List.perm_append_comm
  have shorter : Workflow.Edit (.obj ((some "description", .null) :: lists ++ named))
      (.obj (lists ++ named)) :=
    .leftOut (f := { name := "description", default? := some .null })
      (by simp [Workflow.editable]) rfl (by simp [lists, named])
  have longer : Workflow.Edit (.obj (lists ++ named))
      (.obj ((some "type", .bool true) :: (lists ++ named))) :=
    .unknown (by decide)
  refine ⟨_, _, ?_, ?_, .trans _ _ _ (.rel _ _ moved) (.trans _ _ _ (.rel _ _ shorter)
    (.rel _ _ longer))⟩
  · simp [bare, Workflow.new, Workflow.form, Uuid.form, Form.tree?, Form.memberTrees?, Form.trees?,
      Form.option, named, lists]
  · simp [edited, bare, Workflow.new, Uuid.form, Form.tree?, Form.memberTrees?, Form.trees?, named,
      lists]

/-- A plan and a report are read back, and the edits of the bare workflow change nothing. -/
theorem plan_and_report_read_back :
    (Workflow.parse? plan.form.toText = some plan ∧ Workflow.parse? plan.form.toPretty = some plan) ∧
    (∃ w', Workflow.parse? plan.form.toText = some w' ∧ w'.form.toText = plan.form.toText) ∧
    Workflow.parse? edited.toText = Workflow.parse? bare.form.toText ∧
    Event.parse? reported.form.toText = some reported ∧
    (readTree report.form.toText.toList).bind Notice.decode = some report := by
  have written := persisted_formats_read_back.1 plan plan_finite plan_readsBack
  have rewritten := persisted_formats_read_back.2.1 _ plan written.2 plan_finite plan_readsBack
  obtain ⟨t, t', tree, tree', edits⟩ := bare_edited
  have changed := persisted_formats_read_back.2.2.1 _ _ t t' (Form.readTree_texts tree).1
    (Form.readTree_texts tree').1 edits
  have told := persisted_formats_read_back.2.2.2.1 reported reported_sound reported_readsBack
    (by decide)
  have noted := persisted_formats_read_back.2.2.2.2 report report_sound report_readsBack (by decide)
  exact ⟨written, rewritten.1, changed, told.1, noted.1⟩

end Persisted
end Flowgraph
