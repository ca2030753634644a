/- # Flowgraph.Proofs.Event.ReadBack -- written events are read back

What a function reports is a tagged record (`Notice.reads`), and an event is a tagged record
that may hold one (`Event.reads`).  The tag of either stands in front of its members, none of
which has the tag's name; the data of a notice lies deeper and may hold members of any name.
An event is read only if its text is a value as a whole, so there must be room for the
containers of its data (`Event.valued`).
-/
import Flowgraph.Event.Format
import Flowgraph.Proofs.Workflow.ReadBack

set_option autoImplicit false

namespace Flowgraph

open Json

/-! ## Numbers and times -/

theorem reads_natForm {n : Nat} (small : n < 0x10000000000000000) :
    (natForm n).Reads Decoder.unsigned n := by
  have bounds : WordRange n := ⟨by omega, by omega⟩
  refine ⟨.num (some (.int n bounds)), Number.readTree_toDigits bounds, ?_⟩
  simp [Decoder.unsigned, Decoder.number, Number.toUnsigned?]

theorem valued_natForm {n : Nat} (small : n < 0x10000000000000000) (room : Nat) :
    (natForm n).Valued room := by
  have bounds : WordRange n := ⟨by omega, by omega⟩
  exact ⟨_, _, Number.readTree_toDigits bounds, rfl⟩

theorem tree?_floatForm {x : Float} (finite : x.isFinite = true) (back : FloatReadsBack x) :
    (floatForm x).tree? = some (.num (some (.float x finite))) := by
  have text : floatText? x = some (doubleFormat.signed (signBit x) (Binary.ofFloat x)) :=
    if_pos finite
  obtain ⟨_, there⟩ := back.tree text
  rw [floatForm, text]
  exact there

theorem Instant.reads {t : Instant} (back : Instant.parse? t.toZulu = some t) :
    t.form.Reads Instant.decode t := by
  refine ⟨.str (some t.toZulu), Form.tree?_str t.toZulu, ?_⟩
  show (some t.toZulu).bind parse? = some t
  rw [Option.bind_some, back]

/-! ## What functions report -/

namespace Notice

/-- What a function can report: percentages and data that are values. -/
structure Sound (n : Notice) : Prop where
  finite : ∀ percent message, n = .progress percent message → percent.isFinite = true
  distinct : ∀ key value, n = .data key value → value.Distinct

/-- The doubles in a notice are read back from their texts. -/
def FloatsReadBack : Notice → Prop
  | .info _ => True
  | .warning _ => True
  | .progress percent _ => FloatReadsBack percent
  | .data _ value => value.FloatsReadBack

theorem reads_floatForm {x : Float} (finite : x.isFinite = true) (back : FloatReadsBack x) :
    (floatForm x).Reads Decoder.float x :=
  ⟨_, tree?_floatForm finite back, rfl⟩

variable {n : Notice}

/-- A notice with a message only, as it is written and as it is read. -/
theorem message_written (tag message : String) : ∃ t rest r,
    (Form.obj [("event_type", .str tag), ("message", .str message)]).tree? = some t ∧
      untagged? "event_type" t = some (.str (some tag), rest) ∧
      Record.open? ["message"] rest = some r ∧
      r.required? "message" Decoder.text = some message := by
  obtain ⟨t, rest, r, tree, untagged, opened, holds⟩ : ∃ t rest r,
      (Form.obj [("event_type", .str tag), ("message", .str message)]).tree? = some t ∧
      untagged? "event_type" t = some (.str (some tag), rest) ∧
      Record.open? ["message"] rest = some r ∧ r.Holds _ :=
    Record.open?_tagged rfl (by decide) (by simp)
  exact ⟨t, rest, r, tree, untagged, opened, holds.required? (by simp) (Form.reads_str _)⟩

/-- **A notice is read back from its form.** -/
theorem reads (sound : n.Sound) (back : n.FloatsReadBack) (depth : n.form.depth ≤ maxDepth) :
    n.form.Reads decode n := by
  cases n with
  | info message =>
      obtain ⟨t, rest, r, tree, untagged, opened, found⟩ := message_written "Info" message
      refine ⟨t, tree, ?_⟩
      simp [decode, untagged, nestedVariant?, variant?, variants, opened, found]
  | warning message =>
      obtain ⟨t, rest, r, tree, untagged, opened, found⟩ := message_written "Warning" message
      refine ⟨t, tree, ?_⟩
      simp [decode, untagged, nestedVariant?, variant?, variants, opened, found]
  | progress percent message =>
      have readsPercent := reads_floatForm (sound.finite percent message rfl) back
      have readsMessage := Form.reads_text_option message
      obtain ⟨t, rest, r, tree, untagged, opened, holds⟩ : ∃ t rest r,
          (progress percent message).form.tree? = some t ∧
          untagged? "event_type" t = some (.str (some "Progress"), rest) ∧
          Record.open? ["percent", "message"] rest = some r ∧ r.Holds _ :=
        Record.open?_tagged rfl (by decide) (by simp [readsPercent.said, readsMessage.said])
      have percent' : r.required? "percent" Decoder.float = some percent :=
        holds.required? (by simp) readsPercent
      have message' : r.optional? "message" Decoder.text = some message :=
        holds.optional? (by simp) readsMessage
      refine ⟨t, tree, ?_⟩
      simp [decode, untagged, nestedVariant?, variant?, variants, opened, percent', message']
  | data key value =>
      -- the data lies one container deeper than the notice
      have readsValue : (Json.form value).Reads (Tree.value? maxDepth) value := by
        refine ⟨Tree.ofValue value, tree?_form value back, ?_⟩
        apply Tree.value?_ofValue value _ (sound.distinct key value rfl)
        simp [form, Form.depth, Form.depthMembers] at depth
        omega
      obtain ⟨t, rest, r, tree, untagged, opened, holds⟩ : ∃ t rest r,
          (data key value).form.tree? = some t ∧
          untagged? "event_type" t = some (.str (some "Data"), rest) ∧
          Record.open? ["key", "value"] rest = some r ∧ r.Holds _ :=
        Record.open?_tagged rfl (by decide) (by simp [readsValue.said])
      have key' : r.required? "key" Decoder.text = some key :=
        holds.required? (by simp) (Form.reads_str _)
      have value' : r.required? "value" (Tree.value? maxDepth) = some value :=
        holds.required? (by simp) readsValue
      refine ⟨t, tree, ?_⟩
      simp [decode, untagged, nestedVariant?, variant?, variants, opened, key', value']

theorem valued {room : Nat} (sound : n.Sound) (back : n.FloatsReadBack)
    (depth : n.form.depth ≤ room + 1) : n.form.Valued (room + 1) := by
  cases n with
  | info message =>
      apply Form.valued_obj
      simp [Form.valued_str]
  | warning message =>
      apply Form.valued_obj
      simp [Form.valued_str]
  | progress percent message =>
      have finite := sound.finite percent message rfl
      have valuedPercent : (floatForm percent).Valued room :=
        ⟨_, _, tree?_floatForm finite back, rfl⟩
      apply Form.valued_obj
      simp [Form.valued_str, Form.valued_text_option, valuedPercent]
  | data key value =>
      simp only [form, Form.depth, Form.depthMembers] at depth
      have valuedData : (Json.form value).Valued room :=
        Form.valued_value (sound.distinct key value rfl) back (by omega)
      apply Form.valued_obj
      simp [Form.valued_str, valuedData]

end Notice

/-! ## Events -/

namespace Event

/-- What a function reported, if the event is about that. -/
def notice? (e : Event) : Option Notice :=
  match e.fact with
  | .node _ (.notice n) => some n
  | _ => none

/-- How long a run or a node took, if the event is about its end. -/
def duration? (e : Event) : Option Nat :=
  match e.fact with
  | .run (.completed _ ms) => some ms
  | .node _ (.completed ms) => some ms
  | _ => none

/-- What an event can be: durations of a 64-bit word, and notices as functions report them. -/
structure Sound (e : Event) : Prop where
  duration : ∀ ms ∈ e.duration?, ms < 0x10000000000000000
  notice : ∀ n ∈ e.notice?, n.Sound

/-- The time of an event and the doubles in it are read back from their texts. -/
structure ReadsBack (e : Event) : Prop where
  time : Instant.parse? e.time.toZulu = some e.time
  notice : ∀ n ∈ e.notice?, n.FloatsReadBack

section Members

variable {execution : ExecutionId} {time : Instant} {id : NodeId} {names : List String}
  {front members : List (String × Form)} {tag : String}

/-- An event as it is written, and what is found when it is opened: its run, its time and
everything between. -/
theorem open?_written (clock : Instant.parse? time.toZulu = some time)
    (named : front.map Prod.fst ++ members.map Prod.fst = names)
    (distinct : ("type" :: ("execution_id" :: names ++ ["timestamp"])).Nodup)
    (first : ∀ m ∈ front, ∃ t, m.2.tree? = some t)
    (said : ∀ m ∈ members, ∃ t, m.2.tree? = some t) : ∃ t rest r,
      (Form.obj (("type", .str tag) :: ("execution_id", execution.form) :: (front ++ members ++
        [("timestamp", time.form)]))).tree? = some t ∧
      untagged? "type" t = some (.str (some tag), rest) ∧
      Record.open? ("execution_id" :: names ++ ["timestamp"]) rest = some r ∧
      r.required? "execution_id" Uuid.decode = some execution ∧
      r.required? "timestamp" Instant.decode = some time ∧ r.Holds (front ++ members) := by
  have readsTime := Instant.reads clock
  have all : ∀ m ∈ ("execution_id", execution.form) :: (front ++ members ++
      [("timestamp", time.form)]), ∃ t, m.2.tree? = some t := by
    simp only [List.forall_mem_append, List.forall_mem_cons]
    exact ⟨execution.reads.said, ⟨first, said⟩, readsTime.said, nofun⟩
  obtain ⟨t, rest, r, tree, untagged, opened, holds⟩ :=
    Record.open?_tagged (by simp [← named]) distinct all
  refine ⟨t, rest, r, tree, untagged, opened, ?_, ?_, ?_⟩
  · exact holds.required? (by simp) execution.reads
  · exact holds.required? (by simp) readsTime
  · intro m member
    apply holds m
    rw [List.mem_cons, List.mem_append]
    exact .inr (.inl member)

/-- An event about a run, as it is written and as it is read. -/
theorem decodeRun_written {decode : Record → Option RunFact} {fact : RunFact}
    (clock : Instant.parse? time.toZulu = some time) (named : members.map Prod.fst = names)
    (distinct : ("type" :: ("execution_id" :: names ++ ["timestamp"])).Nodup)
    (said : ∀ m ∈ members, ∃ t, m.2.tree? = some t)
    (reads : ∀ r : Record, r.Holds members → decode r = some fact) :
    ∃ t rest, (Form.obj ([("type", .str tag), ("execution_id", execution.form)] ++ members ++
        [("timestamp", time.form)])).tree? = some t ∧
      untagged? "type" t = some (.str (some tag), rest) ∧
      decodeRun names decode rest = some ⟨execution, time, .run fact⟩ := by
  obtain ⟨t, rest, r, tree, untagged, opened, execution', time', holds⟩ :=
    @open?_written execution time names [] members tag clock named distinct nofun said
  refine ⟨t, rest, tree, untagged, ?_⟩
  have opened : Record.open? (["execution_id"] ++ names ++ ["timestamp"]) rest = some r := opened
  rw [decodeRun, opened]
  simp [execution', time', reads r holds]

/-- An event about a node, as it is written and as it is read. -/
theorem decodeNode_written {decode : Record → Option NodeFact} {fact : NodeFact}
    (clock : Instant.parse? time.toZulu = some time) (named : members.map Prod.fst = names)
    (distinct : ("type" :: ("execution_id" :: "node_id" :: names ++ ["timestamp"])).Nodup)
    (said : ∀ m ∈ members, ∃ t, m.2.tree? = some t)
    (reads : ∀ r : Record, r.Holds members → decode r = some fact) :
    ∃ t rest, (Form.obj ([("type", .str tag), ("execution_id", execution.form),
        ("node_id", id.form)] ++ members ++ [("timestamp", time.form)])).tree? = some t ∧
      untagged? "type" t = some (.str (some tag), rest) ∧
      decodeNode names decode rest = some ⟨execution, time, .node id fact⟩ := by
  have said' : ∀ m ∈ [("node_id", id.form)], ∃ t, m.2.tree? = some t := by
    rw [List.forall_mem_singleton]
    exact id.reads.said
  have named' : ["node_id"] ++ members.map Prod.fst = "node_id" :: names := by rw [named]; rfl
  obtain ⟨t, rest, r, tree, untagged, opened, execution', time', holds⟩ :=
    @open?_written execution time ("node_id" :: names) [("node_id", id.form)] members tag clock
      named' distinct said' said
  refine ⟨t, rest, tree, untagged, ?_⟩
  have opened : Record.open? (["execution_id", "node_id"] ++ names ++ ["timestamp"]) rest =
    some r := opened
  have node' : r.required? "node_id" Uuid.decode = some id := holds.required? (by simp) id.reads
  have fact' : decode r = some fact := reads r fun m member => holds m (by simp [member])
  rw [decodeNode, opened]
  simp [execution', node', time', fact']

end Members

/-- **What an event is written as says its tag, and without it is decoded as the event.** -/
theorem decodeAs_form {e : Event} (sound : e.Sound) (back : e.ReadsBack)
    (depth : e.form.depth ≤ maxDepth) : ∃ tag ∈ variants, ∃ t rest, e.form.tree? = some t ∧
      untagged? "type" t = some (.str (some tag), rest) ∧ decodeAs tag rest = some e := by
  obtain ⟨execution, time, fact⟩ := e
  have clock : Instant.parse? time.toZulu = some time := back.time
  cases fact with
  | run fact =>
      cases fact with
      | started workflow entries =>
          have readsEntries := Form.reads_list fun k (_ : k ∈ entries) => k.reads
          refine ⟨"RunStarted", by decide, decodeRun_written clock rfl (by decide) ?_ ?_⟩
          · simp [RunFact.fields, workflow.reads.said, readsEntries.said]
          · intro r holds
            have workflow' : r.required? "workflow_id" Uuid.decode = some workflow :=
              holds.required? (by simp [RunFact.fields]) workflow.reads
            have entries' : r.required? "entry_nodes" (Decoder.list Uuid.decode) = some entries :=
              holds.required? (by simp [RunFact.fields]) readsEntries
            simp [workflow', entries']
      | completed success ms =>
          have readsMs := reads_natForm (sound.duration ms rfl)
          refine ⟨"RunCompleted", by decide, decodeRun_written clock rfl (by decide) ?_ ?_⟩
          · simp [RunFact.fields, readsMs.said]
          · intro r holds
            have success' : r.required? "success" Decoder.bool = some success :=
              holds.required? (by simp [RunFact.fields]) (Form.reads_bool _)
            have ms' : r.required? "duration_ms" Decoder.unsigned = some ms :=
              holds.required? (by simp [RunFact.fields]) readsMs
            simp [success', ms']
  | node id fact =>
      cases fact with
      | started function =>
          refine ⟨"NodeStarted", by decide, decodeNode_written clock rfl (by decide) ?_ ?_⟩
          · simp [NodeFact.fields]
          · intro r holds
            have function' : r.required? "function" Decoder.text = some function :=
              holds.required? (by simp [NodeFact.fields]) (Form.reads_str _)
            simp [function']
      | completed ms =>
          have readsMs := reads_natForm (sound.duration ms rfl)
          refine ⟨"NodeCompleted", by decide, decodeNode_written clock rfl (by decide) ?_ ?_⟩
          · simp [NodeFact.fields, readsMs.said]
          · intro r holds
            have ms' : r.required? "duration_ms" Decoder.unsigned = some ms :=
              holds.required? (by simp [NodeFact.fields]) readsMs
            simp [ms']
      | failed name error =>
          have readsName := Form.reads_text_option name
          refine ⟨"NodeFailed", by decide, decodeNode_written clock rfl (by decide) ?_ ?_⟩
          · simp [NodeFact.fields, readsName.said]
          · intro r holds
            have name' : r.optional? "node_name" Decoder.text = some name :=
              holds.optional? (by simp [NodeFact.fields]) readsName
            have error' : r.required? "error" Decoder.text = some error :=
              holds.required? (by simp [NodeFact.fields]) (Form.reads_str _)
            simp [name', error']
      | portFired port queued =>
          refine ⟨"PortFired", by decide, decodeNode_written clock rfl (by decide) ?_ ?_⟩
          · simp [NodeFact.fields]
          · intro r holds
            have port' : r.required? "port" Decoder.text = some port :=
              holds.required? (by simp [NodeFact.fields]) (Form.reads_str _)
            have queued' : r.required? "queued" Decoder.bool = some queued :=
              holds.required? (by simp [NodeFact.fields]) (Form.reads_bool _)
            simp [port', queued']
      | notice n =>
          have inner : n.form.depth ≤ maxDepth := by
            simp [form, NodeFact.fields, Form.depth, Form.depthMembers] at depth
            omega
          have readsNotice := Notice.reads (sound.notice n rfl) (back.notice n rfl) inner
          refine ⟨"NodeEvent", by decide, decodeNode_written clock rfl (by decide) ?_ ?_⟩
          · simp [NodeFact.fields, readsNotice.said]
          · intro r holds
            have event' : r.required? "event" Notice.decode = some n :=
              holds.required? (by simp [NodeFact.fields]) readsNotice
            simp [event']

/-- **An event is written as a value**, given room for the containers of its data. -/
theorem valued {e : Event} {room : Nat} (sound : e.Sound) (back : e.ReadsBack)
    (depth : e.form.depth ≤ room + 2) : e.form.Valued (room + 2) := by
  obtain ⟨execution, time, fact⟩ := e
  cases fact with
  | run fact =>
      apply Form.valued_obj
      cases fact with
      | started workflow entries =>
          have valuedEntries : (Form.arr (entries.map Uuid.form)).Valued (room + 1) := by
            apply Form.valued_arr
            simp [Uuid.form, Form.valued_str]
          simp [RunFact.fields, Uuid.form, Instant.form, Form.valued_str, valuedEntries]
      | completed success ms =>
          have small := sound.duration ms rfl
          simp [RunFact.fields, Uuid.form, Instant.form, Form.valued_str, Form.valued_bool,
            valued_natForm small]
  | node id fact =>
      apply Form.valued_obj
      cases fact with
      | started function =>
          simp [NodeFact.fields, Uuid.form, Instant.form, Form.valued_str]
      | completed ms =>
          have small := sound.duration ms rfl
          simp [NodeFact.fields, Uuid.form, Instant.form, Form.valued_str, valued_natForm small]
      | failed name error =>
          simp [NodeFact.fields, Uuid.form, Instant.form, Form.valued_str, Form.valued_text_option]
      | portFired port queued =>
          simp [NodeFact.fields, Uuid.form, Instant.form, Form.valued_str, Form.valued_bool]
      | notice n =>
          have inner : n.form.depth ≤ room + 1 := by
            simp [form, NodeFact.fields, Form.depth, Form.depthMembers] at depth
            omega
          have valuedNotice := Notice.valued (sound.notice n rfl) (back.notice n rfl) inner
          simp [NodeFact.fields, Uuid.form, Instant.form, Form.valued_str, valuedNotice]

/-- **An event is read back from its form.** -/
theorem reads {e : Event} (sound : e.Sound) (back : e.ReadsBack)
    (depth : e.form.depth ≤ maxDepth) : e.form.Reads decode e := by
  obtain ⟨tag, known, t, rest, tree, untagged, decoded⟩ := decodeAs_form sound back depth
  obtain ⟨t', v, tree', value⟩ := @valued e 125 sound back depth
  -- the tree that is decoded is the one that has the value
  cases tree.symm.trans tree'
  have named : variant? variants (.str (some tag)) = some tag := by simp [variant?, known]
  have whole : t.value? maxDepth = some v := value
  refine ⟨t, tree, ?_⟩
  simp [decode, whole, untagged, named, decoded]

end Event
end Flowgraph
