/- # Flowgraph.Proofs.Run.Published -- how long a published value is read

What an owner published is read under its name from then on, as long as no later call of
the same owner takes it away (`Shared.last_published_is_read`).  A call can do so in two
ways.  It may write where the value is, above it or below it; names are compared by the
key texts of their paths here, because `0` and `["0"]` lead to one member of an object.
Or it may replace an array that the name leads through: the first publications decide
whether there is an object or an array at a place, a later name that goes on by a key from
a place where there is an array puts an object there, and a result does so with an array
in the place of the whole node (`Call.Spares`).
-/
import Flowgraph.Proofs.Run.Namespaces

set_option autoImplicit false

namespace Flowgraph

/-- The publication of a value by an owner. -/
def Owner.publish : Owner → String → Value → Call
  | .node id, key, v => .publishNode id key v
  | .output, name, v => .publishOutput name v

@[simp] theorem Owner.owner?_publish (owner : Owner) (name : String) (v : Value) :
    (owner.publish name v).owner? = some owner := by
  cases owner <;> rfl

/-- A call leaves what is at a path in the part of its owner: it writes apart from it and
displaces no array on the way to it. -/
def Call.Spares (part : Option Value) (p : Path) : Call → Prop
  | .snapshot | .get _ => True
  | .publishNode _ name _ | .publishOutput name _ =>
    ∀ q, Path.parse name = .ok q → q.Apart p ∧ ¬ (part.getD .null).Displaces q p
  | .publishResult _ result =>
    (∃ members first rest, result.root = .obj members ∧ p = first :: rest ∧
      first.keyText ∉ Members.keys members) ∧ ∀ items, part ≠ some (.arr items)

namespace Owner

variable {owner : Owner} {part : Option Value} {name : String} {p : Path} {v w : Value}

/-- Where the part of an owner is, as a path. -/
def place : Owner → Path
  | .node id => [.key "nodes", .key id.toText]
  | .output => [.key "workflow", .key "output"]

theorem parse_below (owner : Owner) {q : Path} :
    Path.parse (owner.path ++ "." ++ name) = .ok q ↔
      ∃ p, Path.parse name = .ok p ∧ q = owner.place ++ p := by
  cases owner with
  | node id => exact Path.parse_node_iff
  | output => exact Path.parse_output_iff

theorem respond_publish (responded : respond part (owner.publish name v) = .ok w) :
    ∃ p, Path.parse name = .ok p ∧ w = (part.getD .null).assign p v := by
  have placed : Value.place part (owner.path ++ "." ++ name) v = .ok w := by
    cases owner with
    | node id => exact responded
    | output =>
        simp only [publish, respond] at responded
        split at responded
        · cases responded
        · exact responded
  unfold Value.place at placed
  split at placed
  · cases placed
  · rename_i q parsed
    obtain ⟨p, named, rfl⟩ := (parse_below owner).1 parsed
    split at placed
    · cases placed
    · refine ⟨p, named, ?_⟩
      cases owner <;> exact (Except.ok.inj placed).symm

/-- What a call spares is still there after it. -/
theorem respond_spared {c : Call} {found : Value} (mine : c.owner? = some owner)
    (responded : respond part c = .ok w) (held : part.bind (·.at? p) = some found)
    (spares : c.Spares part p) : w.at? p = some found := by
  obtain ⟨u, rfl, here⟩ := Option.bind_eq_some_iff.1 held
  have published (name : String) (new : Value) (publishes : c = owner.publish name new)
      (spared : ∀ q, Path.parse name = .ok q → q.Apart p ∧ ¬ u.Displaces q p) :
      w.at? p = some found := by
    subst publishes
    obtain ⟨q, parsed, rfl⟩ := respond_publish responded
    obtain ⟨apart, kept⟩ := spared q parsed
    exact Value.at?_assign_apart new here apart kept
  cases c with
  | snapshot | get => cases mine
  | publishNode id key new =>
      cases mine
      exact published key new rfl spares
  | publishOutput name new =>
      cases mine
      exact published name new rfl spares
  | publishResult id result =>
      obtain ⟨⟨ms, s, rest, members, rfl, other⟩, kept⟩ := spares
      cases responded
      rw [Value.mergeOver, members]
      exact Value.at?_merge_obj here other fun items array => kept items (congrArg some array)

end Owner

namespace Shared

variable {inputs : RunInputs} {parts : Parts} {owner : Owner} {name : String} {p : Path} {v : Value}

/-- What is read below the place of an owner is what its part holds. -/
theorem get?_below (parsed : Path.parse name = .ok p) :
    (compose inputs parts).get? (owner.path ++ "." ++ name) =
      (parts.of owner).bind (·.at? p) := by
  have place : Path.parse owner.path = .ok owner.place := by
    cases owner with
    | node id => exact Path.parse_nodePath id
    | output => rfl
  have part : (compose inputs parts).document.root.at? owner.place = parts.of owner := by
    have read := @get?_compose inputs parts owner
    rwa [get?, Document.get?, place] at read
  rw [get?, Document.get?, owner.parse_below.2 ⟨p, parsed, rfl⟩]
  change Value.at? _ (owner.place ++ p) = _
  rw [Value.at?_append, part]

/-- One accepted or refused call. -/
theorem held_after {c : Call} (held : (parts.of owner).bind (·.at? p) = some v)
    (spares : c.owner? = some owner → ((compose inputs parts).answer c).1 = .done (.ok ()) →
      c.Spares (parts.of owner) p) : ((parts.after c).of owner).bind (·.at? p) = some v := by
  rw [Parts.of_after]
  split
  · rename_i mine
    rw [answer_compose mine] at spares
    cases responded : Owner.respond (parts.of owner) c with
    | error e => rwa [Owner.next, responded]
    | ok w =>
        rw [Owner.next, responded]
        rw [responded] at spares
        exact Owner.respond_spared mine responded held (spares mine rfl)
  · exact held

/-- A run of calls. -/
theorem held_calls {later : List Call} (held : (parts.of owner).bind (·.at? p) = some v)
    (spares : ∀ early c late, later = early ++ c :: late → c.owner? = some owner →
      (((compose inputs parts).after early).answer c).1 = .done (.ok ()) →
      c.Spares (((compose inputs parts).after early).get? owner.path) p) :
    ((later.foldl Parts.after parts).of owner).bind (·.at? p) = some v := by
  induction later generalizing parts with
  | nil => exact held
  | cons c rest ih =>
      refine ih (@held_after inputs _ _ _ _ _ held fun mine accepted => ?_)
        fun early d late split mine accepted => ?_
      · have first := spares [] c rest rfl mine accepted
        rwa [after, List.foldl_nil, get?_compose] at first
      · have step : (compose inputs parts).after (c :: early) =
            (compose inputs (parts.after c)).after early := by
          rw [after, List.foldl_cons, answer_snd_compose, after]
        have next := spares (c :: early) d late (by rw [split, List.cons_append]) mine
        rw [step] at next
        exact next accepted

end Shared

/-- **A published value is read until it is taken away.**  When a publication is accepted and no
later accepted call of its owner fails to spare it, the document returns the value under its
name, whoever else called what before and since. -/
theorem Shared.last_published_is_read (inputs : RunInputs) (owner : Owner) (before later : List Call)
    {name : String} {v : Value} {p : Path} (parsed : Path.parse name = .ok p)
    (accepted : (((start inputs).after before).answer (owner.publish name v)).1 = .done (.ok ()))
    (spared : ∀ early c late, later = early ++ c :: late → c.owner? = some owner →
      let shared := (start inputs).after (before ++ owner.publish name v :: early)
      (shared.answer c).1 = .done (.ok ()) → c.Spares (shared.get? owner.path) p) :
    ((start inputs).after (before ++ owner.publish name v :: later)).get?
      (owner.path ++ "." ++ name) = some v := by
  let parts := before.foldl Parts.after .none
  have composed (calls : List Call) : (start inputs).after (before ++ owner.publish name v :: calls) =
      (compose inputs (parts.after (owner.publish name v))).after calls := by
    rw [start_after, after_compose, List.foldl_append, List.foldl_cons]
  have held : ((parts.after (owner.publish name v)).of owner).bind (·.at? p) = some v := by
    rw [start_after, answer_compose (owner.owner?_publish name v)] at accepted
    rw [Parts.of_after, if_pos (owner.owner?_publish name v)]
    cases responded : Owner.respond (parts.of owner) (owner.publish name v) with
    | error e => simp [parts, responded, Except.map] at accepted
    | ok w =>
        obtain ⟨q, again, rfl⟩ := Owner.respond_publish responded
        cases parsed.symm.trans again
        rw [Owner.next, responded]
        exact Value.at?_assign_self _ _ _
  rw [composed, after_compose, get?_below parsed]
  refine @held_calls inputs _ _ _ _ _ held fun early c late split mine => ?_
  rw [← composed]
  exact spared early c late split mine

/-- An item stays when a member is published beside the array it is in. -/
theorem Shared.item_outlives_member :
    let other : Call := .publishOutput "other" (.bool false)
    ((start .empty).after ([.publishOutput "list[0]" .null] ++
        Owner.output.publish "list[1]" (.bool true) :: [other])).get?
      (Owner.output.path ++ "." ++ "list[1]") = some (.bool true) := by
  intro other
  refine last_published_is_read .empty .output [.publishOutput "list[0]" .null] [other]
    (p := [.key "list", .index 1]) rfl rfl ?_
  intro early c late split mine
  obtain ⟨rfl, rfl, rfl⟩ : early = [] ∧ c = other ∧ late = [] := by
    cases early <;> simp_all
  rintro shared - q parsed
  obtain rfl : [.key "other"] = q := Except.ok.inj parsed
  have part : (shared.get? Owner.output.path).getD .null =
      .obj [("list", .arr [.null, .bool true])] := rfl
  rw [part]
  refine ⟨by decide, ?_⟩
  rintro ⟨way, way', key, rest, rest', items, leads, -, same, array⟩
  -- The name `other` has one segment only, so an array would have to be in place of all outputs.
  cases way' with
  | nil =>
      cases way with
      | nil => cases array
      | cons => cases same
  | cons => simp at leads

/-- A name that goes on by a key where there is an array takes the array away, though neither
name is a prefix of the other. -/
theorem Shared.member_replaces_array :
    let shared := start .empty
    let calls : List Call := [.publishOutput "0" (.str "first"), .publishOutput "x" (.str "second")]
    shared.answers calls = [.done (.ok ()), .done (.ok ())] ∧
      Path.parse "0" = .ok [.index 0] ∧ Path.parse "x" = .ok [.key "x"] ∧
      ¬ [Segment.index 0] <+: [.key "x"] ∧ ¬ [Segment.key "x"] <+: [.index 0] ∧
      (shared.after calls).get? "workflow.output.0" = none :=
  ⟨rfl, rfl, rfl, by decide, by decide, rfl⟩

end Flowgraph
