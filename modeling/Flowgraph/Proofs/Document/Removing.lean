/- # Flowgraph.Proofs.Document.Removing -- what a document holds after a removal

A removal walks to the container that its path ends in and takes the last segment away there: it
is a write, at the place of that container, of the container without the child
(`Value.remove_concat`).  As the container is there, the write makes nothing and replaces nothing
else on its way (`Value.at?_assign_inside`).  In an object the last member moves into the gap, so
the members are the others in some order (`Members.perm_erase`).
-/
import Flowgraph.Proofs.Document.Merging
import Flowgraph.Proofs.Document.Paths
import Flowgraph.Proofs.Document.Setting

set_option autoImplicit false

namespace Flowgraph

/-! ## Members -/

namespace Members

variable {ms ms' : Members} {key k : String} {v : Value}

theorem get?_eq_some_iff (distinct : (keys ms).Nodup) : get? key ms = some v ↔ (key, v) ∈ ms :=
  ⟨mem_of_get?, get?_of_mem distinct⟩

theorem perm_erase (found : get? key ms = some v) : ms.Perm ((key, v) :: erase key ms) := by
  induction ms with
  | nil => cases found
  | cons e rest ih =>
      obtain ⟨k, w⟩ := e
      by_cases here : k = key
      · subst here
        obtain rfl : w = v := by simpa [get?] using found
        rw [erase, if_pos rfl]
        refine List.Perm.cons _ ?_
        cases last : rest.getLast? with
        | none => rw [List.getLast?_eq_none_iff.1 last]
        | some e =>
            obtain ⟨before, rfl⟩ := List.getLast?_eq_some_iff.1 last
            simp
      · rw [get?, if_neg here] at found
        rw [erase, if_neg here]
        exact ((ih found).cons _).trans (.swap _ _ _)

theorem nodup_keys_erase (distinct : (keys ms).Nodup) (found : get? key ms = some v) :
    key ∉ keys (erase key ms) ∧ (keys (erase key ms)).Nodup :=
  List.nodup_cons.1 (((perm_erase found).map Prod.fst).nodup_iff.1 distinct)

theorem get?_erase_self (distinct : (keys ms).Nodup) (found : get? key ms = some v) :
    get? key (erase key ms) = none :=
  get?_of_notMem (nodup_keys_erase distinct found).1

theorem get?_erase_ne (distinct : (keys ms).Nodup) (found : get? key ms = some v)
    (other : k ≠ key) : get? k (erase key ms) = get? k ms := by
  ext w
  rw [get?_eq_some_iff (nodup_keys_erase distinct found).2, get?_eq_some_iff distinct,
    (perm_erase found).mem_iff]
  simp [other]

end Members

/-! ## One container -/

namespace Value

variable {v w old new : Value} {s t : Segment} {p q way rest : Path}

/-- What a segment leads to stands at a place. -/
theorem exists_below (found : v.child? s = some w) : ∃ place, v.below? place = some w := by
  cases v with
  | obj ms => exact ⟨.member s.keyText, found⟩
  | arr items =>
      cases s with
      | key k => cases found
      | index n => exact ⟨.item n, found⟩
  | _ => cases s <;> cases found

theorem Distinct.at? (distinct : v.Distinct) (here : v.at? p = some w) : w.Distinct := by
  induction p generalizing v with
  | nil =>
      cases here
      exact distinct
  | cons s rest ih =>
      rw [at?_cons, Option.bind_eq_some_iff] at here
      obtain ⟨x, found, here⟩ := here
      obtain ⟨place, found⟩ := exists_below found
      exact ih (distinct.below found) here

/-- A container without what a segment leads to. -/
def dropChild : Value → Segment → Value
  | .obj ms, s => .obj (Members.erase s.keyText ms)
  | .arr items, .index n => .arr (items.eraseIdx n)
  | v, _ => v

theorem remove_singleton (v : Value) (s : Segment) :
    remove [s] v = (v.child? s).map fun found => (found, v.dropChild s) := by
  cases v <;> cases s <;> rfl

/-- Where a segment leads somewhere, a write through it puts the value there and does no more. -/
theorem putChild_arr {items : List Value} {n : Nat} (found : items[n]? = some w) (new : Value) :
    (arr items).putChild (.index n) new = .arr (items.set n new) := by
  have inside : n < items.length := (List.getElem?_eq_some_iff.1 found).1
  simp [putChild, Value.items, padded, Nat.sub_eq_zero_of_le inside]

theorem remove_cons (v : Value) (s : Segment) (some : rest ≠ []) :
    remove (s :: rest) v = (v.child? s).bind fun w =>
      (remove rest w).map fun r => (r.1, v.putChild s r.2) := by
  obtain ⟨t, rest, rfl⟩ := List.exists_cons_of_ne_nil some
  cases v with
  | obj ms =>
      rw [remove, child?]
      cases Members.get? s.keyText ms <;> rfl
  | arr items =>
      cases s with
      | key k => rfl
      | index n =>
          rw [remove, child?]
          cases found : items[n]? with
          | none => rfl
          | some w => simp only [putChild_arr found, Option.bind_some]
  | _ => cases s <;> rfl

/-- A removal is a write of the container that the path ends in, without the child. -/
theorem remove_concat (v : Value) (way : Path) (s : Segment) :
    remove (way ++ [s]) v = (v.at? (way ++ [s])).map fun found =>
      (found, v.assign way ((v.slot way).dropChild s)) := by
  induction way generalizing v with
  | nil =>
      rw [List.nil_append, remove_singleton, at?_cons]
      cases v.child? s <;> rfl
  | cons t rest ih =>
      rw [List.cons_append, remove_cons v t (by simp), at?_cons]
      cases found : v.child? t with
      | none => rfl
      | some w =>
          simp only [Option.bind_some, ih, Option.map_map, assign_cons, slot_cons, found,
            Option.getD_some]
          rfl

/-- Where a segment leads somewhere, another segment leads to the same place, or to what it led to
before a write through the first. -/
theorem child?_putChild_there (found : v.child? s = some w) (new : Value) (t : Segment) :
    (s.keyText = t.keyText ∧ v.child? t = some w ∧ (v.putChild s new).child? t = some new) ∨
      (v.putChild s new).child? t = v.child? t := by
  cases v with
  | obj ms =>
      by_cases same : s.keyText = t.keyText
      · rw [child?] at found
        exact .inl ⟨same, by rw [child?, ← same, found], by
          rw [putChild, child?, ← same, Members.get?_put_self]⟩
      · exact .inr (Members.get?_put_ne (Ne.symm same) ms)
  | arr items =>
      cases s with
      | key k => cases found
      | index n =>
          rw [child?] at found
          rw [putChild_arr found]
          cases t with
          | key k => exact .inr rfl
          | index m =>
              by_cases same : n = m
              · subst same
                have inside : n < items.length := (List.getElem?_eq_some_iff.1 found).1
                exact .inl ⟨rfl, found, by simp [child?, inside]⟩
              · exact .inr (by simp [child?, same])
  | _ => cases s <;> cases found

theorem outline_putChild (found : v.child? s = some w) (new : Value) :
    (v.putChild s new).outline = v.outline := by
  cases v with
  | obj ms =>
      have member : s.keyText ∈ Members.keys ms :=
        List.mem_map_of_mem (f := Prod.fst) (Members.mem_of_get? found)
      rw [putChild, outline, Members.keys_put, if_pos member, outline]
  | arr items =>
      cases s with
      | key k => cases found
      | index n =>
          rw [child?] at found
          rw [putChild_arr found, outline, List.length_set, outline]
  | _ => cases s <;> cases found

/-! ## A write to what is there -/

/-- A write to a place that is there moves nothing outside that place. -/
theorem at?_assign_inside (here : v.at? way = some old)
    (beyond : ¬ Path.texts q <+: Path.texts way)
    (agree : ∀ before more, q = before ++ more → Path.texts before = Path.texts way →
      new.at? more = old.at? more) : (v.assign way new).at? q = v.at? q := by
  induction way generalizing v q with
  | nil =>
      cases here
      exact agree [] q rfl rfl
  | cons s rest ih =>
      obtain - | ⟨t, more⟩ := q
      · exact absurd List.nil_prefix beyond
      rw [at?_cons, Option.bind_eq_some_iff] at here
      obtain ⟨w, found, here⟩ := here
      rw [assign_cons, found, Option.getD_some, at?_cons, at?_cons]
      obtain ⟨same, there, put⟩ | kept := child?_putChild_there found (w.assign rest new) t
      · rw [there, put, Option.bind_some, Option.bind_some]
        refine ih here (fun shorter => beyond ?_) fun before later split alike => ?_
        · simpa [Path.texts, List.cons_prefix_cons, same] using shorter
        · refine agree (t :: before) later (by rw [split, List.cons_append]) ?_
          simpa [Path.texts, same] using alike
      · rw [kept]

/-- The containers around a place that is there keep their outlines. -/
theorem outline_at?_assign (here : v.at? (p ++ t :: rest) = some old) :
    ((v.assign (p ++ t :: rest) new).at? p).map outline = (v.at? p).map outline := by
  rw [at?_append, Option.bind_eq_some_iff] at here
  obtain ⟨c, there, here⟩ := here
  rw [at?_cons, Option.bind_eq_some_iff] at here
  obtain ⟨w, found, -⟩ := here
  have slot : v.slot p = c := by rw [slot, there, Option.getD_some]
  rw [assign_append, at?_assign_self, slot, assign_cons, there, Option.map_some, Option.map_some,
    outline_putChild found]

/-! ## Removing what is there -/

/-- After a member is taken away its path leads nowhere. -/
theorem at?_erased_self {ms : Members} (distinct : (Members.keys ms).Nodup)
    (found : Members.get? s.keyText ms = some w) :
    (v.assign way (.obj (Members.erase s.keyText ms))).at? (way ++ [s]) = none := by
  rw [at?_append, at?_assign_self, Option.bind_some, at?_cons, child?,
    Members.get?_erase_self distinct found]
  rfl

/-- After a member is taken away, what is apart from its path is what it was. -/
theorem at?_erased_apart {ms : Members} (here : v.at? way = some (.obj ms))
    (distinct : (Members.keys ms).Nodup) (found : Members.get? s.keyText ms = some w)
    (apart : Path.Apart (way ++ [s]) q) :
    (v.assign way (.obj (Members.erase s.keyText ms))).at? q = v.at? q := by
  have longer : Path.texts (way ++ [s]) = Path.texts way ++ [s.keyText] := by simp [Path.texts]
  refine at?_assign_inside here (fun shorter => ?_) fun before more split alike => ?_
  · exact apart.2 (longer ▸ shorter.trans (List.prefix_append _ _))
  · obtain - | ⟨t, more⟩ := more
    · refine absurd ?_ apart.2
      rw [split, List.append_nil, alike, longer]
      exact List.prefix_append _ _
    · have other : t.keyText ≠ s.keyText := by
        intro same
        refine apart.1 ?_
        rw [longer, split, ← alike]
        simp [Path.texts, same, List.prefix_append_right_inj]
      rw [at?_cons, at?_cons, child?, child?, Members.get?_erase_ne distinct found other]

/-- What a write to a place that is there leaves, if it is apart from that place. -/
theorem at?_assign_outside (here : v.at? way = some old) (apart : Path.Apart way q) :
    (v.assign way new).at? q = v.at? q := by
  refine at?_assign_inside here apart.2 fun before more split alike => absurd ?_ apart.1
  rw [split, ← alike]
  simp [Path.texts]

end Value

theorem Path.exists_concat_of_parse {path : String} {p : Path} (read : Path.parse path = .ok p) :
    ∃ way s, p = way ++ [s] :=
  ⟨_, _, (List.dropLast_concat_getLast (Path.parse_ne_nil read)).symm⟩

namespace Document

variable {d : Document} {path : String} {way : Path} {s : Segment}

theorem remove_of_parse (read : Path.parse path = .ok (way ++ [s])) :
    d.remove path = match d.root.at? (way ++ [s]) with
      | some found => (some found, ⟨d.root.assign way ((d.root.slot way).dropChild s)⟩)
      | none => (none, d) := by
  simp only [remove, read, Value.remove_concat]
  cases d.root.at? (way ++ [s]) <;> rfl

theorem get?_concat (read : Path.parse path = .ok (way ++ [s])) :
    d.get? path = (d.root.slot way).child? s := by
  rw [get?_of_parse read, Value.at?_append_cons]
  cases (d.root.slot way).child? s <;> rfl

theorem remove_fst (d : Document) (path : String) : (d.remove path).1 = d.get? path := by
  cases read : Path.parse path with
  | error e => simp [remove, get?, read]
  | ok p =>
      obtain ⟨way, s, rfl⟩ := Path.exists_concat_of_parse read
      rw [remove_of_parse read, get?_of_parse read]
      cases d.root.at? (way ++ [s]) <;> rfl

theorem remove_snd_of_none (nothing : d.get? path = none) : (d.remove path).2 = d := by
  cases read : Path.parse path with
  | error e => simp [remove, read]
  | ok p =>
      obtain ⟨way, s, rfl⟩ := Path.exists_concat_of_parse read
      rw [get?_of_parse read] at nothing
      rw [remove_of_parse read, nothing]

/-- What is left when a path leads somewhere. -/
theorem remove_snd_of_some {found : Value} (read : Path.parse path = .ok (way ++ [s]))
    (there : d.get? path = some found) :
    (d.remove path).2 = ⟨d.root.assign way ((d.root.slot way).dropChild s)⟩ := by
  rw [get?_of_parse read] at there
  rw [remove_of_parse read, there]

variable {ms : Members} {items : List Value} {n : Nat}

theorem slot_of_at? {v : Value} (here : d.root.at? way = some v) : d.root.slot way = v := by
  rw [Value.slot, here, Option.getD_some]

/-- A member is gone once it is removed. -/
theorem get?_remove_self (distinct : (Members.keys ms).Nodup)
    (read : Path.parse path = .ok (way ++ [s])) (here : d.root.at? way = some (.obj ms)) :
    (d.remove path).2.get? path = none := by
  cases there : d.get? path with
  | none => rw [remove_snd_of_none there, there]
  | some found =>
      have member : Members.get? s.keyText ms = some found := by
        rwa [get?_concat read, slot_of_at? here] at there
      rw [remove_snd_of_some read there, get?_of_parse read, slot_of_at? here]
      exact Value.at?_erased_self distinct member

/-- What is apart from the path of a member is what it was before the member was removed. -/
theorem get?_remove_apart {other : String} {q : Path} (distinct : (Members.keys ms).Nodup)
    (read : Path.parse path = .ok (way ++ [s])) (here : d.root.at? way = some (.obj ms))
    (read' : Path.parse other = .ok q) (apart : Path.Apart (way ++ [s]) q) :
    (d.remove path).2.get? other = d.get? other := by
  cases there : d.get? path with
  | none => rw [remove_snd_of_none there]
  | some found =>
      have member : Members.get? s.keyText ms = some found := by
        rwa [get?_concat read, slot_of_at? here] at there
      rw [remove_snd_of_some read there, get?_of_parse read', get?_of_parse read', slot_of_at? here]
      exact Value.at?_erased_apart here distinct member apart

theorem remove_snd_of_item (read : Path.parse path = .ok (way ++ [.index n]))
    (here : d.root.at? way = some (.arr items)) (inside : n < items.length) :
    (d.remove path).2 = ⟨d.root.assign way (.arr (items.eraseIdx n))⟩ := by
  have there : d.get? path = some items[n] := by
    rw [get?_concat read, slot_of_at? here, Value.child?, List.getElem?_eq_getElem inside]
  rw [remove_snd_of_some read there, slot_of_at? here]
  rfl

end Document

/-- **A removal takes away what a reading finds.**  The document repeats no key.  A removal gives
back what the path leads to, and where it leads nowhere, as it does when it cannot be read, nothing
changes.  Once a member of an object is removed, its path leads nowhere, and every path that is
apart from it leads to what it led to before.  Once an item of an array is removed, the later items
stand one place lower and the others where they stood, every path apart from that of the array
leads to what it led to before, and the containers around the array keep the order of their members
and their lengths. -/
theorem removals_take_what_is_read {d : Document} (distinct : d.root.Distinct) (path : String) :
    (d.remove path).1 = d.get? path ∧
    (d.get? path = none → (d.remove path).2 = d) ∧
    (∀ e, Path.parse path = .error e → d.remove path = (none, d)) ∧
    ∀ p, Path.parse path = .ok p → ∃ way s, p = way ++ [s] ∧
      (∀ ms, d.root.at? way = some (.obj ms) →
        (d.remove path).2.get? path = none ∧
        ∀ other q, Path.parse other = .ok q → Path.Apart p q →
          (d.remove path).2.get? other = d.get? other) ∧
      ∀ items n, d.root.at? way = some (.arr items) → s = .index n → n < items.length →
        (∃ items', (d.remove path).2.root.at? way = some (.arr items') ∧
          items'.length + 1 = items.length ∧
          ∀ m, items'[m]? = if m < n then items[m]? else items[m + 1]?) ∧
        (∀ other q, Path.parse other = .ok q → Path.Apart way q →
          (d.remove path).2.get? other = d.get? other) ∧
        ∀ before t rest, way = before ++ t :: rest →
          ((d.remove path).2.root.at? before).map Value.outline =
            (d.root.at? before).map Value.outline := by
  refine ⟨d.remove_fst path, Document.remove_snd_of_none, fun e unread => ?_, fun p read => ?_⟩
  · rw [Document.remove, unread]
  · obtain ⟨way, s, rfl⟩ := Path.exists_concat_of_parse read
    refine ⟨way, s, rfl, fun ms here => ?_, fun items n here index inside => ?_⟩
    · have keys : (Members.keys ms).Nodup := (distinct.at? here).1
      exact ⟨Document.get?_remove_self keys read here, fun other q read' apart =>
        Document.get?_remove_apart keys read here read' apart⟩
    · subst index
      have left := Document.remove_snd_of_item read here inside
      rw [left]
      refine ⟨⟨_, Value.at?_assign_self _ _ _, ?_, fun _ => List.getElem?_eraseIdx⟩,
        fun other q read' apart => ?_, fun before t rest split => ?_⟩
      · rw [List.length_eraseIdx_of_lt inside]
        omega
      · rw [Document.get?_of_parse read', Document.get?_of_parse read',
          Value.at?_assign_outside here apart]
      · subst split
        exact Value.outline_at?_assign here

/-- A member taken from the middle of an object, and the first item taken from an array. -/
theorem removals_take_what_is_read_in_table :
    let d : Document := ⟨.obj [("row", .obj [("x", .bool true), ("y", .null), ("z", .str "s")]),
      ("list", .arr [.str "a", .str "b"])]⟩
    d.root.Distinct ∧ (d.remove "row.x").1 = d.get? "row.x" ∧
      (d.remove "row.x").2.get? "row.x" = none ∧
      (d.remove "row.x").2.get? "row['z']" = d.get? "row['z']" ∧
      ∃ items, (d.remove "list[0]").2.root.at? [.key "list"] = some (.arr items) ∧
        items[0]? = some (.str "b") ∧ (d.remove "list[0]").2.get? "row" = d.get? "row" := by
  intro d
  have distinct : d.root.Distinct := by
    simp [d, Value.Distinct, Value.DistinctItems, Value.DistinctMembers]
  obtain ⟨found, -, -, member⟩ := removals_take_what_is_read distinct "row.x"
  obtain ⟨-, -, -, item⟩ := removals_take_what_is_read distinct "list[0]"
  obtain ⟨way, s, split, object, -⟩ := member [.key "row", .key "x"] rfl
  obtain ⟨rfl, rfl⟩ : [.key "row"] = way ∧ .key "x" = s := by
    have split : [Segment.key "row"] ++ [.key "x"] = way ++ [s] := split
    simpa using List.append_inj' split rfl
  obtain ⟨gone, apart⟩ := object _ rfl
  obtain ⟨way, s, split, -, array⟩ := item [.key "list", .index 0] rfl
  obtain ⟨rfl, rfl⟩ : [.key "list"] = way ∧ .index 0 = s := by
    have split : [Segment.key "list"] ++ [.index 0] = way ++ [s] := split
    simpa using List.append_inj' split rfl
  obtain ⟨⟨items, there, -, moved⟩, outside, -⟩ := array _ 0 rfl rfl (by decide)
  exact ⟨distinct, found, gone, apart _ [.key "row", .key "z"] rfl (by decide +kernel),
    items, there, moved 0, outside _ [.key "row"] rfl (by decide +kernel)⟩

end Flowgraph
