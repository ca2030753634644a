/- # Flowgraph.Proofs.Document.Merging -- what a deep merge holds at every place

A value is known by its outline, which is the keys of an object in their order, the length of an
array or all of a scalar, and by what stands at each place one step below it (`Value.ext`).  A
merge of two objects, or of two arrays, joins the outlines (`Value.outline_merge`) and merges what
both have at a place (`Value.below?_merge`); of any other two values it takes the second
(`Value.merge_of_not_meets`).

From these three follows what the merge holds at the end of any position: what the second value
has there, if a value of it on the way took the place of the first one's, and else what both have
there, merged (`Value.within?_merge_of_replaced`, `Value.within?_merge`).  The algebraic laws
follow as well, by induction from a value to what is below it.
-/
import Flowgraph.Proofs.Document.Writing

set_option autoImplicit false

namespace Flowgraph

/-! ## Merging members -/

namespace Value

/-- What a merge makes of two members of the same name. -/
def mergeOption : Option Value → Option Value → Option Value
  | some v, some w => some (v.merge w)
  | some v, none => some v
  | none, w => w

theorem mergeOption_none (v : Option Value) : mergeOption v none = v := by cases v <;> rfl

theorem get?_mergeMembers_of_nodup {old ms : Members} (distinct : (Members.keys ms).Nodup)
    (key : String) : Members.get? key (mergeMembers old ms) =
      mergeOption (Members.get? key old) (Members.get? key ms) := by
  induction ms generalizing old with
  | nil =>
      rw [mergeMembers, Members.get?, mergeOption_none]
  | cons e rest ih =>
      obtain ⟨k, v⟩ := e
      obtain ⟨fresh, distinct⟩ := List.nodup_cons.1 distinct
      rw [mergeMembers]
      by_cases here : k = key
      · subst here
        have found : Members.get? k ((k, v) :: rest) = some v := by simp [Members.get?]
        rw [found]
        cases there : Members.get? k old <;>
          rw [get?_mergeMembers fresh, Members.get?_put_self] <;> rfl
      · have later : Members.get? key ((k, v) :: rest) = Members.get? key rest := by
          simp [Members.get?, here]
        rw [later]
        split <;> rw [ih distinct, Members.get?_put_ne (Ne.symm here)]

/-- The old members keep their order, and the new ones follow in theirs. -/
theorem keys_mergeMembers {old ms : Members} (distinct : (Members.keys ms).Nodup) :
    Members.keys (mergeMembers old ms) =
      Members.keys old ++ (Members.keys ms).filter (· ∉ Members.keys old) := by
  induction ms generalizing old with
  | nil => simp [mergeMembers, Members.keys]
  | cons e rest ih =>
      obtain ⟨k, v⟩ := e
      obtain ⟨fresh, distinct⟩ := List.nodup_cons.1 distinct
      have fresh : k ∉ Members.keys rest := fresh
      have keys : Members.keys ((k, v) :: rest) = k :: Members.keys rest := rfl
      have put (w : Value) : Members.keys (mergeMembers (Members.put k w old) rest) =
          Members.keys old ++ (k :: Members.keys rest).filter (· ∉ Members.keys old) := by
        rw [ih distinct, Members.keys_put]
        by_cases there : k ∈ Members.keys old
        · simp [there]
        · have others : (Members.keys rest).filter (· ∉ Members.keys old ++ [k]) =
              (Members.keys rest).filter (· ∉ Members.keys old) :=
            List.filter_congr fun j member => by
              have : j ≠ k := fun same => fresh (same ▸ member)
              simp [this]
          rw [if_neg there, others, List.filter_cons_of_pos (by simpa using there)]
          simp
      rw [mergeMembers, keys]
      split <;> exact put _

theorem mem_keys_mergeMembers {old ms : Members} {key : String}
    (member : key ∈ Members.keys (mergeMembers old ms)) :
    key ∈ Members.keys old ∨ key ∈ Members.keys ms := by
  induction ms generalizing old with
  | nil =>
      rw [mergeMembers] at member
      exact .inl member
  | cons e rest ih =>
      obtain ⟨k, v⟩ := e
      have put : ∀ w, key ∈ Members.keys (mergeMembers (Members.put k w old) rest) →
          key ∈ Members.keys old ∨ key ∈ Members.keys ((k, v) :: rest) := by
        intro w member
        rcases ih member with old | later
        · rcases Members.mem_keys_put.1 old with rfl | old
          · exact .inr List.mem_cons_self
          · exact .inl old
        · exact .inr (List.mem_cons_of_mem _ later)
      rw [mergeMembers] at member
      split at member
      · exact put _ member
      · exact put _ member

theorem nodup_keys_mergeMembers {old ms : Members} (distinct : (Members.keys old).Nodup) :
    (Members.keys (mergeMembers old ms)).Nodup := by
  induction ms generalizing old with
  | nil => rwa [mergeMembers]
  | cons e rest ih =>
      rw [mergeMembers]
      split <;> exact ih (Members.nodup_keys_put distinct)


end Value

/-! ## Values by their parts -/

namespace Members

variable {ms ms' : Members} {key : String} {v : Value}

theorem mem_of_get? (found : get? key ms = some v) : (key, v) ∈ ms := by
  induction ms with
  | nil => cases found
  | cons e rest ih =>
      obtain ⟨k, w⟩ := e
      by_cases here : k = key
      · rw [get?, if_pos here] at found
        cases found
        simp [here]
      · rw [get?, if_neg here] at found
        exact List.mem_cons_of_mem _ (ih found)

theorem get?_of_mem (distinct : (keys ms).Nodup) (member : (key, v) ∈ ms) :
    get? key ms = some v := by
  induction ms with
  | nil => cases member
  | cons e rest ih =>
      obtain ⟨k, w⟩ := e
      obtain ⟨fresh, distinct⟩ := List.nodup_cons.1 distinct
      rcases List.mem_cons.1 member with same | later
      · cases same
        simp [get?]
      · have other : k ≠ key := by
          rintro rfl
          exact fresh (List.mem_map.2 ⟨_, later, rfl⟩)
        rw [get?, if_neg other, ih distinct later]

theorem get?_of_notMem (absent : key ∉ keys ms) : get? key ms = none := by
  cases found : get? key ms with
  | none => rfl
  | some v => exact absurd (List.mem_map_of_mem (mem_of_get? found)) absent

/-- Members are known by their keys in order and by what stands under each. -/
theorem ext_of_nodup (distinct : (keys ms).Nodup) (same : keys ms = keys ms')
    (found : ∀ key, get? key ms = get? key ms') : ms = ms' := by
  induction ms generalizing ms' with
  | nil =>
      cases ms' with
      | nil => rfl
      | cons e rest => cases same
  | cons e rest ih =>
      obtain ⟨k, v⟩ := e
      obtain - | ⟨⟨k', v'⟩, rest'⟩ := ms'
      · cases same
      · obtain ⟨rfl, later⟩ : k = k' ∧ keys rest = keys rest' := by simpa [keys] using same
        obtain ⟨fresh, distinct⟩ := List.nodup_cons.1 distinct
        have fresh : k ∉ keys rest := fresh
        have here := found k
        rw [get?, get?, if_pos rfl, if_pos rfl, Option.some.injEq] at here
        subst here
        congr 1
        refine ih distinct later fun key => ?_
        by_cases first : k = key
        · subst first
          rw [get?_of_notMem fresh, get?_of_notMem (later ▸ fresh)]
        · simpa [get?, first] using found key

end Members

namespace Value

/-- A place one step below a container. -/
inductive Place where
  | member (key : String)
  | item (n : Nat)

/-- What stands at a place.  Unlike a segment of a path, an index is no key of an object. -/
def below? : Value → Place → Option Value
  | .obj ms, .member key => Members.get? key ms
  | .arr items, .item n => items[n]?
  | _, _ => none

/-- What stands at a position, which is the list of the places on the way to it. -/
def within? (v : Value) : List Place → Option Value
  | [] => some v
  | s :: rest => (v.below? s).bind (·.within? rest)

inductive Kind where
  | object
  | array
  | scalar
  deriving DecidableEq

def kind : Value → Kind
  | .obj _ => .object
  | .arr _ => .array
  | _ => .scalar

/-- The kind of the values that have a place. -/
def Place.kind : Place → Kind
  | .member _ => .object
  | .item _ => .array

/-- What a value is apart from what is below it. -/
inductive Outline where
  | object (keys : List String)
  | array (length : Nat)
  | scalar (v : Value)

def outline : Value → Outline
  | .obj ms => .object (Members.keys ms)
  | .arr items => .array items.length
  | v => .scalar v

/-- The keys that are there, with those that are new behind them, and the greater length. -/
def Outline.join : Outline → Outline → Outline
  | .object old, .object new => .object (old ++ new.filter (· ∉ old))
  | .array n, .array m => .array (max n m)
  | _, o => o

variable {a b c v w : Value} {s : Place} {p : List Place}

theorem distinctItems_iff {items : List Value} :
    DistinctItems items ↔ ∀ v ∈ items, v.Distinct := by
  induction items with
  | nil => simp [DistinctItems]
  | cons v rest ih => simp [DistinctItems, ih]

theorem distinctMembers_iff {ms : Members} :
    DistinctMembers ms ↔ ∀ e ∈ ms, e.2.Distinct := by
  induction ms with
  | nil => simp [DistinctMembers]
  | cons e rest ih => simp [DistinctMembers, ih]

theorem Distinct.below (distinct : v.Distinct) (found : v.below? s = some w) : w.Distinct := by
  cases v with
  | obj ms =>
      cases s with
      | member key => exact distinctMembers_iff.1 distinct.2 _ (Members.mem_of_get? found)
      | item n => cases found
  | arr items =>
      cases s with
      | member key => cases found
      | item n => exact distinctItems_iff.1 distinct _ (List.mem_of_getElem? found)
  | _ => cases found

/-- No key is repeated where the value does not repeat one and nothing below it does. -/
theorem distinct_of_below (keys : ∀ ms, v = .obj ms → (Members.keys ms).Nodup)
    (below : ∀ s w, v.below? s = some w → w.Distinct) : v.Distinct := by
  cases v with
  | obj ms =>
      have keys := keys ms rfl
      refine ⟨keys, distinctMembers_iff.2 fun e member => ?_⟩
      exact below (.member e.1) e.2 (Members.get?_of_mem keys member)
  | arr items =>
      refine distinctItems_iff.2 fun w member => ?_
      obtain ⟨n, found⟩ := List.mem_iff_getElem?.1 member
      exact below (.item n) w found
  | _ => trivial

theorem sizeOf_below (found : v.below? s = some w) : sizeOf w < sizeOf v := by
  cases v with
  | obj ms =>
      cases s with
      | member key =>
          have inside := List.sizeOf_lt_of_mem (Members.mem_of_get? found)
          simp only [Prod.mk.sizeOf_spec, obj.sizeOf_spec] at inside ⊢
          omega
      | item n => cases found
  | arr items =>
      cases s with
      | member key => cases found
      | item n =>
          have inside := List.sizeOf_lt_of_mem (List.mem_of_getElem? found)
          simp only [arr.sizeOf_spec]
          omega
  | _ => cases found

/-- Induction from a value to what is below it. -/
theorem below_induction {motive : Value → Prop}
    (step : ∀ v, (∀ s w, v.below? s = some w → motive w) → motive v) (v : Value) : motive v :=
  step v fun _ w found =>
    have : sizeOf w < sizeOf v := sizeOf_below found
    below_induction step w
termination_by sizeOf v

/-- A value is known by its outline and by what is below it. -/
theorem ext (distinct : v.Distinct) (outlines : v.outline = w.outline)
    (below : ∀ s, v.below? s = w.below? s) : v = w := by
  cases v with
  | obj ms =>
      cases w with
      | obj ms' =>
          rw [Members.ext_of_nodup distinct.1 (Outline.object.inj outlines)
            fun key => below (.member key)]
      | _ => cases outlines
  | arr items =>
      cases w with
      | arr items' => rw [List.ext_getElem? fun n => below (.item n)]
      | _ => cases outlines
  | _ =>
      cases w <;> cases outlines
      rfl

/-! ## One container -/

/-- Both are objects, or both are arrays. -/
def Meets (a b : Value) : Prop := a.kind = b.kind ∧ b.kind ≠ .scalar

theorem Meets.cases (meets : a.Meets b) :
    (∃ old new, a = .obj old ∧ b = .obj new) ∨ ∃ old new, a = .arr old ∧ b = .arr new := by
  cases a <;> cases b <;> simp [Meets, kind] at meets ⊢

theorem merge_of_not_meets (apart : ¬ a.Meets b) : a.merge b = b := by
  cases a <;> cases b <;> first | rfl | simp [Meets, kind] at apart

theorem kind_merge (a b : Value) : (a.merge b).kind = b.kind := by
  cases a <;> cases b <;> simp [merge, kind]

/-- A value with something at a place is the container that the place is in. -/
theorem kind_of_below (found : v.below? s = some w) : v.kind = s.kind := by
  cases v <;> cases s <;> first | rfl | cases found

theorem meets_of_below (one : a.below? s = some v) (two : b.below? s = some w) : a.Meets b := by
  refine ⟨(kind_of_below one).trans (kind_of_below two).symm, ?_⟩
  rw [kind_of_below two]
  cases s <;> nofun

theorem getElem?_mergeItems (old items : List Value) (n : Nat) :
    (mergeItems old items)[n]? = mergeOption old[n]? items[n]? := by
  induction items generalizing old n with
  | nil =>
      rw [mergeItems, List.getElem?_nil, mergeOption_none]
  | cons v rest ih =>
      cases old with
      | nil =>
          rw [mergeItems]
          cases n with
          | zero => rfl
          | succ n => simpa using ih [] n
      | cons w more =>
          rw [mergeItems]
          cases n with
          | zero => rfl
          | succ n => exact ih more n

theorem length_mergeItems (old items : List Value) :
    (mergeItems old items).length = max old.length items.length := by
  induction items generalizing old with
  | nil => simp [mergeItems]
  | cons v rest ih =>
      cases old with
      | nil => simp [mergeItems, ih]
      | cons w more =>
          simp only [mergeItems, List.length_cons, ih]
          omega

theorem below?_merge (distinct : b.Distinct) (meets : a.Meets b) (s : Place) :
    (a.merge b).below? s = mergeOption (a.below? s) (b.below? s) := by
  obtain ⟨old, new, rfl, rfl⟩ | ⟨old, new, rfl, rfl⟩ := meets.cases
  · rw [merge]
    cases s with
    | member key => exact get?_mergeMembers_of_nodup distinct.1 key
    | item n => rfl
  · rw [merge]
    cases s with
    | member key => rfl
    | item n => exact getElem?_mergeItems old new n

theorem outline_merge (distinct : b.Distinct) (meets : a.Meets b) :
    (a.merge b).outline = a.outline.join b.outline := by
  obtain ⟨old, new, rfl, rfl⟩ | ⟨old, new, rfl, rfl⟩ := meets.cases
  · rw [merge, outline, keys_mergeMembers distinct.1]
    rfl
  · rw [merge, outline, length_mergeItems]
    rfl

theorem Distinct.merge (one : a.Distinct) (two : b.Distinct) : (a.merge b).Distinct := by
  induction b using below_induction generalizing a with
  | step b ih =>
      by_cases meets : a.Meets b
      · refine distinct_of_below (fun ms merged => ?_) fun s w found => ?_
        · obtain ⟨old, new, rfl, rfl⟩ | ⟨old, new, rfl, rfl⟩ := meets.cases
          · rw [Value.merge, obj.injEq] at merged
            exact merged ▸ nodup_keys_mergeMembers one.1
          · cases merged
        · rw [below?_merge two meets] at found
          cases left : a.below? s with
          | none =>
              rw [left] at found
              exact two.below found
          | some x =>
              cases right : b.below? s with
              | none =>
                  rw [left, right] at found
                  cases found
                  exact one.below left
              | some y =>
                  rw [left, right] at found
                  cases found
                  exact ih s y right (one.below left) (two.below right)
      · rwa [merge_of_not_meets meets]

/-! ## Positions -/

/-- A value of the second that encloses the position takes the place of what the first has. -/
def Replaced (a b : Value) (p : List Place) : Prop :=
  ∃ q s rest v w, p = q ++ s :: rest ∧ a.within? q = some v ∧ b.within? q = some w ∧ ¬ v.Meets w

theorem Replaced.cons {rest : List Place} (one : a.below? s = some v) (two : b.below? s = some w)
    (replaced : v.Replaced w rest) : a.Replaced b (s :: rest) := by
  obtain ⟨q, t, more, x, y, rfl, left, right, apart⟩ := replaced
  exact ⟨s :: q, t, more, x, y, rfl, by simp [within?, one, left], by simp [within?, two, right],
    apart⟩

/-- Below a value that takes the place of another there is what is below that value. -/
theorem within?_merge_of_replaced (distinct : b.Distinct) (replaced : a.Replaced b p) :
    (a.merge b).within? p = b.within? p := by
  obtain ⟨q, s, rest, v, w, rfl, one, two, apart⟩ := replaced
  induction q generalizing a b with
  | nil =>
      cases one
      cases two
      rw [merge_of_not_meets apart]
  | cons t q ih =>
      obtain ⟨x, left, one⟩ := Option.bind_eq_some_iff.1 one
      obtain ⟨y, right, two⟩ := Option.bind_eq_some_iff.1 two
      have meets := meets_of_below left right
      simp only [List.cons_append, within?, below?_merge distinct meets, left, right, mergeOption,
        Option.bind_some]
      exact ih (distinct.below right) one two

/-- Elsewhere there is what both values have, merged. -/
theorem within?_merge (distinct : b.Distinct) (kept : ¬ a.Replaced b p) :
    (a.merge b).within? p = mergeOption (a.within? p) (b.within? p) := by
  induction p generalizing a b with
  | nil => rfl
  | cons s rest ih =>
      have meets : a.Meets b := Classical.byContradiction fun apart =>
        kept ⟨[], s, rest, a, b, rfl, rfl, rfl, apart⟩
      simp only [within?, below?_merge distinct meets]
      cases left : a.below? s with
      | none => rfl
      | some v =>
          cases right : b.below? s with
          | none => exact (mergeOption_none _).symm
          | some w =>
              exact ih (distinct.below right) fun replaced => kept (replaced.cons left right)

/-- What both values have at a position, none of them replaces. -/
theorem not_replaced_of_within? (one : a.within? p = some v) (two : b.within? p = some w) :
    ¬ a.Replaced b p := by
  rintro ⟨q, s, rest, x, y, rfl, left, right, apart⟩
  induction q generalizing a b with
  | nil =>
      cases left
      cases right
      obtain ⟨_, here, -⟩ := Option.bind_eq_some_iff.1 one
      obtain ⟨_, there, -⟩ := Option.bind_eq_some_iff.1 two
      exact apart (meets_of_below here there)
  | cons t q ih =>
      obtain ⟨_, here, one⟩ := Option.bind_eq_some_iff.1 one
      obtain ⟨_, there, two⟩ := Option.bind_eq_some_iff.1 two
      rw [within?, here] at left
      rw [within?, there] at right
      exact ih one two left right

/-- What both values have at a position is merged there. -/
theorem within?_merge_of_both (distinct : b.Distinct) (one : a.within? p = some v)
    (two : b.within? p = some w) : (a.merge b).within? p = some (v.merge w) := by
  rw [within?_merge distinct (not_replaced_of_within? one two), one, two]
  rfl

/-- What only the second value has is taken over. -/
theorem within?_merge_of_left_none (distinct : b.Distinct) (nothing : a.within? p = none)
    (there : b.within? p = some w) : (a.merge b).within? p = some w := by
  by_cases replaced : a.Replaced b p
  · rw [within?_merge_of_replaced distinct replaced, there]
  · rw [within?_merge distinct replaced, nothing, there]
    rfl

/-- A scalar, and whatever the first value has nothing or another kind of value for, is taken over
as it is. -/
theorem within?_merge_of_taken (distinct : b.Distinct) (there : b.within? p = some w)
    (either : w.kind = .scalar ∨ a.within? p = none ∨
      ∃ v, a.within? p = some v ∧ v.kind ≠ w.kind) : (a.merge b).within? p = some w := by
  have taken (v : Value) (here : a.within? p = some v) (apart : ¬ v.Meets w) :
      (a.merge b).within? p = some w := by
    rw [within?_merge_of_both distinct here there, merge_of_not_meets apart]
  obtain scalar | nothing | ⟨v, here, other⟩ := either
  · cases here : a.within? p with
    | none => exact within?_merge_of_left_none distinct here there
    | some v => exact taken v here fun meets => meets.2 scalar
  · exact within?_merge_of_left_none distinct nothing there
  · exact taken v here fun meets => other meets.1

theorem Distinct.within (distinct : v.Distinct) (found : v.within? p = some w) : w.Distinct := by
  induction p generalizing v with
  | nil =>
      cases found
      exact distinct
  | cons s rest ih =>
      obtain ⟨x, here, later⟩ := Option.bind_eq_some_iff.1 found
      exact ih (distinct.below here) later

/-! ## Laws -/

/-- The two have values of the same kind wherever they both have one. -/
def Agree (a b : Value) : Prop :=
  ∀ p v w, a.within? p = some v → b.within? p = some w → v.kind = w.kind

theorem Agree.kind (agree : a.Agree b) : a.kind = b.kind := agree [] a b rfl rfl

theorem Agree.below (agree : a.Agree b) (one : a.below? s = some v) (two : b.below? s = some w) :
    v.Agree w := fun p x y left right =>
  agree (s :: p) x y (by rw [within?, one]; exact left) (by rw [within?, two]; exact right)

theorem agree_of_below (kinds : a.kind = b.kind)
    (below : ∀ s v w, a.below? s = some v → b.below? s = some w → v.Agree w) : a.Agree b := by
  rintro (- | ⟨s, rest⟩) v w one two
  · cases one
    cases two
    exact kinds
  · obtain ⟨x, here, one⟩ := Option.bind_eq_some_iff.1 one
    obtain ⟨y, there, two⟩ := Option.bind_eq_some_iff.1 two
    exact below s x y here there rest v w one two

theorem agree_of_scalar (one : a.kind = .scalar) (two : b.kind = .scalar) : a.Agree b := by
  refine agree_of_below (one.trans two.symm) fun s v w here _ => ?_
  rw [kind_of_below here] at one
  cases s <;> cases one

theorem agree_arr {old new : List Value} (each : ∀ e ∈ old.zip new, e.1.Agree e.2) :
    (arr old).Agree (arr new) := by
  refine agree_of_below rfl fun s v w here there => ?_
  cases s with
  | member key => cases here
  | item n =>
      refine each (v, w) (List.mem_of_getElem? (i := n) ?_)
      exact List.getElem?_zip_eq_some.2 ⟨here, there⟩

theorem agree_obj {old new : Members} (each : ∀ e ∈ old, ∀ e' ∈ new, e.1 = e'.1 → e.2.Agree e'.2) :
    (obj old).Agree (obj new) := by
  refine agree_of_below rfl fun s v w here there => ?_
  cases s with
  | member key => exact each _ (Members.mem_of_get? here) _ (Members.mem_of_get? there) rfl
  | item n => cases here

theorem Outline.join_self (o : Outline) : o.join o = o := by
  cases o with
  | object keys => simp [join]
  | array n => simp [join]
  | scalar v => rfl

theorem Outline.join_join_self (o o' : Outline) : (o.join o').join o' = o.join o' := by
  cases o' with
  | object new =>
      cases o with
      | object old =>
          simp only [join, object.injEq, List.append_right_eq_self, List.filter_eq_nil_iff]
          intro key member
          by_cases there : key ∈ old <;> simp [member, there]
      | _ => exact Outline.join_self _
  | array n =>
      cases o with
      | array m => simp [join]
      | _ => exact Outline.join_self _
  | scalar v => cases o <;> rfl

theorem Outline.join_assoc_of_meets (meets : a.Meets b) (meets' : b.Meets c) :
    (a.outline.join b.outline).join c.outline =
      a.outline.join (b.outline.join c.outline) := by
  obtain ⟨one, two, rfl, rfl⟩ | ⟨one, two, rfl, rfl⟩ := meets.cases
  · obtain ⟨-, three, -, rfl⟩ | ⟨_, _, other, _⟩ := meets'.cases
    · simp only [outline, join, object.injEq, List.filter_append, List.append_assoc,
        List.filter_filter]
      congr 2
      refine List.filter_congr fun key _ => ?_
      by_cases first : key ∈ Members.keys one <;> by_cases second : key ∈ Members.keys two <;>
        simp [first, second]
    · cases other
  · obtain ⟨_, _, other, _⟩ | ⟨-, three, -, rfl⟩ := meets'.cases
    · cases other
    · simp only [outline, join, Nat.max_assoc]

theorem merge_self (distinct : a.Distinct) : a.merge a = a := by
  induction a using below_induction with
  | step a ih =>
      by_cases meets : a.Meets a
      · refine (ext distinct ?_ fun s => ?_).symm
        · rw [outline_merge distinct meets, Outline.join_self]
        · rw [below?_merge distinct meets]
          cases here : a.below? s with
          | none => rfl
          | some v => exact congrArg some (ih s v here (distinct.below here)).symm
      · exact merge_of_not_meets meets

/-- The same value merged in once more changes nothing. -/
theorem merge_merge_self (one : a.Distinct) (two : b.Distinct) :
    (a.merge b).merge b = a.merge b := by
  induction b using below_induction generalizing a with
  | step b ih =>
      by_cases meets : a.Meets b
      · have again : (a.merge b).Meets b := ⟨kind_merge a b, meets.2⟩
        refine ext ((one.merge two).merge two) ?_ fun s => ?_
        · rw [outline_merge two again, outline_merge two meets, Outline.join_join_self]
        · rw [below?_merge two again, below?_merge two meets]
          cases right : b.below? s with
          | none => rw [mergeOption_none]
          | some w =>
              cases left : a.below? s with
              | none => exact congrArg some (merge_self (two.below right))
              | some v => exact congrArg some (ih s w right (one.below left) (two.below right))
      · rw [merge_of_not_meets meets, merge_self two]

/-- Three values can be merged from either end when no two of them have values of different kinds
at one position. -/
theorem merge_assoc (one : a.Distinct) (two : b.Distinct) (three : c.Distinct)
    (agree : a.Agree b) (agree' : b.Agree c) (agree'' : a.Agree c) :
    (a.merge b).merge c = a.merge (b.merge c) := by
  induction c using below_induction generalizing a b with
  | step c ih =>
      by_cases scalar : c.kind = .scalar
      · have apart {v w : Value} (last : w.kind = .scalar) : ¬ v.Meets w := fun meets =>
          meets.2 last
        have last : (b.merge c).kind = .scalar := (kind_merge b c).trans scalar
        rw [merge_of_not_meets (apart scalar), merge_of_not_meets (apart last),
          merge_of_not_meets (apart scalar)]
      · have meets : a.Meets b := ⟨agree.kind, agree'.kind ▸ scalar⟩
        have meets' : b.Meets c := ⟨agree'.kind, scalar⟩
        have left : (a.merge b).Meets c := ⟨(kind_merge a b).trans agree'.kind, scalar⟩
        have right : a.Meets (b.merge c) :=
          ⟨agree''.kind.trans (kind_merge b c).symm, (kind_merge b c).symm ▸ scalar⟩
        refine ext ((one.merge two).merge three) ?_ fun s => ?_
        · rw [outline_merge three left, outline_merge two meets,
            outline_merge (two.merge three) right, outline_merge three meets',
            Outline.join_assoc_of_meets meets meets']
        · rw [below?_merge three left, below?_merge two meets, below?_merge (two.merge three) right,
            below?_merge three meets']
          cases first : a.below? s with
          | none => rfl
          | some x =>
              cases second : b.below? s with
              | none => rfl
              | some y =>
                  cases third : c.below? s with
                  | none => rfl
                  | some z =>
                      exact congrArg some (ih s z third (one.below first) (two.below second)
                        (three.below third) (agree.below first second) (agree'.below second third)
                        (agree''.below first third))

end Value

/-- **A deep merge, position by position.**  The values repeat no key.  Where the second value has
a scalar, or anything that the first has nothing or another kind of value for, the merge has what
the second has.  Where both have objects, or both arrays, it has the members of the first in their
order and then the new ones of the second, or as many items as the longer array.  Where the second
has nothing, and nothing of it that encloses the position takes the place of what the first has,
the merge has what the first has.  Hence the laws: a value merged into itself, or a second time,
changes nothing, no more does an empty object in an object; and values of the same kinds at the
positions that they share can be merged from either end. -/
theorem merges_are_deep {a b c : Value} (one : a.Distinct) (two : b.Distinct) (three : c.Distinct) :
    (∀ p w, b.within? p = some w →
      (w.kind = .scalar ∨ a.within? p = none ∨ ∃ v, a.within? p = some v ∧ v.kind ≠ w.kind) →
      (a.merge b).within? p = some w) ∧
    (∀ p old new, a.within? p = some (.obj old) → b.within? p = some (.obj new) →
      ∃ ms, (a.merge b).within? p = some (.obj ms) ∧ Members.keys ms =
        Members.keys old ++ (Members.keys new).filter (· ∉ Members.keys old)) ∧
    (∀ p old new, a.within? p = some (.arr old) → b.within? p = some (.arr new) →
      ∃ items, (a.merge b).within? p = some (.arr items) ∧
        items.length = max old.length new.length) ∧
    (∀ p, b.within? p = none → ¬ a.Replaced b p → (a.merge b).within? p = a.within? p) ∧
    a.merge a = a ∧ (a.merge b).merge b = a.merge b ∧
    (∀ ms, a = .obj ms → a.merge (.obj []) = a) ∧
    (a.Agree b → b.Agree c → a.Agree c → (a.merge b).merge c = a.merge (b.merge c)) := by
  refine ⟨fun p w there either => Value.within?_merge_of_taken two there either,
    fun p old new here there => ?_, fun p old new here there => ?_, fun p nothing kept => ?_,
    Value.merge_self one, Value.merge_merge_self one two, ?_, Value.merge_assoc one two three⟩
  · have distinct : (Value.obj new).Distinct := two.within there
    rw [Value.within?_merge_of_both two here there, Value.merge]
    exact ⟨_, rfl, Value.keys_mergeMembers distinct.1⟩
  · rw [Value.within?_merge_of_both two here there, Value.merge]
    exact ⟨_, rfl, Value.length_mergeItems old new⟩
  · rw [Value.within?_merge two kept, nothing, Value.mergeOption_none]
  · rintro ms rfl
    rw [Value.merge, Value.mergeMembers]

/-- Three values, each two of which share a list, a record or a name. -/
theorem merges_are_deep_in_records :
    let a : Value := .obj [("list", .arr [.bool true, .null]), ("name", .str "a")]
    let b : Value := .obj [("list", .arr [.bool false]), ("more", .obj [])]
    let c : Value := .obj [("more", .obj [("deep", .null)]), ("name", .str "c")]
    a.Distinct ∧ b.Distinct ∧ c.Distinct ∧
      (a.merge b).within? [.member "list", .item 0] = some (.bool false) ∧
      (a.merge b).within? [.member "name"] = some (.str "a") ∧
      (∃ ms, a.merge b = .obj ms ∧ Members.keys ms = ["list", "name", "more"]) ∧
      (a.merge b).merge c = a.merge (b.merge c) := by
  intro a b c
  have one : a.Distinct := by simp [a, Value.Distinct, Value.DistinctItems, Value.DistinctMembers]
  have two : b.Distinct := by simp [b, Value.Distinct, Value.DistinctItems, Value.DistinctMembers]
  have three : c.Distinct := by simp [c, Value.Distinct, Value.DistinctMembers]
  obtain ⟨taken, objects, -, kept, -, -, -, assoc⟩ := merges_are_deep one two three
  refine ⟨one, two, three, taken _ _ rfl (.inl rfl), (kept _ rfl ?_).trans rfl, ?_, ?_⟩
  · rintro ⟨- | ⟨s, q⟩, u, rest, v, w, split, here, there, apart⟩
    · cases here
      cases there
      exact apart ⟨rfl, nofun⟩
    · simp at split
  · obtain ⟨ms, merged, keys⟩ := objects [] _ _ rfl rfl
    exact ⟨ms, Option.some.inj merged, keys⟩
  · have lists : (Value.arr [.bool true, .null]).Agree (.arr [.bool false]) :=
      Value.agree_arr (by simpa using Value.agree_of_scalar rfl rfl)
    have records : (Value.obj []).Agree (.obj [("deep", .null)]) := Value.agree_obj (by simp)
    have names : (Value.str "a").Agree (.str "c") := Value.agree_of_scalar rfl rfl
    exact assoc (Value.agree_obj (by simpa using lists)) (Value.agree_obj (by simpa using records))
      (Value.agree_obj (by simpa using names))

end Flowgraph
