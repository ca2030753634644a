/- # Flowgraph.Proofs.Binding.Arguments -- arguments are of their parameters' kinds

Each kind of parameter admits some values (`ParamKind.Admits`).  Fitting a value to a kind gives
one of them or fails (`Binding.coerce_admits`), and leaves alone what is one already
(`Binding.coerce_of_admits`).  Every route to an argument ends with the fitting, but for the
dictionary entries, which make an object, and the zero of the kind, which it admits.

So the arguments of a node's function are one for each parameter that the engine does not fill
itself, in the order of the parameters, and each is of its kind.
-/
import Flowgraph.Proofs.Document.Merging
import Flowgraph.Proofs.Json.Values
import Flowgraph.Run.Exchange

set_option autoImplicit false

namespace Flowgraph

/-- The values of a kind. -/
def ParamKind.Admits : ParamKind → Value → Prop
  | .bool, v => ∃ b, v = .bool b
  | .integer, v => ∃ n k, v = .num n ∧ n.toSigned? = some k
  | .float, v => ∃ x finite, v = .num (.float x finite)
  | .string, v => v = .null ∨ ∃ s, v = .str s
  | .array, v => v = .null ∨ ∃ items, v = .arr items
  | .object, v => v = .null ∨ ∃ members, v = .obj members
  | .map, v => v = .null ∨ ∃ members, v = .obj members
  | .any, _ => True
  | .context, _ => True
  | .flow, _ => True

theorem ParamKind.admits_zero (kind : ParamKind) : kind.Admits kind.zero := by
  cases kind with
  | bool => exact ⟨false, rfl⟩
  | integer => exact ⟨_, 0, rfl, rfl⟩
  | float => exact ⟨_, _, rfl⟩
  | string | array | object | map => exact .inl rfl
  | any | context | flow => trivial

namespace Number

/-- The integers of a signed word are what is read from numbers of signed words. -/
theorem toSigned?_eq_some_iff {n : Number} {k : Int} :
    n.toSigned? = some k ↔ k < 0x8000000000000000 ∧ ∃ bounds, n = .int k bounds := by
  cases n with
  | int m bounds =>
      simp only [toSigned?, Option.ite_none_right_eq_some, Option.some.injEq, int.injEq]
      constructor
      · rintro ⟨below, rfl⟩
        exact ⟨below, bounds, rfl⟩
      · rintro ⟨below, -, rfl⟩
        exact ⟨below, rfl⟩
  | float x finite => simp [toSigned?]

theorem toSigned?_bounds {n : Number} {k : Int} (signed : n.toSigned? = some k) :
    -0x8000000000000000 ≤ k ∧ k < 0x8000000000000000 := by
  obtain ⟨below, bounds, -⟩ := toSigned?_eq_some_iff.1 signed
  exact ⟨bounds.1, below⟩

theorem toSigned?_of_ofInt? {n : Number} {k : Int} (below : k < 0x8000000000000000)
    (made : ofInt? k = some n) : n.toSigned? = some k := by
  unfold ofInt? at made
  split at made
  · cases made
    exact if_pos below
  · cases made

theorem wholeOf?_lt {x : Float} {k : Int} (whole : wholeOf? x = some k) :
    k < 0x8000000000000000 := by
  have bounds := (Option.filter_eq_some_iff.1 whole).2
  rw [Bool.and_eq_true, decide_eq_true_iff, decide_eq_true_iff] at bounds
  exact bounds.2

end Number

namespace Binding

variable {kind : ParamKind} {parameter : String} {v w : Value}

/-! ## Fitting -/

theorem integerOfText?_lt {s : String} {k : Int} (read : integerOfText? s = some k) :
    k < 0x8000000000000000 := by
  simp only [integerOfText?] at read
  split at read
  · rename_i n plain
    cases read
    have bounds := (Option.filter_eq_some_iff.1 plain).2
    rw [Bool.and_eq_true, decide_eq_true_iff, decide_eq_true_iff] at bounds
    exact bounds.2
  · obtain ⟨x, -, whole⟩ := Option.bind_eq_some_iff.1 read
    exact Number.wholeOf?_lt whole

theorem toInteger?_lt {k : Int} (read : toInteger? v = some k) : k < 0x8000000000000000 := by
  cases v with
  | num n =>
      simp only [toInteger?] at read
      split at read
      · rename_i k' signed
        cases read
        exact (Number.toSigned?_bounds signed).2
      · exact Number.wholeOf?_lt read
  | str s => exact integerOfText?_lt read
  | _ => cases read

theorem toScalar?_admits (fits : toScalar? kind v = some w) : kind.Admits w := by
  cases kind with
  | bool =>
      obtain ⟨b, -, rfl⟩ := Option.map_eq_some_iff.1 fits
      exact ⟨b, rfl⟩
  | integer =>
      obtain ⟨n, made, rfl⟩ := Option.map_eq_some_iff.1 fits
      obtain ⟨k, read, made⟩ := Option.bind_eq_some_iff.1 made
      exact ⟨n, k, rfl, Number.toSigned?_of_ofInt? (toInteger?_lt read) made⟩
  | float =>
      obtain ⟨n, made, rfl⟩ := Option.map_eq_some_iff.1 fits
      obtain ⟨x, -, made⟩ := Option.bind_eq_some_iff.1 made
      unfold Number.ofFloat? at made
      split at made <;> cases made
      exact ⟨x, _, rfl⟩
  | _ => cases fits

theorem toArray?_eq_some (fits : toArray? v = some w) : ∃ items, w = .arr items := by
  cases v with
  | arr items =>
      cases fits
      exact ⟨items, rfl⟩
  | str s =>
      simp only [toArray?] at fits
      split at fits <;> cases fits
      exact ⟨_, rfl⟩
  | _ => cases fits

theorem toObject?_eq_some (fits : toObject? v = some w) : ∃ members, w = .obj members := by
  cases v with
  | obj members =>
      cases fits
      exact ⟨members, rfl⟩
  | str s =>
      simp only [toObject?] at fits
      split at fits <;> cases fits
      exact ⟨_, rfl⟩
  | _ => cases fits

theorem getD_null_cases {p : Value → Prop} {fitted : Option Value}
    (each : ∀ w, fitted = some w → p w) : fitted.getD .null = .null ∨ p (fitted.getD .null) := by
  cases fitted with
  | none => exact .inl rfl
  | some w => exact .inr (each w rfl)

/-- **What is fitted to a kind is of the kind.** -/
theorem coerce_admits (fitted : coerce parameter kind v = .ok w) : kind.Admits w := by
  cases kind with
  | any | context | flow => trivial
  | string =>
      simp only [coerce] at fitted
      split at fitted <;> cases fitted
      · exact .inl rfl
      · exact .inr ⟨_, rfl⟩
  | array =>
      cases fitted
      exact getD_null_cases fun _ => toArray?_eq_some
  | object | map =>
      cases fitted
      exact getD_null_cases fun _ => toObject?_eq_some
  | bool | integer | float =>
      simp only [coerce] at fitted
      split at fitted
      · cases fitted
        exact ParamKind.admits_zero _
      · split at fitted <;> cases fitted
        rename_i fits
        exact toScalar?_admits fits

/-- A value of a kind is left as it is. -/
theorem coerce_of_admits (admits : kind.Admits v) : coerce parameter kind v = .ok v := by
  cases kind with
  | any | context | flow => rfl
  | bool =>
      obtain ⟨b, rfl⟩ := admits
      rfl
  | integer =>
      obtain ⟨n, k, rfl, signed⟩ := admits
      obtain ⟨-, bounds, rfl⟩ := Number.toSigned?_eq_some_iff.1 signed
      have made : Number.ofInt? k = some (.int k bounds) := dif_pos bounds
      simp [coerce, toScalar?, toInteger?, signed, made]
  | float =>
      obtain ⟨x, finite, rfl⟩ := admits
      have made : Number.ofFloat? x = some (.float x finite) := dif_pos finite
      simp [coerce, toScalar?, Value.toFloat?, Number.toFloat, made]
  | string | array | object | map =>
      obtain rfl | ⟨x, rfl⟩ := admits <;> rfl

theorem bind_admits {evaluator : Evaluator} {p : Parameter} {expression : Option String}
    {scope : Document} (bound : bind evaluator p expression scope = .ok v) : p.kind.Admits v := by
  unfold bind at bound
  split at bound
  · cases bound
    exact p.kind.admits_zero
  · split at bound
    · cases bound
    · exact coerce_admits bound

theorem bindDictionary_eq_ok {evaluator : Evaluator} {entries : List DictionaryEntry}
    {scope : Document} (bound : bindDictionary evaluator parameter entries scope = .ok v) :
    ∃ members, v = .obj members := by
  unfold bindDictionary at bound
  cases made : bindEntries evaluator parameter scope [] entries with
  | error e =>
      rw [made] at bound
      cases bound
  | ok members =>
      rw [made] at bound
      cases bound
      exact ⟨members, rfl⟩

end Binding

/-! ## The arguments of a node -/

/-- Whether a named value can be the argument of a parameter. -/
def Parameter.Takes (p : Parameter) (argument : String × Value) : Prop :=
  argument.1 = p.name ∧ p.kind.Admits argument.2

theorem Parameter.keys_of_takes {ps : List Parameter} {arguments : Members}
    (taken : List.Forall₂ Takes ps arguments) : arguments.keys = ps.map name := by
  induction taken with
  | nil => rfl
  | cons one _ ih => exact congrArg₂ List.cons one.1 ih

theorem Parameter.exists_of_takes {p : Parameter} {ps : List Parameter} {arguments : Members}
    (taken : List.Forall₂ Takes ps arguments) (member : p ∈ ps) :
    ∃ v, (p.name, v) ∈ arguments ∧ p.kind.Admits v := by
  induction taken with
  | nil => cases member
  | cons one _ ih =>
      obtain rfl | later := List.mem_cons.1 member
      · exact ⟨_, one.1 ▸ List.mem_cons_self, one.2⟩
      · obtain ⟨v, there, admits⟩ := ih later
        exact ⟨v, List.mem_cons_of_mem _ there, admits⟩

namespace Node

variable {n : Node} {evaluator : Evaluator} {context : Context} {scope : Document}

/-- The parameters that the engine does not fill itself. -/
def mapped (ps : List Parameter) : List Parameter := ps.filter fun p => !p.kind.isInjected

theorem bindParameter_admits {p : Parameter} {v : Value}
    (bound : n.bindParameter evaluator scope p = .ok v) : p.kind.Admits v := by
  unfold bindParameter at bound
  split at bound
  · rename_i dictionary
    rw [dictionary.1]
    exact .inr (Binding.bindDictionary_eq_ok bound)
  · exact Binding.bind_admits bound

/-- What the parameters that are still to be bound add to an invocation. -/
theorem bindFrom_eq_ok {ps : List Parameter} {i i' : Invocation}
    (fresh : (i.arguments.keys ++ (mapped ps).map Parameter.name).Nodup)
    (bound : n.bindFrom evaluator context scope i ps = .ok i') :
    (∃ added, i'.arguments = i.arguments ++ added ∧
        List.Forall₂ Parameter.Takes (mapped ps) added) ∧
      (i'.context.isSome ↔ i.context.isSome ∨ ∃ p ∈ ps, p.kind = .context) ∧
      (i'.flow.isSome ↔ i.flow.isSome ∨ ∃ p ∈ ps, p.kind = .flow) := by
  induction ps generalizing i with
  | nil =>
      cases bound
      exact ⟨⟨[], (List.append_nil _).symm, .nil⟩, by simp, by simp⟩
  | cons p ps ih =>
      cases kind : p.kind with
      | context | flow =>
          simp only [bindFrom, kind] at bound
          have same : mapped (p :: ps) = mapped ps := by simp [mapped, kind, ParamKind.isInjected]
          rw [same] at fresh ⊢
          obtain ⟨taken, contexts, flows⟩ := ih (by exact fresh) bound
          exact ⟨taken, by simp [contexts, kind], by simp [flows, kind]⟩
      | _ =>
          simp only [bindFrom, kind] at bound
          have more : mapped (p :: ps) = p :: mapped ps := by
            simp [mapped, kind, ParamKind.isInjected]
          split at bound
          · cases bound
          rename_i v one
          rw [more] at fresh ⊢
          -- the name is new, so the argument comes behind those that are there
          have new : p.name ∉ i.arguments.keys := fun old =>
            (List.nodup_append.1 fresh).2.2 _ old _ List.mem_cons_self rfl
          have put : i.arguments.put p.name v = i.arguments ++ [(p.name, v)] :=
            Members.put_fresh v new
          obtain ⟨⟨added, arguments, taken⟩, contexts, flows⟩ := ih
            (by simpa [put, Members.keys] using fresh) bound
          refine ⟨⟨(p.name, v) :: added, ?_, .cons ⟨rfl, bindParameter_admits one⟩ taken⟩, ?_, ?_⟩
          · rw [arguments, put, List.append_assoc, List.singleton_append]
          · simp [contexts, kind]
          · simp [flows, kind]

end Node

/-! ## Reading arguments -/

namespace Arguments

variable {arguments : Members} {name : String} {v : Value}

theorem need_of_mem (distinct : arguments.keys.Nodup) (member : (name, v) ∈ arguments) :
    need arguments name = .ok v := by
  rw [need, Members.get?_of_mem distinct member]

theorem needAs_of_need {α : Type} {view : Value → Option α} {x : α} (expected : String)
    (there : need arguments name = .ok v) (seen : view v = some x) :
    needAs view expected arguments name = .ok x := by
  rw [needAs, there]
  simp only [seen]

end Arguments

/-- **Arguments are of their parameters' kinds.**  When the parameters of a node, whose names are
different, are bound, there is one argument for each that the engine does not fill itself, in their
order and of its kind, and the engine's handles are there if and only if they are declared.  So no
function fails to read an argument as what it has declared.

What has been fitted to a kind once is not changed by fitting it again. -/
theorem arguments_are_of_their_kinds :
    (∀ (n : Node) (evaluator : Evaluator) (context : Context) (scope : Document) (i : Invocation),
      let ps := n.function.signature.parameters
      (ps.map Parameter.name).Nodup → n.bind evaluator context scope = .ok i →
        (i.arguments.keys.Nodup ∧
          List.Forall₂ Parameter.Takes (ps.filter fun p => !p.kind.isInjected) i.arguments) ∧
        ((i.context.isSome ↔ ∃ p ∈ ps, p.kind = .context) ∧
          (i.flow.isSome ↔ ∃ p ∈ ps, p.kind = .flow)) ∧
        ∀ p ∈ ps,
          (p.kind.isInjected = false →
            ∃ v, Arguments.need i.arguments p.name = .ok v ∧ p.kind.Admits v) ∧
          (p.kind = .bool → ∃ b, Arguments.needBool i.arguments p.name = .ok b) ∧
          (p.kind = .integer → ∃ k, Arguments.needInteger i.arguments p.name = .ok k ∧
            -0x8000000000000000 ≤ k ∧ k < 0x8000000000000000) ∧
          (p.kind = .float → ∃ x, Arguments.needFloat i.arguments p.name = .ok x ∧
            x.isFinite = true)) ∧
    ∀ parameter kind v w, Binding.coerce parameter kind v = .ok w →
      ∀ other, Binding.coerce other kind w = .ok w := by
  refine ⟨?_, fun _ _ _ _ fitted _ => Binding.coerce_of_admits (Binding.coerce_admits fitted)⟩
  intro n evaluator context scope i ps distinct bound
  have names : ((Node.mapped ps).map Parameter.name).Nodup :=
    distinct.sublist (List.filter_sublist.map _)
  obtain ⟨⟨added, arguments, taken⟩, contexts, flows⟩ := Node.bindFrom_eq_ok (by exact names) bound
  rw [List.nil_append] at arguments
  subst arguments
  have nodup : i.arguments.keys.Nodup := Parameter.keys_of_takes taken ▸ names
  have needed : ∀ p ∈ ps, p.kind.isInjected = false →
      ∃ v, Arguments.need i.arguments p.name = .ok v ∧ p.kind.Admits v := by
    intro p member mapped
    obtain ⟨v, there, admits⟩ := Parameter.exists_of_takes taken
      (List.mem_filter.2 ⟨member, by simp [mapped]⟩)
    exact ⟨v, Arguments.need_of_mem nodup there, admits⟩
  refine ⟨⟨nodup, taken⟩, ⟨by simpa using contexts, by simpa using flows⟩, fun p member =>
    ⟨needed p member, fun kind => ?_, fun kind => ?_, fun kind => ?_⟩⟩
  all_goals
    obtain ⟨v, there, admits⟩ := needed p member (by rw [kind]; rfl)
    rw [kind] at admits
  · obtain ⟨b, rfl⟩ := admits
    exact ⟨b, Arguments.needAs_of_need _ there rfl⟩
  · obtain ⟨m, k, rfl, signed⟩ := admits
    exact ⟨k, Arguments.needAs_of_need _ there signed, Number.toSigned?_bounds signed⟩
  · obtain ⟨x, finite, rfl⟩ := admits
    exact ⟨x, Arguments.needAs_of_need _ there rfl, finite⟩

namespace Sample

/-- A function with parameters of most kinds. -/
def collector : Function :=
  ⟨⟨"collect", "", Signature.generalCategory,
    [⟨"flag", .bool⟩, ⟨"context", .context⟩, ⟨"count", .integer⟩, ⟨"ratio", .float⟩,
      ⟨"names", .array⟩, ⟨"label", .string⟩, ⟨"first", .map⟩], []⟩, fun _ => .return_ .unit⟩

/-- A node that maps a path, a template and a dictionary to them and leaves others out. -/
def collecting : Node :=
  .ofSpec ((NodeSpec.new ⟨1⟩ "collect").withInput "flag" "input.flag"
    |>.withInput "count" "{{ input.names | size }}"
    |>.withInput "names" "{{ input.names }}"
    |>.withEntry "first" "name" "input.names[0]") collector

def collected : Document :=
  ⟨.obj [("input", .obj [("flag", .str " True "), ("names", .arr [.str "a", .str "b"])])]⟩

end Sample

open Sample

/-- Blanks and case, a count as text, a list without quotes, nothing at all, and a dictionary. -/
theorem collecting_arguments :
    let context : Context := ⟨⟨0⟩, ⟨1⟩, none, .empty⟩
    let ps := collecting.function.signature.parameters
    let arguments : Members := [("flag", .bool true), ("count", .ofCount 2),
      ("ratio", ParamKind.float.zero), ("names", .arr [.str "a", .str "b"]), ("label", .null),
      ("first", .obj [("name", .str "a")])]
    ((ps.map Parameter.name).Nodup ∧
      collecting.bind Template.render context collected = .ok ⟨arguments, some context, none⟩ ∧
      List.Forall₂ Parameter.Takes (ps.filter fun p => !p.kind.isInjected) arguments) ∧
    Binding.coerce "names" .array (.str "[a, b]") = .ok (.arr [.str "a", .str "b"]) ∧
      Binding.coerce "names" .array (.arr [.str "a", .str "b"]) =
        .ok (.arr [.str "a", .str "b"]) := by
  intro context ps arguments
  have distinct : (ps.map Parameter.name).Nodup := by decide
  have bound : collecting.bind Template.render context collected =
      .ok ⟨arguments, some context, none⟩ := by decide +kernel
  have fitted : Binding.coerce "names" .array (.str "[a, b]") =
      .ok (.arr [.str "a", .str "b"]) := by decide +kernel
  exact ⟨⟨distinct, bound, (arguments_are_of_their_kinds.1 _ _ _ _ _ distinct bound).1.2⟩,
    fitted, arguments_are_of_their_kinds.2 _ _ _ _ fitted _⟩

end Flowgraph
