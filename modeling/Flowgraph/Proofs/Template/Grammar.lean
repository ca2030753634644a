/- # Flowgraph.Proofs.Template.Grammar -- a tag is worth what its phrase is worth

The form of a tag,

    operand ( '|' name ( ':' operand ( ',' operand )* )? )*

is written down a second time, without the reader: a `Phrase` is an operand and the filters that are
applied to it, `Phrase.tokens` are the tokens that it is written with, and `Phrase.value` is the left
fold of its filters.  A phrase grows at its end, by a filter or by an argument of the latest one,
which is two tokens either way (`Phrase.induction`).

The reader goes through the tokens of a phrase and stands where what can continue the phrase is
expected (`readFrom_phrase`).  Tokens that are no phrase have been read, where the reader leaves the
form, as far as the longest phrase at their beginning (`read_longest`); its latest filter has not
been applied when more arguments of it were announced.
-/
import Mathlib.Data.List.Basic
import Mathlib.Data.List.Induction
import Flowgraph.Template.Pipeline

set_option autoImplicit false

namespace Flowgraph.Template

open Pipeline

variable {m : Value} {stop : Nat} {ts : List Placed}

/-! ## Phrases -/

/-- The token that an operand is written with. -/
def Operand.token : Operand → Token
  | .literal v => .literal v
  | .path text => .path text

theorem Token.operand?_eq_some_iff {t : Token} {o : Operand} :
    t.operand? = some o ↔ t = o.token := by
  cases t <;> cases o <;> simp [Token.operand?, Operand.token]

/-- What stands before an argument that follows others. -/
def separator : List Operand → Token
  | [] => .colon
  | _ :: _ => .comma

/-- The tokens of arguments: a colon, and commas between them. -/
def argumentTokens : List Operand → List Token
  | [] => []
  | o :: os => .colon :: o.token :: os.flatMap fun o => [.comma, o.token]

def Application.tokens (a : Application) : List Token :=
  .pipe :: .path a.name :: argumentTokens a.arguments

/-- The filter applied to a value, with the values of its arguments. -/
def Application.apply (m v : Value) (a : Application) : Except Error Value :=
  applyFilter a.name v (a.arguments.map (Operand.value m))

/-- An operand and the filters that are applied to it, in order. -/
structure Phrase where
  source : Operand
  applications : List Application

namespace Phrase

def tokens (p : Phrase) : List Token :=
  p.source.token :: p.applications.flatMap Application.tokens

/-- The filters folded over the value of the operand, up to the first that fails. -/
def value (m : Value) (p : Phrase) : Except Error Value :=
  p.applications.foldlM (Application.apply m) (p.source.value m)

/-- Whether a phrase is the longest one that tokens begin with. -/
def Longest (p : Phrase) (words : List Token) : Prop :=
  p.tokens <+: words ∧ ∀ q : Phrase, q.tokens <+: words → q.tokens.length ≤ p.tokens.length

end Phrase

theorem dropLast_append_toList_getLast? {α : Type} (as : List α) :
    as.dropLast ++ as.getLast?.toList = as := by
  cases last : as.getLast? with
  | none => simp [List.getLast?_eq_none_iff.1 last]
  | some a => exact List.dropLast_append_getLast? a last

theorem argumentTokens_concat (os : List Operand) (o : Operand) :
    argumentTokens (os ++ [o]) = argumentTokens os ++ [separator os, o.token] := by
  cases os <;> simp [argumentTokens, separator]

namespace Phrase

variable {p : Phrase} {words : List Token}

theorem tokens_filter (o : Operand) (as : List Application) (f : String) :
    (Phrase.mk o (as ++ [⟨f, []⟩])).tokens = (Phrase.mk o as).tokens ++ [.pipe, .path f] := by
  simp [tokens, Application.tokens, argumentTokens]

theorem tokens_argument (o : Operand) (as : List Application) (f : String) (os : List Operand)
    (x : Operand) : (Phrase.mk o (as ++ [⟨f, os ++ [x]⟩])).tokens =
      (Phrase.mk o (as ++ [⟨f, os⟩])).tokens ++ [separator os, x.token] := by
  simp [tokens, Application.tokens, argumentTokens_concat]

/-- A phrase grows by filters, and its latest filter by arguments. -/
@[elab_as_elim]
theorem induction {motive : Phrase → Prop} (p : Phrase)
    (operand : ∀ o, motive ⟨o, []⟩)
    (filter : ∀ o as f, motive ⟨o, as⟩ → motive ⟨o, as ++ [⟨f, []⟩]⟩)
    (argument : ∀ o as f os x, motive ⟨o, as ++ [⟨f, os⟩]⟩ →
      motive ⟨o, as ++ [⟨f, os ++ [x]⟩]⟩) : motive p := by
  obtain ⟨o, as⟩ := p
  induction as using List.reverseRecOn with
  | nil => exact operand o
  | append_singleton as a before =>
      obtain ⟨f, os⟩ := a
      induction os using List.reverseRecOn with
      | nil => exact filter o as f before
      | append_singleton os x ih => exact argument o as f os x ih

/-- Tokens that begin with a phrase begin with a longest one. -/
theorem exists_longest (begins : p.tokens <+: words) : ∃ q : Phrase, q.Longest words := by
  induction left : words.length - p.tokens.length using Nat.strongRecOn generalizing p with
  | ind n ih =>
      subst left
      by_cases longest : p.Longest words
      · exact ⟨p, longest⟩
      · obtain ⟨q, longer, more⟩ : ∃ q : Phrase, q.tokens <+: words ∧
            p.tokens.length < q.tokens.length := by
          simpa [Longest, begins] using longest
        have bound := longer.length_le
        exact ih _ (by omega) longer rfl

end Phrase

/-! ## The reader at the end of a phrase -/

namespace Pipeline

/-- What is expected behind a phrase whose latest filter is given. -/
def Expect.behind : Option Application → Expect
  | none => .pipe
  | some ⟨f, []⟩ => .afterName f
  | some ⟨f, o :: os⟩ => .afterArgument f (o :: os)

theorem Expect.complete_behind (a : Option Application) : (behind a).complete = a.toList := by
  obtain - | ⟨f, - | ⟨o, os⟩⟩ := a <;> rfl

theorem Expect.mayEnd_behind (a : Option Application) : (behind a).mayEnd = true := by
  obtain - | ⟨f, - | ⟨o, os⟩⟩ := a <;> rfl

theorem Expect.next_pipe (a : Option Application) : (behind a).next .pipe = some .filterName := by
  obtain - | ⟨f, - | ⟨o, os⟩⟩ := a <;> rfl

theorem Expect.next_separator (f : String) (os : List Operand) :
    (behind (some ⟨f, os⟩)).next (separator os) = some (.argument f os) := by
  cases os <;> rfl

theorem Expect.completedBy_separator (f : String) (os : List Operand) :
    (behind (some ⟨f, os⟩)).completedBy (separator os) = [] := by
  cases os <;> rfl

theorem Expect.next_argument (f : String) (os : List Operand) (o : Operand) :
    (Expect.argument f os).next o.token = some (behind (some ⟨f, os ++ [o]⟩)) := by
  cases os <;> cases o <;> rfl

/-- Behind a phrase only a pipe and the separator of its latest arguments are expected. -/
theorem Expect.next_behind {a : Option Application} {t : Token} {e : Expect}
    (next : (behind a).next t = some e) : (t = .pipe ∧ e = .filterName) ∨
      ∃ f os, a = some ⟨f, os⟩ ∧ t = separator os ∧ e = .argument f os := by
  obtain - | ⟨f, - | ⟨o, os⟩⟩ := a <;> cases t <;> simp_all [behind, Expect.next, separator]

theorem readFrom_cons {e e' : Expect} {t : Placed} (next : e.next t.token = some e') :
    readFrom stop e (t :: ts) =
      Prod.map (e.completedBy t.token ++ ·) id (readFrom stop e' ts) := by
  rw [readFrom, next]
  rfl

/-- The form is left where nothing that follows is expected and it may not end. -/
theorem readFrom_leaves {e : Expect} (unexpected : ∀ t ∈ ts.head?, e.next t.token = none)
    (going : ts = [] → e.mayEnd = false) :
    ∃ fault, readFrom stop e ts = (e.complete, some fault) := by
  cases ts with
  | nil => exact ⟨(stop, e.fault), by rw [readFrom, going rfl]; rfl⟩
  | cons t ts => exact ⟨(t.offset, e.fault), by rw [readFrom, unexpected t rfl]⟩

/-- **The reader goes through a phrase**: its filters but the latest are complete, and what may
continue it is expected. -/
theorem readFrom_phrase (stop : Nat) (p : Phrase) (ts us : List Placed)
    (written : ts.map (·.token) = p.tokens) :
    readFrom stop .source (ts ++ us) = Prod.map (p.applications.dropLast ++ ·) id
      (readFrom stop (.behind p.applications.getLast?) us) := by
  induction p using Phrase.induction generalizing ts us with
  | operand o =>
      obtain ⟨t, rfl, token⟩ : ∃ t, ts = [t] ∧ t.token = o.token := by
        simpa [Phrase.tokens, List.map_eq_cons_iff] using written
      have next : Expect.source.next t.token = some .pipe := by
        rw [Expect.next, token, Token.operand?_eq_some_iff.2 rfl, Option.map_some]
      have completed : Expect.source.completedBy t.token = [] := by
        cases t.token <;> rfl
      rw [List.singleton_append, readFrom_cons next, completed]
      rfl
  | filter o as f ih =>
      rw [Phrase.tokens_filter, List.map_eq_append_iff] at written
      obtain ⟨before, two, rfl, own, written⟩ := written
      obtain ⟨t, u, rfl, first, second⟩ : ∃ t u, two = [t, u] ∧ t.token = .pipe ∧
          u.token = .path f := by
        simpa [List.map_eq_cons_iff, and_assoc] using written
      have pipe : (Expect.behind as.getLast?).next t.token = some .filterName := by
        rw [first, Expect.next_pipe]
      have name : Expect.filterName.next u.token = some (.behind (some ⟨f, []⟩)) := by
        rw [second]
        rfl
      have named : Expect.filterName.completedBy u.token = [] := by
        rw [second]
        rfl
      rw [List.append_assoc, ih before ([t, u] ++ us) own]
      simp only [List.cons_append, List.nil_append, readFrom_cons pipe, readFrom_cons name, named]
      simp only [first, Expect.completedBy, Expect.complete_behind, List.getLast?_concat,
        List.dropLast_concat, Prod.map_map, Function.comp_def, ← List.append_assoc,
        dropLast_append_toList_getLast?]
      rfl
  | argument o as f os x ih =>
      rw [Phrase.tokens_argument, List.map_eq_append_iff] at written
      obtain ⟨before, two, rfl, own, written⟩ := written
      obtain ⟨t, u, rfl, first, second⟩ : ∃ t u, two = [t, u] ∧ t.token = separator os ∧
          u.token = x.token := by
        simpa [List.map_eq_cons_iff, and_assoc] using written
      have announced : (Expect.behind (some ⟨f, os⟩)).next t.token = some (.argument f os) := by
        rw [first, Expect.next_separator]
      have taken : (Expect.argument f os).next u.token = some (.behind (some ⟨f, os ++ [x]⟩)) := by
        rw [second, Expect.next_argument]
      have argued : (Expect.argument f os).completedBy u.token = [] := by
        rw [second]
        cases x <;> rfl
      rw [List.append_assoc, ih before ([t, u] ++ us) own]
      simp only [List.getLast?_concat, List.dropLast_concat, List.cons_append, List.nil_append,
        readFrom_cons announced, readFrom_cons taken, argued, first, Expect.completedBy_separator,
        Prod.map_map]
      rfl

theorem source_phrase {p : Phrase} (written : ts.map (·.token) = p.tokens) (us : List Placed) :
    (ts ++ us).head?.bind (fun t => t.token.operand?) = some p.source := by
  obtain ⟨t, rest, rfl, first, -⟩ := List.map_eq_cons_iff.1 written
  exact Token.operand?_eq_some_iff.2 first

/-- A phrase is read as it is. -/
theorem read_phrase (stop : Nat) {p : Phrase} (written : ts.map (·.token) = p.tokens) :
    read stop ts = ⟨some p.source, p.applications, none⟩ := by
  have whole := readFrom_phrase stop p ts [] written
  have source := source_phrase written []
  rw [List.append_nil] at whole source
  simp only [read, whole, source, readFrom, Expect.mayEnd_behind, Expect.complete_behind,
    Prod.map_fst, Prod.map_snd, dropLast_append_toList_getLast?, if_true, id]

/-- What follows the longest phrase is no filter and no argument of its latest filter. -/
theorem Expect.next_longest {p : Phrase} {t : Placed} {us : List Placed} {e : Expect}
    (written : ts.map (·.token) = p.tokens)
    (longest : p.Longest ((ts ++ t :: us).map (·.token)))
    (next : (behind p.applications.getLast?).next t.token = some e) :
    ∀ u ∈ us.head?, e.next u.token = none := by
  intro u second
  obtain ⟨rest, rfl⟩ := List.head?_eq_some_iff.1 second
  by_contra continued
  obtain ⟨q, grown⟩ : ∃ q : Phrase, q.tokens = p.tokens ++ [t.token, u.token] := by
    obtain ⟨o, as⟩ := p
    obtain ⟨pipe, rfl⟩ | ⟨f, os, latest, sep, rfl⟩ := next_behind next
    · cases token : u.token with
      | path f => exact ⟨_, by rw [pipe, ← Phrase.tokens_filter]⟩
      | _ => exact absurd (by rw [token]; rfl) continued
    · obtain ⟨x, operand⟩ : ∃ x, u.token.operand? = some x := by
        simpa [Expect.next, Option.ne_none_iff_exists'] using continued
      obtain ⟨before, rfl⟩ := List.getLast?_eq_some_iff.1 latest
      exact ⟨_, by rw [sep, Token.operand?_eq_some_iff.1 operand, ← Phrase.tokens_argument]⟩
  have bound := longest.2 q ⟨rest.map (·.token), by simp [grown, written]⟩
  rw [grown, List.length_append, List.length_cons] at bound
  omega

/-- **Tokens that go on behind their longest phrase** are read as that phrase, without its latest
filter when an argument of it is missing, and a fault. -/
theorem read_longest {p : Phrase} {t : Placed} {us : List Placed}
    (written : ts.map (·.token) = p.tokens)
    (longest : p.Longest ((ts ++ t :: us).map (·.token))) :
    ∃ applied fault, (applied = p.applications ∨ applied = p.applications.dropLast) ∧
      read stop (ts ++ t :: us) = ⟨some p.source, applied, some fault⟩ := by
  have whole := readFrom_phrase stop p ts (t :: us) written
  have source := source_phrase written (t :: us)
  simp only [read, whole, source, Prod.map_fst, Prod.map_snd, id, Pipeline.mk.injEq, true_and]
  cases next : (Expect.behind p.applications.getLast?).next t.token with
  | none =>
      refine ⟨_, (t.offset, (Expect.behind p.applications.getLast?).fault), .inl rfl, ?_⟩
      simp only [readFrom, next, Expect.complete_behind, dropLast_append_toList_getLast?, and_self]
  | some e =>
      have unexpected := Expect.next_longest written longest next
      rw [readFrom_cons next]
      obtain ⟨pipe, rfl⟩ | ⟨f, os, latest, sep, rfl⟩ := Expect.next_behind next
      · obtain ⟨fault, (rest : readFrom stop .filterName us = ([], some fault))⟩ :=
          readFrom_leaves unexpected fun _ => rfl
        refine ⟨_, fault, .inl rfl, ?_⟩
        simp only [rest, pipe, Expect.completedBy, Expect.complete_behind, Prod.map_fst,
          Prod.map_snd, List.append_nil, dropLast_append_toList_getLast?, id, and_self]
      · obtain ⟨fault, (rest : readFrom stop (.argument f os) us = ([], some fault))⟩ :=
          readFrom_leaves unexpected fun _ => rfl
        refine ⟨_, fault, .inr rfl, ?_⟩
        simp only [rest, latest, sep, Expect.completedBy_separator, Prod.map_fst, Prod.map_snd,
          List.append_nil, id, and_self]

/-- Tokens that begin with no phrase are left at once. -/
theorem read_nothing (stop : Nat) (nothing : ∀ p : Phrase, ¬p.tokens <+: ts.map (·.token)) :
    ∃ source fault, read stop ts = ⟨source, [], some fault⟩ := by
  have unexpected : ∀ t ∈ ts.head?, Expect.source.next t.token = none := by
    intro t first
    obtain ⟨rest, rfl⟩ := List.head?_eq_some_iff.1 first
    by_contra operand
    obtain ⟨o, operand⟩ : ∃ o, t.token.operand? = some o := by
      simpa [Expect.next, Option.ne_none_iff_exists'] using operand
    refine nothing ⟨o, []⟩ ⟨rest.map (·.token), ?_⟩
    simp [Phrase.tokens, Token.operand?_eq_some_iff.1 operand]
  obtain ⟨fault, (whole : readFrom stop .source ts = ([], some fault))⟩ :=
    readFrom_leaves unexpected fun _ => rfl
  exact ⟨ts.head?.bind fun t => t.token.operand?, fault, by simp only [read, whole]⟩

/-! ## Values -/

theorem fold_eq_foldlM (m v : Value) (as : List Application) :
    fold m v as = as.foldlM (Application.apply m) v := by
  induction as generalizing v with
  | nil => rfl
  | cons a as ih =>
      rw [fold, List.foldlM_cons, Application.apply]
      cases applyFilter a.name v (a.arguments.map (Operand.value m)) with
      | error e => rfl
      | ok w => exact ih w

/-- What has been read of a phrase is worth what the phrase is, up to a fault. -/
theorem evaluate_source (m : Value) (p : Phrase) (fault : Option (Nat × Fault)) :
    evaluate m ⟨some p.source, p.applications, fault⟩ = (p.value m).bind fun v =>
      fault.elim (.ok v) fun f => .error (.form f.1 f.2) := by
  have folded : fold m (p.source.value m) p.applications = p.value m := fold_eq_foldlM m _ _
  simp only [evaluate, Option.map_some, Option.getD_some, folded]
  cases p.value m <;> cases fault <;> rfl

end Pipeline

/-- A phrase is worth what it is worth without its latest filter, and that filter applied to it. -/
theorem Phrase.value_dropLast (m : Value) (o : Operand) (as : List Application) :
    (Phrase.mk o as).value m = ((Phrase.mk o as.dropLast).value m).bind fun v =>
      as.getLast?.toList.foldlM (Application.apply m) v := by
  conv_lhs => rw [Phrase.value, ← dropLast_append_toList_getLast? as, List.foldlM_append]
  rfl

theorem evaluate_of_tokens {e : String} (read : tokens 0 e.toList = .ok ts) :
    evaluate e m = (Pipeline.read (Text.byteSize e.toList) ts).evaluate m := by
  rw [evaluate, evaluateAt, read, Nat.zero_add]

/-- Tokens that begin with a phrase and are none go on behind it. -/
theorem exists_rest {p : Phrase} (begins : p.tokens <+: ts.map (·.token))
    (more : ts.map (·.token) ≠ p.tokens) :
    ∃ before t after, ts = before ++ t :: after ∧ before.map (·.token) = p.tokens := by
  obtain ⟨rest, split⟩ := begins
  obtain ⟨before, after, rfl, own, rfl⟩ := List.map_eq_append_iff.1 split.symm
  cases after with
  | nil => exact absurd (by simpa using own) more
  | cons t after => exact ⟨before, t, after, rfl, own⟩

/-- Tokens that go on behind their longest phrase have no value: the error is one of form, or that of
a filter of the phrase. -/
theorem evaluate_longest {e : String} (lexed : tokens 0 e.toList = .ok ts) (m : Value) {p : Phrase}
    (longest : p.Longest (ts.map (·.token))) (more : ts.map (·.token) ≠ p.tokens) :
    (∃ offset fault, evaluate e m = .error (.form offset fault)) ∨
      ∃ failure, p.value m = .error failure ∧ evaluate e m = .error failure := by
  obtain ⟨before, t, after, rfl, written⟩ := exists_rest longest.1 more
  obtain ⟨applied, fault, which, left⟩ := Pipeline.read_longest written longest
  have worth : evaluate e m = ((Phrase.mk p.source applied).value m).bind fun _ =>
      .error (.form fault.1 fault.2) := by
    rw [evaluate_of_tokens lexed, left]
    exact Pipeline.evaluate_source m ⟨p.source, applied⟩ (some fault)
  obtain ⟨last, value⟩ : ∃ last : Value → Except Error Value,
      p.value m = ((Phrase.mk p.source applied).value m).bind last := by
    obtain rfl | rfl := which
    · exact ⟨.ok, by cases p.value m <;> rfl⟩
    · exact ⟨_, Phrase.value_dropLast m p.source p.applications⟩
  cases applied : (Phrase.mk p.source applied).value m with
  | ok v => exact .inl ⟨fault.1, fault.2, by rw [worth, applied]; rfl⟩
  | error failure => exact .inr ⟨failure, by rw [value, applied]; rfl, by rw [worth, applied]; rfl⟩

/-- A body that is written as a phrase is worth what the phrase is worth. -/
theorem evaluate_written {e : String} (lexed : tokens 0 e.toList = .ok ts) (m : Value) {p : Phrase}
    (written : ts.map (·.token) = p.tokens) : evaluate e m = p.value m := by
  rw [evaluate_of_tokens lexed, Pipeline.read_phrase _ written, Pipeline.evaluate_source]
  cases p.value m <;> rfl

/-- **Tokens that are no phrase have no value.**  What is wrong with them is their form, unless a
filter of their longest phrase fails before that is seen. -/
theorem evaluate_unwritten {e : String} (lexed : tokens 0 e.toList = .ok ts) (m : Value)
    (none : ∀ p : Phrase, ts.map (·.token) ≠ p.tokens) :
    (∃ offset fault, evaluate e m = .error (.form offset fault)) ∨
      ∃ (p : Phrase) (failure : Error), p.Longest (ts.map (·.token)) ∧
        p.value m = .error failure ∧ evaluate e m = .error failure := by
  by_cases begins : ∃ p : Phrase, p.tokens <+: ts.map (·.token)
  · obtain ⟨p, begins⟩ := begins
    obtain ⟨q, longest⟩ := Phrase.exists_longest begins
    obtain form | ⟨failure, fails, worth⟩ := evaluate_longest lexed m longest (none q)
    · exact .inl form
    · exact .inr ⟨q, failure, longest, fails, worth⟩
  · obtain ⟨source, fault, left⟩ := Pipeline.read_nothing (Text.byteSize e.toList) fun p h =>
      begins ⟨p, h⟩
    refine .inl ⟨fault.1, fault.2, ?_⟩
    rw [evaluate_of_tokens lexed, left]
    rfl

/-- A body that is worth something is written as a phrase. -/
theorem exists_phrase {e : String} {v : Value} (worth : evaluate e m = .ok v) :
    ∃ ts, tokens 0 e.toList = .ok ts ∧ ∃ p : Phrase, ts.map (·.token) = p.tokens := by
  cases lexed : tokens 0 e.toList with
  | error failure =>
      rw [evaluate, evaluateAt, lexed] at worth
      cases worth
  | ok ts =>
      refine ⟨ts, rfl, ?_⟩
      by_contra none
      obtain ⟨_, _, failed⟩ | ⟨_, _, -, -, failed⟩ :=
        evaluate_unwritten lexed m fun p h => none ⟨p, h⟩
      all_goals
        rw [worth] at failed
        cases failed

/-- **A tag is worth what its phrase is worth.**  When the tokens of a tag's body are written by the
form, an operand and filters with arguments, the body is evaluated to the left fold of the filters
over the operand's value, or to the error of the first filter that fails.

Tokens that are no such phrase have no value.  The error is one of form, unless a filter of the
longest phrase at their beginning fails; then it is the error of that filter or, where an argument
of the latest filter is missing, still one of form. -/
theorem evaluation_follows_the_form {e : String} {ts : List Placed}
    (lexed : tokens 0 e.toList = .ok ts) (m : Value) :
    (∀ p : Phrase, ts.map (·.token) = p.tokens → evaluate e m = p.value m) ∧
    ((∀ p : Phrase, ts.map (·.token) ≠ p.tokens) → ∃ error, evaluate e m = .error error ∧
      ((∀ p : Phrase, p.Longest (ts.map (·.token)) → ∃ v, p.value m = .ok v) →
        ∃ offset fault, error = .form offset fault) ∧
      ∀ p : Phrase, p.Longest (ts.map (·.token)) → ∀ failure, p.value m = .error failure →
        error = failure ∨ ∃ offset fault, error = .form offset fault) := by
  refine ⟨fun p written => evaluate_written lexed m written, fun none => ?_⟩
  obtain ⟨offset, fault, worth⟩ | ⟨p, failure, longest, fails, worth⟩ :=
    evaluate_unwritten lexed m none
  · exact ⟨_, worth, fun _ => ⟨offset, fault, rfl⟩, fun _ _ _ _ => .inr ⟨offset, fault, rfl⟩⟩
  refine ⟨failure, worth, fun applies => ?_, fun q also failure' fails' => ?_⟩
  · obtain ⟨v, value⟩ := applies p longest
    rw [fails] at value
    cases value
  · obtain ⟨offset, fault, worth'⟩ | ⟨_, same, worth'⟩ := evaluate_longest lexed m also (none q)
    · rw [worth] at worth'
      exact .inr ⟨offset, fault, Except.error.inj worth'⟩
    · rw [worth] at worth'
      rw [fails'] at same
      exact .inl ((Except.error.inj worth').trans (Except.error.inj same).symm)

/-- A phrase, and its tokens with an argument announced behind it. -/
theorem evaluation_follows_the_form_of_arguments :
    let m : Value := .obj [("a", .arr [.str "é"])]
    let ts : List Placed := [⟨.path "a", 0⟩, ⟨.pipe, 2⟩, ⟨.path "first", 4⟩, ⟨.pipe, 10⟩,
      ⟨.path "append", 12⟩, ⟨.colon, 18⟩, ⟨.literal (.str "|"), 20⟩, ⟨.comma, 23⟩, ⟨.path "b", 25⟩]
    tokens 0 "a | first | append: '|', b".toList = .ok ts ∧
      evaluate "a | first | append: '|', b" m = .ok (.str "é|") ∧
      tokens 0 "a | first | append: '|', b,".toList = .ok (ts ++ [⟨.comma, 26⟩]) ∧
      ∃ error, evaluate "a | first | append: '|', b," m = .error error := by
  intro m ts
  have lexed : tokens 0 "a | first | append: '|', b".toList = .ok ts := by rfl
  have longer : tokens 0 "a | first | append: '|', b,".toList = .ok (ts ++ [⟨.comma, 26⟩]) := by rfl
  let p : Phrase := ⟨.path "a", [⟨"first", []⟩, ⟨"append", [.literal (.str "|"), .path "b"]⟩]⟩
  have worth : evaluate "a | first | append: '|', b" m = p.value m :=
    (evaluation_follows_the_form lexed m).1 p rfl
  obtain ⟨error, failed, -⟩ := (evaluation_follows_the_form longer m).2 fun p written => by
    exact Option.some_ne_none _
      (congrArg Pipeline.fault (Pipeline.read_phrase 27 written))
  exact ⟨lexed, worth.trans rfl, longer, error, failed⟩

end Flowgraph.Template
