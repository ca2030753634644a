/- # Flowgraph.Proofs.Template.Tags -- where a tag ends

The scan of a template looks for the end of a tag before anything is known of its body.  It finds
the end behind a body that is `Sealed`: quotes come in pairs, between them a backslash hides a
character, and two closing braces stand only there.  No other body is ever found
(`exists_sealed_of_piecesFrom`).

The lexer reads the same quotes as strings, and reads no brace and no other quote, except in the
brackets of a path, where it takes any character as it is.  So a body that it reads is sealed when
its bracketed paths are (`sealed_of_lex`).
-/
import Flowgraph.Proofs.Document.Spelling
import Flowgraph.Proofs.Template.Composition
import Flowgraph.Proofs.Template.Grammar

set_option autoImplicit false

namespace Flowgraph.Template

variable {a b cs body inner : List Char} {c q : Char} {m v : Value} {ts : List Placed}

/-! ## Sealed bodies -/

def IsQuote (c : Char) : Prop := c = '\x22' ∨ c = '\x27'

/-- A text that can stand between two quotes: none of it ends it, and a backslash is followed by the
character that it hides. -/
inductive Enclosed (q : Char) : List Char → Prop
  | nil : Enclosed q []
  | plain {c : Char} {cs : List Char} (bare : c ≠ q) (slash : c ≠ '\\') (rest : Enclosed q cs) :
      Enclosed q (c :: cs)
  | escaped {c : Char} {cs : List Char} (rest : Enclosed q cs) : Enclosed q ('\\' :: c :: cs)

/-- A text in which quotes come in pairs, and a closing brace that is not between them has another
character behind it. -/
inductive Sealed : List Char → Prop
  | nil : Sealed []
  | plain {c : Char} {cs : List Char} (bare : ¬IsQuote c) (open_ : c ≠ '}') (rest : Sealed cs) :
      Sealed (c :: cs)
  | brace {d : Char} {cs : List Char} (open_ : d ≠ '}') (rest : Sealed (d :: cs)) :
      Sealed ('}' :: d :: cs)
  | quoted {q : Char} {inner cs : List Char} (quote : IsQuote q) (enclosed : Enclosed q inner)
      (rest : Sealed cs) : Sealed (q :: (inner ++ q :: cs))

theorem Sealed.append (one : Sealed a) (two : Sealed b) : Sealed (a ++ b) := by
  induction one with
  | nil => exact two
  | plain bare open_ _ ih => exact .plain bare open_ ih
  | brace open_ _ ih => exact .brace open_ ih
  | quoted quote enclosed _ ih =>
      rw [List.cons_append, List.append_assoc, List.cons_append]
      exact .quoted quote enclosed ih

theorem sealed_of_plain (plain : ∀ c ∈ cs, ¬IsQuote c ∧ c ≠ '}') : Sealed cs := by
  induction cs with
  | nil => exact .nil
  | cons c cs ih =>
      obtain ⟨bare, open_⟩ := plain c List.mem_cons_self
      exact .plain bare open_ (ih fun d member => plain d (List.mem_cons_of_mem _ member))

theorem slash_bare : ¬IsQuote '\\' := by
  unfold IsQuote
  decide

theorem brace_bare : ¬IsQuote '}' := by
  unfold IsQuote
  decide

/-! ## The scan -/

theorem Scan.after_quote (quote : IsQuote c) (seen : List Char) :
    (Scan.tag seen).after c = .quoted (c :: seen) c false := if_pos quote

theorem Scan.after_bare (bare : ¬IsQuote c) (seen : List Char) :
    (Scan.tag seen).after c = .tag (c :: seen) := if_neg bare

theorem piecesFrom_quoted (seen : List Char) (q : Char) (escaped : Bool) (c : Char)
    (cs : List Char) : piecesFrom (.quoted seen q escaped) (c :: cs) =
      piecesFrom (Scan.after (.quoted seen q escaped) c) cs :=
  piecesFrom_plain (by simp [Scan.Plain, Scan.mark])

/-- The scan goes through a quoted text and is out of quotes behind it. -/
theorem piecesFrom_enclosed (quote : IsQuote q) (enclosed : Enclosed q inner)
    (seen cs : List Char) : piecesFrom (.quoted seen q false) (inner ++ q :: cs) =
      piecesFrom (.tag (q :: (inner.reverse ++ seen))) cs := by
  induction enclosed generalizing seen with
  | nil =>
      have slash : q ≠ '\\' := fun same => slash_bare (same ▸ quote)
      simp [piecesFrom_quoted, Scan.after, slash]
  | plain bare slash _ ih => simp [piecesFrom_quoted, Scan.after, bare, slash, ih]
  | escaped _ ih => simp [piecesFrom_quoted, Scan.after, ih]

/-- **A sealed body is found**: the scan goes through it to the braces behind it. -/
theorem piecesFrom_sealed (sealed_ : Sealed body) (seen after : List Char) :
    piecesFrom (.tag seen) (body ++ '}' :: '}' :: after) =
      .tag (seen.reverse ++ body) :: piecesFrom (.text []) after := by
  induction sealed_ generalizing seen with
  | nil => simp [piecesFrom_closing]
  | @plain c cs bare open_ _ ih =>
      have plain : Scan.Plain (.tag seen) c (cs ++ '}' :: '}' :: after) := by
        rintro d mark ⟨rfl, -⟩
        exact open_ (Option.mem_some.1 mark).symm
      rw [List.cons_append, piecesFrom_plain plain, Scan.after_bare bare, ih]
      simp
  | @brace d cs open_ _ ih =>
      have plain : Scan.Plain (.tag seen) '}' (d :: cs ++ '}' :: '}' :: after) := by
        rintro e mark ⟨rfl, second⟩
        exact open_ (by simpa using second)
      rw [List.cons_append, piecesFrom_plain plain, Scan.after_bare brace_bare, ih]
      simp
  | @quoted q inner cs quote enclosed _ ih =>
      have plain : Scan.Plain (.tag seen) q (inner ++ q :: cs ++ '}' :: '}' :: after) := by
        rintro d mark ⟨rfl, -⟩
        exact brace_bare ((Option.mem_some.1 mark).symm ▸ quote)
      rw [List.cons_append, piecesFrom_plain plain, Scan.after_quote quote, List.append_assoc,
        List.cons_append, piecesFrom_enclosed quote enclosed, ih]
      simp

namespace Scan

/-- The characters of the tag that the scan is in. -/
def seen : Scan → List Char
  | .text seen => seen
  | .tag seen => seen
  | .quoted seen _ _ => seen

/-- What makes a text the rest of a sealed body, where the scan stands in a tag. -/
def Seals : Scan → List Char → Prop
  | .text _, _ => False
  | .tag _, body => Sealed body
  | .quoted _ q escaped, body => ∃ inner rest, body = inner ++ q :: rest ∧
      Enclosed q (if escaped then '\\' :: inner else inner) ∧ Sealed rest

theorem seen_after (s : Scan) (c : Char) : (s.after c).seen = c :: s.seen := by
  cases s with
  | text seen => rfl
  | tag seen =>
      simp only [after]
      split_ifs <;> rfl
  | quoted seen q escaped =>
      simp only [after]
      split_ifs <;> rfl

/-- What the scan goes over without ending the tag belongs to the body. -/
theorem Seals.before {s : Scan} (plain : s.Plain c (body ++ '}' :: '}' :: cs))
    (seals : (s.after c).Seals body) : s.Seals (c :: body) := by
  cases s with
  | text seen => exact seals
  | tag seen =>
      by_cases quote : IsQuote c
      · rw [after_quote quote] at seals
        obtain ⟨inner, rest, rfl, enclosed, rest_sealed⟩ := seals
        exact .quoted quote enclosed rest_sealed
      rw [after_bare quote] at seals
      by_cases brace : c = '}'
      · subst brace
        cases body with
        | nil => exact absurd ⟨rfl, rfl⟩ (plain '}' rfl)
        | cons d body =>
            exact .brace (fun same => plain '}' rfl ⟨rfl, by rw [same]; rfl⟩) seals
      · exact .plain quote brace seals
  | quoted seen q escaped =>
      cases escaped with
      | true =>
          obtain ⟨inner, rest, rfl, enclosed, rest_sealed⟩ := seals
          exact ⟨c :: inner, rest, rfl, .escaped enclosed, rest_sealed⟩
      | false =>
          simp only [after, Bool.false_eq_true, if_false] at seals
          split_ifs at seals with slash ends
          · obtain ⟨inner, rest, rfl, enclosed, rest_sealed⟩ := seals
            exact ⟨c :: inner, rest, rfl, slash ▸ enclosed, rest_sealed⟩
          · exact ⟨[], body, by rw [ends]; rfl, .nil, seals⟩
          · obtain ⟨inner, rest, rfl, enclosed, rest_sealed⟩ := seals
            exact ⟨c :: inner, rest, rfl, .plain ends slash enclosed, rest_sealed⟩

end Scan

/-- **Only sealed bodies are found**: a tag that the scan is in ends at the braces behind a body that
is sealed. -/
theorem exists_sealed_of_piecesFrom {s : Scan} {ps : List Piece}
    (found : piecesFrom s cs = .tag b :: ps) : ∃ body after,
      b = s.seen.reverse ++ body ∧ cs = body ++ '}' :: '}' :: after ∧
        ps = piecesFrom (.text []) after ∧ s.Seals body := by
  induction s, cs using Scan.induction with
  | nil s => cases s <;> cases found
  | opening seen cs ih =>
      rw [piecesFrom_opening] at found
      cases found
  | closing seen cs ih =>
      rw [piecesFrom_closing] at found
      cases found
      exact ⟨[], cs, (List.append_nil _).symm, rfl, rfl, .nil⟩
  | plain s c cs plain ih =>
      rw [piecesFrom_plain plain] at found
      obtain ⟨body, after, rfl, rfl, rfl, seals⟩ := ih found
      refine ⟨c :: body, after, ?_, rfl, rfl, .before plain seals⟩
      rw [Scan.seen_after, List.reverse_cons, List.append_assoc, List.singleton_append]

/-- **A tag ends behind its body** exactly when the body is sealed. -/
theorem pieces_tag_iff (body : List Char) :
    pieces ('{' :: '{' :: (body ++ ['}', '}'])) = [.text [], .tag body, .text []] ↔
      Sealed body := by
  rw [pieces, piecesFrom_opening]
  constructor
  · intro found
    obtain ⟨body', after, rfl, -, -, seals⟩ := exists_sealed_of_piecesFrom (List.cons.inj found).2
    exact seals
  · intro sealed_
    rw [piecesFrom_sealed sealed_]
    rfl

/-! ## The lexer -/

theorem map_eq_ok_iff {ε α β : Type} {f : α → β} {x : Except ε α} {b : β} :
    x.map f = .ok b ↔ ∃ a, x = .ok a ∧ f a = b := by
  cases x <;> simp [Except.map]

theorem lex_cons_eq_ok_iff {s : LexState} {offset : Nat} : lex s offset (c :: cs) = .ok ts ↔
    ∃ s' new rest, s.step offset c = .ok (s', new) ∧
      lex s' (offset + c.utf8Size) cs = .ok rest ∧ new ++ rest = ts := by
  rw [lex]
  cases s.step offset c with
  | error e => simp
  | ok r => simp [map_eq_ok_iff, Prod.ext_iff]

/-- A character that completes no token only carries the lexer on. -/
theorem lex_silent {s s' : LexState} {offset : Nat} (stepped : s.step offset c = .ok (s', [])) :
    lex s offset (c :: cs) = lex s' (offset + c.utf8Size) cs := by
  simp only [lex, stepped]
  cases lex s' (offset + c.utf8Size) cs <;> rfl

/-- A kind of character that has no quotes and no closing brace in it. -/
theorem bare_of {p : Char → Bool} (kind : p c = true) (quote : p '\x22' = false)
    (apostrophe : p '\x27' = false) (brace : p '}' = false) : ¬IsQuote c ∧ c ≠ '}' := by
  refine ⟨?_, ?_⟩
  · rintro (rfl | rfl)
    · rw [quote] at kind
      cases kind
    · rw [apostrophe] at kind
      cases kind
  · rintro rfl
    rw [brace] at kind
    cases kind

theorem ne_of_bracket {word other : String} (bracket : '[' ∈ word.toList)
    (none : '[' ∉ other.toList) : word ≠ other := by
  rintro rfl
  exact none bracket

/-- A path with a bracket is none of the words that are literals. -/
theorem wordToken_of_bracket (bracket : '[' ∈ cs) : wordToken cs = .path (String.ofList cs) := by
  have inside : '[' ∈ (String.ofList cs).toList := by rwa [String.toList_ofList]
  simp only [wordToken]
  rw [if_neg (ne_of_bracket inside (by decide)), if_neg (ne_of_bracket inside (by decide)), if_neg]
  exact not_or.2 ⟨ne_of_bracket inside (by decide), ne_of_bracket inside (by decide)⟩

/-- A path with a bracket is the name of no filter. -/
theorem Filter.ofName?_of_bracket {name : String} (bracket : '[' ∈ name.toList) :
    Filter.ofName? name = none := by
  rw [Filter.ofName?]
  iterate 15 rw [if_neg (ne_of_bracket bracket ?_)]
  all_goals decide

namespace LexState

/-- In a path without brackets there is no quote and no brace. -/
def Plain : LexState → Prop
  | .path _ text depth => '[' ∉ text → depth = 0 ∧ ∀ c ∈ text, ¬IsQuote c ∧ c ≠ '}'
  | _ => True

/-- What makes a text the rest of a sealed body, from where the lexer stands. -/
def Seals : LexState → List Char → Prop
  | .path _ text _, cs => Sealed (text.reverse ++ cs)
  | .string _ q _ escaped, cs => Scan.Seals (.quoted [] q escaped) cs
  | _, cs => Sealed cs

variable {s s' : LexState} {offset start depth : Nat} {text : List Char} {new : List Placed}
  {t : Option Placed}

/-- Between tokens a quote opens a string, and no closing brace is read. -/
theorem openToken_cases (opened : openToken offset c = .ok (s', t)) :
    (IsQuote c ∧ s' = .string offset c [] false) ∨ ((¬IsQuote c ∧ c ≠ '}') ∧
      (s' = .between ∨ s' = .number offset [c] ∨ s' = .minus offset ∨ s' = .path offset [c] 0)) := by
  simp only [openToken] at opened
  split_ifs at opened with blank pipe colon comma quote digit minus start
  · cases opened
    exact .inr ⟨bare_of blank rfl rfl rfl, .inl rfl⟩
  · cases opened
    exact .inr ⟨by subst pipe; unfold IsQuote; decide, .inl rfl⟩
  · cases opened
    exact .inr ⟨by subst colon; unfold IsQuote; decide, .inl rfl⟩
  · cases opened
    exact .inr ⟨by subst comma; unfold IsQuote; decide, .inl rfl⟩
  · cases opened
    exact .inl ⟨quote, rfl⟩
  · cases opened
    exact .inr ⟨bare_of digit rfl rfl rfl, .inr (.inl rfl)⟩
  · cases opened
    exact .inr ⟨⟨quote, by rw [minus]; decide⟩, .inr (.inr (.inl rfl))⟩
  · cases opened
    exact .inr ⟨bare_of start rfl rfl rfl, .inr (.inr (.inr rfl))⟩

theorem openToken_plain (opened : openToken offset c = .ok (s', t)) : s'.Plain := by
  obtain ⟨-, rfl⟩ | ⟨bare, rfl | rfl | rfl | rfl⟩ := openToken_cases opened
  case inr.inr.inr.inr => exact fun _ => ⟨rfl, by simpa using bare⟩
  all_goals trivial

theorem openToken_seals (opened : openToken offset c = .ok (s', t)) (seals : s'.Seals cs) :
    Sealed (c :: cs) := by
  obtain ⟨quote, rfl⟩ | ⟨bare, rfl | rfl | rfl | rfl⟩ := openToken_cases opened
  · obtain ⟨inner, rest, rfl, enclosed, sealed_⟩ := seals
    exact .quoted quote enclosed sealed_
  · exact .plain bare.1 bare.2 seals
  · exact .plain bare.1 bare.2 seals
  · exact .plain bare.1 bare.2 seals
  · exact seals

/-- A path without brackets goes on with characters of paths only. -/
theorem pathDepth?_plain {depth' : Nat} (plain : (LexState.path start text depth).Plain)
    (goes : pathDepth? depth c = some depth') : (LexState.path start (c :: text) depth').Plain := by
  intro none
  obtain ⟨other, before⟩ := not_or.1 fun bracket => none (List.mem_cons.2 bracket)
  obtain ⟨rfl, bare⟩ := plain before
  simp only [pathDepth?, if_neg (Ne.symm other), if_true, true_and] at goes
  split_ifs at goes with closing char
  cases goes
  refine ⟨rfl, fun d member => ?_⟩
  obtain rfl | member := List.mem_cons.1 member
  · exact bare_of (p := isPathChar) (by simpa using char) rfl rfl rfl
  · exact bare d member

theorem continuesNumber_bare (goes : continuesNumber text c = true) : ¬IsQuote c ∧ c ≠ '}' := by
  refine bare_of (p := fun d => isDigit d || d == '.' || d == 'e' || d == 'E' || d == '+' ||
    d == '-') ?_ rfl rfl rfl
  simp only [continuesNumber, Bool.or_eq_true, Bool.and_eq_true] at goes ⊢
  obtain letter | ⟨plus | minus, -⟩ := goes
  · exact .inl (.inl letter)
  · exact .inl (.inr plus)
  · exact .inr minus

/-- The text of a path is sealed when, if it has brackets, its token is. -/
theorem wordToken_seals (plain : (LexState.path start text depth).Plain)
    (paths : ∀ word, wordToken text.reverse = .path word → '[' ∈ word.toList →
      Sealed word.toList) : Sealed text.reverse := by
  by_cases bracket : '[' ∈ text
  · have inside : '[' ∈ text.reverse := List.mem_reverse.2 bracket
    have word := paths _ (wordToken_of_bracket inside)
    rw [String.toList_ofList] at word
    exact word inside
  · exact sealed_of_plain fun c member => (plain bracket).2 c (List.mem_reverse.1 member)

/-- One more character: what makes the rest sealed behind it makes it so with it, when the bracketed
paths that it completes are. -/
theorem step_seals (plain : s.Plain) (stepped : s.step offset c = .ok (s', new)) :
    s'.Plain ∧ ((∀ t ∈ new, ∀ word, t.token = .path word → '[' ∈ word.toList →
      Sealed word.toList) → ∀ cs, s'.Seals cs → s.Seals (c :: cs)) := by
  cases s with
  | between =>
      obtain ⟨_, opened, ⟨⟩⟩ := map_eq_ok_iff.1 stepped
      exact ⟨openToken_plain opened, fun _ _ => openToken_seals opened⟩
  | minus start =>
      simp only [step] at stepped
      split_ifs at stepped with digit
      cases stepped
      have bare := bare_of digit rfl rfl rfl
      exact ⟨trivial, fun _ _ => .plain bare.1 bare.2⟩
  | string start q text escaped =>
      simp only [step] at stepped
      have after (cs : List Char) (seals : ((Scan.quoted [] q escaped).after c).Seals cs) :
          (Scan.quoted [] q escaped).Seals (c :: cs) := by
        have unmarked : (Scan.quoted [] q escaped).Plain c (cs ++ '}' :: '}' :: []) := by simp [Scan.Plain, Scan.mark]
        exact Scan.Seals.before unmarked seals
      simp only [Scan.after] at after
      split_ifs at stepped after <;> cases stepped <;> exact ⟨trivial, fun _ => after⟩
  | number start text =>
      simp only [step] at stepped
      split_ifs at stepped with goes
      · cases stepped
        have bare := continuesNumber_bare goes
        exact ⟨trivial, fun _ _ => .plain bare.1 bare.2⟩
      · cases token : numberToken start text with
        | error e => simp [token] at stepped
        | ok t =>
            simp only [token] at stepped
            obtain ⟨_, opened, ⟨⟩⟩ := map_eq_ok_iff.1 stepped
            exact ⟨openToken_plain opened, fun _ _ => openToken_seals opened⟩
  | path start text depth =>
      cases goes : pathDepth? depth c with
      | some depth' =>
          simp only [step, goes] at stepped
          cases stepped
          exact ⟨pathDepth?_plain plain goes, fun _ cs seals => by simpa [Seals] using seals⟩
      | none =>
          simp only [step, goes] at stepped
          obtain ⟨_, opened, ⟨⟩⟩ := map_eq_ok_iff.1 stepped
          exact ⟨openToken_plain opened, fun paths _ seals =>
            (wordToken_seals plain (paths _ List.mem_cons_self)).append
              (openToken_seals opened seals)⟩

theorem finish_seals (plain : s.Plain) (finished : s.finish = .ok ts)
    (paths : ∀ t ∈ ts, ∀ word, t.token = .path word → '[' ∈ word.toList → Sealed word.toList) :
    s.Seals [] := by
  cases s with
  | between => exact .nil
  | minus start => cases finished
  | string start q text escaped => cases finished
  | number start text => exact .nil
  | path start text depth =>
      cases finished
      simpa [Seals] using wordToken_seals plain (paths _ List.mem_cons_self)

end LexState

/-- **What the lexer reads is sealed** when the bracketed paths in it are. -/
theorem sealed_of_lex {s : LexState} {offset : Nat} (plain : s.Plain)
    (lexed : lex s offset cs = .ok ts)
    (paths : ∀ t ∈ ts, ∀ word, t.token = .path word → '[' ∈ word.toList → Sealed word.toList) :
    s.Seals cs := by
  induction cs generalizing s offset ts with
  | nil => exact s.finish_seals plain lexed paths
  | cons c cs ih =>
      obtain ⟨s', new, rest, stepped, later, rfl⟩ := lex_cons_eq_ok_iff.1 lexed
      obtain ⟨plain', before⟩ := s.step_seals plain stepped
      refine before (fun t member => paths t (List.mem_append_left _ member)) cs ?_
      exact ih plain' later fun t member => paths t (List.mem_append_right _ member)

/-! ## Blanks around a body -/

theorem LexState.finish_blank {s : LexState} (plain : s.Plain) (finished : s.finish = .ok ts)
    (offset : Nat) : ∃ us, lex s offset [' '] = .ok us ∧ (us = ts ∨ ∃ word start,
      '[' ∈ word.toList ∧ ts = [⟨.path word, start⟩] ∧ us = [⟨.path (word ++ " "), start⟩]) := by
  cases s with
  | between =>
      cases finished
      exact ⟨[], rfl, .inl rfl⟩
  | minus start => cases finished
  | string start q text escaped => cases finished
  | number start text =>
      obtain ⟨t, token, rfl⟩ := map_eq_ok_iff.1 finished
      have ends : continuesNumber text ' ' = false := rfl
      refine ⟨[t], ?_, .inl rfl⟩
      simp only [lex, step, ends, token]
      rfl
  | path start text depth =>
      cases finished
      by_cases closed : depth = 0
      · subst closed
        exact ⟨_, rfl, .inl rfl⟩
      · have bracket : '[' ∈ text.reverse := by
          rw [List.mem_reverse]
          by_contra none
          exact closed (plain none).1
        have goes : pathDepth? depth ' ' = some depth := by simp [pathDepth?, closed]
        refine ⟨[⟨.path (String.ofList text.reverse ++ " "), start⟩], ?_, .inr ⟨_, start, ?_,
          by rw [wordToken_of_bracket bracket], rfl⟩⟩
        · simp only [lex, step, goes, finish]
          rw [List.reverse_cons, wordToken_of_bracket (List.mem_append_left _ bracket),
            String.ofList_append]
          rfl
        · rwa [String.toList_ofList]

/-- A blank behind a body is read over, or belongs to the path that the body ends with, when that
has a bracket which is not closed. -/
theorem lex_blank {s : LexState} {offset : Nat} (plain : s.Plain)
    (lexed : lex s offset cs = .ok ts) : ∃ us, lex s offset (cs ++ [' ']) = .ok us ∧
      (us = ts ∨ ∃ before word start, '[' ∈ word.toList ∧ ts = before ++ [⟨.path word, start⟩] ∧
        us = before ++ [⟨.path (word ++ " "), start⟩]) := by
  induction cs generalizing s offset ts with
  | nil =>
      obtain ⟨us, more, rfl | ⟨word, start, bracket, rfl, rfl⟩⟩ := s.finish_blank plain lexed offset
      · exact ⟨us, more, .inl rfl⟩
      · exact ⟨_, more, .inr ⟨[], word, start, bracket, rfl, rfl⟩⟩
  | cons c cs ih =>
      obtain ⟨s', new, rest, stepped, later, rfl⟩ := lex_cons_eq_ok_iff.1 lexed
      obtain ⟨us, more, same⟩ := ih (s.step_seals plain stepped).1 later
      refine ⟨new ++ us, lex_cons_eq_ok_iff.2 ⟨s', new, us, stepped, more, rfl⟩, ?_⟩
      obtain rfl | ⟨before, word, start, bracket, rfl, rfl⟩ := same
      · exact .inl rfl
      · exact .inr ⟨new ++ before, word, start, bracket, by rw [List.append_assoc],
          by rw [List.append_assoc]⟩

theorem get?_blank (d : Document) (path : String) : d.get? (path ++ " ") = d.get? path := by
  have same (p : Path) : Path.parse (path ++ " ") = .ok p ↔ Path.parse path = .ok p := by
    rw [Path.parse_eq_ok_iff, Path.parse_eq_ok_iff, String.toList_append,
      Text.trimEnd_append_blank (by simp [Text.isBlank])]
  simp only [Document.get?]
  cases read : Path.parse path with
  | ok p => rw [(same p).2 read]
  | error e =>
      cases padded : Path.parse (path ++ " ") with
      | ok p => rw [(same p).1 padded] at read; cases read
      | error e' => rfl

/-- A phrase that ends with a bracketed path is worth the same with a blank behind the path. -/
theorem Phrase.padded {p : Phrase} {before : List Token} {word : String}
    (bracket : '[' ∈ word.toList) (written : p.tokens = before ++ [.path word])
    (worth : p.value m = .ok v) :
    ∃ p' : Phrase, p'.tokens = before ++ [.path (word ++ " ")] ∧ p'.value m = .ok v := by
  have same : (Operand.path (word ++ " ")).value m = (Operand.path word).value m := by
    rw [Operand.value, Operand.value, get?_blank]
  have isPath {o : Operand} (token : o.token = .path word) : o = .path word := by
    cases o <;> cases token
    rfl
  induction p using Phrase.induction with
  | operand o =>
      have single : [] ++ [o.token] = before ++ [.path word] := written
      obtain ⟨rfl, token⟩ := List.append_inj' single rfl
      obtain rfl := isPath (List.cons.inj token).1
      exact ⟨⟨.path (word ++ " "), []⟩, rfl, (congrArg Except.ok same).trans worth⟩
  | filter o as f _ =>
      rw [tokens_filter, List.append_cons] at written
      obtain ⟨-, token⟩ := List.append_inj' written rfl
      cases token
      rw [value, List.foldlM_append] at worth
      cases earlier : as.foldlM (Application.apply m) (o.value m) with
      | error e => rw [earlier] at worth; cases worth
      | ok w =>
          rw [earlier] at worth
          simp [Application.apply, applyFilter, Filter.ofName?_of_bracket bracket, bind,
            Except.bind] at worth
  | argument o as f os x _ =>
      rw [tokens_argument, List.append_cons] at written
      obtain ⟨rfl, token⟩ := List.append_inj' written rfl
      obtain rfl := isPath (List.cons.inj token).1
      refine ⟨⟨o, as ++ [⟨f, os ++ [.path (word ++ " ")]⟩]⟩, ?_, ?_⟩
      · rw [tokens_argument, List.append_cons]
        rfl
      · rw [← worth]
        simp only [value, List.foldlM_append, List.foldlM_cons, Application.apply, List.map_append,
          List.map_cons, List.map_nil, same]

theorem evaluateAt_blank (offset : Nat) (body : List Char) (m : Value) :
    evaluateAt offset (' ' :: body) m = evaluateAt (offset + 1) body m := by
  have lexed : tokens offset (' ' :: body) = tokens (offset + 1) body :=
    lex_silent (s := .between) rfl
  have size : offset + Text.byteSize (' ' :: body) = offset + 1 + Text.byteSize body := by
    rw [Text.byteSize_cons, ← Nat.add_assoc]
    rfl
  rw [evaluateAt, evaluateAt, lexed, size]

/-- **Blanks around a body** make no difference to what it is worth. -/
theorem evaluate_pad (worth : evaluate (String.ofList body) m = .ok v) :
    evaluate (String.ofList (' ' :: (body ++ [' ']))) m = .ok v := by
  have behind : evaluate (String.ofList (body ++ [' '])) m = .ok v := by
    obtain ⟨ts, lexed, p, written⟩ := exists_phrase worth
    have value := (evaluate_written lexed m written).symm.trans worth
    rw [String.toList_ofList] at lexed
    obtain ⟨us, padded, same⟩ := lex_blank (s := .between) trivial lexed
    have relexed : tokens 0 (String.ofList (body ++ [' '])).toList = .ok us := by
      rwa [String.toList_ofList]
    obtain rfl | ⟨before, word, start, bracket, rfl, rfl⟩ := same
    · rw [evaluate_written relexed m written, value]
    · rw [List.map_append] at written
      obtain ⟨p', written', value'⟩ := p.padded bracket written.symm value
      rw [evaluate_written relexed m (p := p') (by rw [List.map_append, written']; rfl), value']
  rw [evaluate, String.toList_ofList, evaluateAt_blank, evaluateAt_eq_ok_iff, behind]

/-! ## Templates with one tag -/

theorem hasTag_cons_iff : hasTag (c :: cs) = false ↔
    ¬(c = '{' ∧ cs.head? = some '{') ∧ hasTag cs = false := by
  by_cases opening : c = '{' ∧ cs.head? = some '{'
  · obtain ⟨rfl, second⟩ := opening
    obtain ⟨rest, rfl⟩ := List.head?_eq_some_iff.1 second
    simp [hasTag]
  · rw [hasTag.eq_2 c cs fun rest first second => opening ⟨first, by rw [second]; rfl⟩]
    simp [opening]

theorem piecesFrom_text (plain : hasTag cs = false) (seen : List Char) :
    piecesFrom (.text seen) cs = [.text (seen.reverse ++ cs)] := by
  induction cs generalizing seen with
  | nil => rw [piecesFrom, List.append_nil]
  | cons c cs ih =>
      obtain ⟨closed, plain⟩ := hasTag_cons_iff.1 plain
      rw [piecesFrom_plain (by simpa [Scan.Plain, Scan.mark] using closed), Scan.after, ih plain]
      simp

/-- A text without tags comes before the tag that is behind it. -/
theorem piecesFrom_before (plain : hasTag a = false) (apart : a.getLast? ≠ some '{')
    (seen : List Char) : piecesFrom (.text seen) (a ++ '{' :: '{' :: cs) =
      .text (seen.reverse ++ a) :: piecesFrom (.tag []) cs := by
  induction a generalizing seen with
  | nil => rw [List.nil_append, piecesFrom_opening, List.append_nil]
  | cons c a ih =>
      obtain ⟨closed, plain⟩ := hasTag_cons_iff.1 plain
      have between : ¬(c = '{' ∧ (a ++ '{' :: '{' :: cs).head? = some '{') := by
        cases a with
        | nil => exact fun opening => apart (congrArg some opening.1)
        | cons d a => exact closed
      have later : a.getLast? ≠ some '{' := fun last => apart (by rw [List.getLast?_cons, last]; rfl)
      rw [List.cons_append, piecesFrom_plain (by simpa [Scan.Plain, Scan.mark] using between),
        Scan.after, ih plain later]
      simp

/-- **A tag between two texts** is rendered as what its body is worth. -/
theorem renderChars_tag (plain : hasTag a = false) (apart : a.getLast? ≠ some '{')
    (plain' : hasTag b = false) (sealed_ : Sealed body)
    (worth : evaluate (String.ofList body) m = .ok v) :
    renderChars (a ++ '{' :: '{' :: (body ++ '}' :: '}' :: b)) m =
      .ok (a ++ (v.displayChars ++ b)) := by
  rw [renderChars, pieces, piecesFrom_before plain apart, piecesFrom_sealed sealed_,
    piecesFrom_text plain', renderFrom_eq_ok_iff]
  exact ⟨[a, v.displayChars, b], .cons (.text _) (.cons (.tag worth) (.cons (.text _) .nil)),
    by simp⟩

/-- A template of one tag is rendered as what its body is worth. -/
theorem render_tag {e : String} (sealed_ : Sealed e.toList) (worth : evaluate e m = .ok v) :
    render ("\x7b\x7b" ++ e ++ "\x7d\x7d") m = .ok v.displayText := by
  rw [← String.ofList_toList (s := e)] at worth
  have rendered := renderChars_tag (a := []) (b := []) rfl (by simp) rfl sealed_ worth
  rw [render_eq_ok_iff, Value.displayText, String.toList_ofList, String.toList_append,
    String.toList_append]
  simpa using rendered

/-- **A tag renders what its body is worth**, with or without blanks around it, when in the paths of
the body that have brackets quotes come in pairs and closing braces are quoted or stand alone.

That is exactly what decides where the tag ends: the template is cut behind the body when this holds
of the whole of it, and elsewhere when it does not. -/
theorem tags_render_their_worth {e : String} {m v : Value} (worth : evaluate e m = .ok v) :
    ((∀ ts, tokens 0 e.toList = .ok ts → ∀ t ∈ ts, ∀ path, t.token = .path path →
        '[' ∈ path.toList → Sealed path.toList) →
      render ("\x7b\x7b" ++ e ++ "\x7d\x7d") m = .ok v.displayText ∧
      render ("\x7b\x7b " ++ e ++ " \x7d\x7d") m = .ok v.displayText) ∧
    ∀ body, body = e ∨ body = " " ++ e ++ " " →
      (pieces ("\x7b\x7b" ++ body ++ "\x7d\x7d").toList =
          [.text [], .tag body.toList, .text []] ↔ Sealed body.toList) ∧
      (Sealed body.toList → render ("\x7b\x7b" ++ body ++ "\x7d\x7d") m = .ok v.displayText) := by
  have padded : evaluate (" " ++ e ++ " ") m = .ok v := by
    rw [← String.ofList_toList (s := e)] at worth
    have both := evaluate_pad worth
    rwa [String.ofList_cons, String.ofList_append, String.ofList_toList, ← String.append_assoc]
      at both
  refine ⟨fun paths => ?_, fun body which => ⟨?_, fun sealed_ => ?_⟩⟩
  · obtain ⟨ts, lexed, -⟩ := exists_phrase worth
    have sealed_ : Sealed e.toList := sealed_of_lex (s := .between) trivial lexed (paths ts lexed)
    have blank : Sealed " ".toList := .plain (by unfold IsQuote; decide) (by decide) .nil
    have both : Sealed (" " ++ e ++ " ").toList := by
      rw [String.toList_append, String.toList_append]
      exact (blank.append sealed_).append blank
    have blanks : "\x7b\x7b " ++ e ++ " \x7d\x7d" =
        "\x7b\x7b" ++ (" " ++ e ++ " ") ++ "\x7d\x7d" := by
      rw [← String.toList_inj]
      simp
    exact ⟨render_tag sealed_ worth, blanks ▸ render_tag both padded⟩
  · have whole : ("\x7b\x7b" ++ body ++ "\x7d\x7d").toList =
        '{' :: '{' :: (body.toList ++ ['}', '}']) := by
      simp
    rw [whole, pieces_tag_iff]
  · obtain rfl | rfl := which
    · exact render_tag sealed_ worth
    · exact render_tag sealed_ padded

/-- Braces and an apostrophe in quotes, in a path and in a string. -/
theorem tags_render_their_worth_in_quotes :
    let m : Value := .obj [("a", .obj [("\x7d\x7d", .str "é")])]
    let e := "a['\x7d\x7d'] | append: \"'\""
    evaluate e m = .ok (.str "é'") ∧
      (∀ ts, tokens 0 e.toList = .ok ts → ∀ t ∈ ts, ∀ path, t.token = .path path →
        '[' ∈ path.toList → Sealed path.toList) ∧
      render ("\x7b\x7b" ++ e ++ "\x7d\x7d") m = .ok "é'" ∧
      render ("\x7b\x7b " ++ e ++ " \x7d\x7d") m = .ok "é'" := by
  intro m e
  have lexed : tokens 0 e.toList = .ok [⟨.path "a['\x7d\x7d']", 0⟩, ⟨.pipe, 8⟩,
      ⟨.path "append", 10⟩, ⟨.colon, 16⟩, ⟨.literal (.str "'"), 18⟩] := by
    simp only [e]
    rfl
  have worth : evaluate e m = .ok (.str "é'") := by
    rw [evaluate_written lexed m
      (p := ⟨.path "a['\x7d\x7d']", [⟨"append", [.literal (.str "'")]⟩]⟩) rfl]
    rfl
  have quoted : Sealed "a['\x7d\x7d']".toList := (pieces_tag_iff _).1 rfl
  have paths : ∀ ts, tokens 0 e.toList = .ok ts → ∀ t ∈ ts, ∀ path, t.token = .path path →
      '[' ∈ path.toList → Sealed path.toList := by
    intro ts again t member path token bracket
    cases again.symm.trans lexed
    simp only [List.mem_cons, List.not_mem_nil, or_false] at member
    obtain rfl | rfl | rfl | rfl | rfl := member <;> cases token
    · exact quoted
    · exact absurd bracket (by decide)
  exact ⟨worth, paths, (tags_render_their_worth worth).1 paths⟩

/-- An apostrophe in brackets is no quote for the lexer.  For the scan it is one, and the end of the
tag is not seen behind it; and braces in brackets end the tag. -/
theorem brackets_hide_the_end :
    let m : Value := .obj [("a", .obj [("it's", .str "x"), ("\x7d\x7d", .str "y")])]
    (evaluate "a[it's]" m = .ok (.str "x") ∧
      render "\x7b\x7ba[it's]\x7d\x7d" m = .error (.form 0 .unterminatedTag) ∧
      render "\x7b\x7b a[it's] \x7d\x7d" m = .error (.form 0 .unterminatedTag)) ∧
    evaluate "a[\x7d\x7d]" m = .ok (.str "y") ∧
      render "\x7b\x7ba[\x7d\x7d]\x7d\x7d" m = .ok "]\x7d\x7d" := by
  intro m
  exact ⟨⟨rfl, rfl, rfl⟩, rfl, rfl⟩

end Flowgraph.Template
