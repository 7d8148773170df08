import Sentential.Proofs.Sketch.Refusal

namespace Sentential

namespace LexemeStream

/-- What a stream yields, one by one, until there is nothing more or an error. -/
inductive Yields : LexemeStream → List Lexeme → Option LexicalError → Prop
  | nil {s s' : LexemeStream} (h : s.next.value = (none, s')) : Yields s [] none
  | error {s s' : LexemeStream} {e : LexicalError} (h : s.next.value = (some (.error e), s')) :
      Yields s [] (some e)
  | cons {s s' : LexemeStream} {x : Lexeme} {xs : List Lexeme} {fault : Option LexicalError}
      (h : s.next.value = (some (.ok x), s')) (hs : Yields s' xs fault) : Yields s (x :: xs) fault

variable {s : LexemeStream} {xs ys : List Lexeme} {fault fault' : Option LexicalError}
variable {k k' : Context} {m : Mark} {ms : List Mark} {x : Lexeme} {e : LexicalError}

theorem exists_mark_of_next {s' : LexemeStream} (h : s.next.value = (some (.ok x), s')) :
    ∃ m ms k', s = ⟨m :: ms, s.context, false⟩ ∧ s.context.read m = .ok (x, k') ∧
      s' = ⟨ms, k', false⟩ := by
  obtain ⟨rest, k, exhausted⟩ := s
  cases exhausted with
  | true => cases h
  | false =>
    cases rest with
    | nil => cases hk : k.ending <;> simp [next, hk] at h
    | cons m ms =>
      cases hk : k.read m with
      | error e => simp [next, hk] at h
      | ok p =>
        simp only [next, hk, Bool.false_eq_true, if_false] at h
        cases h
        exact ⟨m, ms, p.2, rfl, hk, rfl⟩

/-- Whatever is not a lexeme comes last. -/
theorem exhausted_of_next {s' : LexemeStream} {r : Option (Except LexicalError Lexeme)}
    (h : s.next.value = (r, s')) (hr : ∀ x, r ≠ some (.ok x)) : s'.exhausted = true := by
  obtain ⟨rest, k, exhausted⟩ := s
  cases exhausted with
  | true => cases h; rfl
  | false =>
    cases rest with
    | nil => cases h; rfl
    | cons m ms =>
      cases hk : k.read m with
      | error e =>
        simp only [next, hk, Bool.false_eq_true, if_false] at h
        cases h
        rfl
      | ok p =>
        simp only [next, hk, Bool.false_eq_true, if_false] at h
        cases h
        exact absurd rfl (hr p.1)

theorem Yields.unique (h : s.Yields xs fault) (h' : s.Yields ys fault') :
    xs = ys ∧ fault = fault' := by
  induction h generalizing ys with
  | nil h =>
    cases h' with
    | nil h' => exact ⟨rfl, rfl⟩
    | error h' | cons h' _ => rw [h] at h'; cases h'
  | error h =>
    cases h' with
    | error h' => rw [h] at h'; cases h'; exact ⟨rfl, rfl⟩
    | nil h' | cons h' _ => rw [h] at h'; cases h'
  | cons h _ ih =>
    cases h' with
    | nil h' | error h' => rw [h] at h'; cases h'
    | cons h' hs' =>
      rw [h] at h'
      cases h'
      obtain ⟨rfl, rfl⟩ := ih hs'
      exact ⟨rfl, rfl⟩

theorem yields_of_ending (k : Context) : Yields ⟨[], k, false⟩ [] k.ending := by
  have h : (next ⟨[], k, false⟩).value = (k.ending.map .error, ⟨[], k, true⟩) := rfl
  cases hk : k.ending with
  | none => rw [hk] at h; exact .nil h
  | some e => rw [hk] at h; exact .error h

theorem yields_of_read_error (h : k.read m = .error e) :
    Yields ⟨m :: ms, k, false⟩ [] (some e) := by
  have hn : (next ⟨m :: ms, k, false⟩).value = (some (.error e), ⟨ms, k, true⟩) := by simp [next, h]
  exact .error hn

theorem yields_of_read_ok (h : k.read m = .ok (x, k')) (hs : Yields ⟨ms, k', false⟩ xs fault) :
    Yields ⟨m :: ms, k, false⟩ (x :: xs) fault := by
  have hn : (next ⟨m :: ms, k, false⟩).value = (some (.ok x), ⟨ms, k', false⟩) := by simp [next, h]
  exact .cons hn hs

theorem exists_yields (k : Context) (ms : List Mark) :
    ∃ xs fault, Yields ⟨ms, k, false⟩ xs fault := by
  induction ms generalizing k with
  | nil => exact ⟨[], k.ending, yields_of_ending k⟩
  | cons m ms ih =>
    cases hm : k.read m with
    | error e => exact ⟨[], some e, yields_of_read_error hm⟩
    | ok p =>
      obtain ⟨xs, fault, h⟩ := ih p.2
      exact ⟨p.1 :: xs, fault, yields_of_read_ok hm h⟩

end LexemeStream

namespace Grammar.Sketch

variable {s s' : Sketch} {m : Mark}

/-- A sketch takes a character only if its lexeme is drawn. -/
theorem Step.read {x : Sign} (hm : m.symbol = x.symbol) (h : Step Context.maxDepth s x s') :
    s.reader.context.read m = .ok (⟨m, x.kind⟩, s'.reader.context) := by
  rw [Context.read_eq, hm, Sign.ofChar?_symbol]
  cases h with
  | opening p outer h =>
    have hk : Context.advance ⟨.value, outer.length⟩ m .opening =
        .ok ⟨.value, outer.length + 1⟩ := if_neg h
    simp only [reader, expected, Sign.kind, Expected.admits, hk]
    rfl
  | _ => rfl

theorem Refuses.read {e : LexicalError} (h : Refuses Context.maxDepth s m (.lexical e)) :
    s.reader.context.read m = .error e := by
  rw [Context.read_eq]
  cases h with
  | unexpected _ _ h =>
    cases hx : Sign.ofChar? m.symbol with
    | none => rfl
    | some x =>
      have ha : s.reader.context.expected.admits x.kind = false :=
        h x (Sign.symbol_of_ofChar? hx).symm
      simp only [ha, Bool.false_eq_true, if_false]
      rfl
  | tooDeep p outer _ hm hl =>
    have hk : Context.advance ⟨.value, outer.length⟩ m .opening =
        .error (.tooDeep m.position Context.maxDepth) := if_pos hl
    rw [hm, Sign.ofChar?_symbol]
    simp only [reader, expected, Sign.kind, Expected.admits, hk]
    rfl
  | unmatched t _ hm =>
    rw [hm, Sign.ofChar?_symbol]
    rfl

theorem read_operator (t : Sentence) (outer : List Pending) {op : Connective}
    (hm : m.symbol = (Sign.operator op).symbol) :
    (reader ⟨.complete t, outer⟩).context.read m =
      .ok (⟨m, .operator⟩, ⟨.value, outer.length⟩) := by
  rw [Context.read_eq, hm, Sign.ofChar?_symbol]
  rfl

theorem ending_of_finish_error {e : SyntaxError} (h : s.finish = .error e) :
    ∃ e', e = .lexical e' ∧ s.reader.context.ending = some e' := by
  obtain ⟨draft, outer⟩ := s
  cases draft with
  | pending p => cases h; exact ⟨_, rfl, rfl⟩
  | complete t =>
    cases outer with
    | nil => cases h
    | cons p outer => cases h; exact ⟨_, rfl, rfl⟩

theorem ending_of_finish_ok {t : Sentence} (h : s.finish = .ok t) :
    s.reader.context.ending = none := by
  rw [finish_eq_ok_iff.1 h]
  rfl

end Grammar.Sketch

end Sentential
