import Sentential.Proofs.Sketch.Reader

namespace Sentential

open Text

namespace Grammar.Sketch

variable {limit : Nat} {s s' : Sketch} {m : Mark} {e : SyntaxError}

/-- What can be wrong with the next character. -/
inductive Refuses (limit : Nat) : Sketch → Mark → SyntaxError → Prop
  | unexpected (s : Sketch) (m : Mark)
      (h : ∀ x : Sign, m.symbol = x.symbol → s.expected.admits x.kind = false) :
      Refuses limit s m (.lexical (.unexpectedChar m.symbol m.position s.expected))
  | tooDeep (p : Pending) (outer : List Pending) (m : Mark) (hm : m.symbol = Sign.opening.symbol)
      (hl : outer.length = limit) :
      Refuses limit ⟨.pending p, outer⟩ m (.lexical (.tooDeep m.position limit))
  | unmatched (t : Sentence) (m : Mark) (hm : m.symbol = Sign.closing.symbol) :
      Refuses limit ⟨.complete t, []⟩ m (.lexical (.unmatchedClose m.position))
  | chained (l : Term) (op : Connective) (r : Term) (outer : List Pending) (m : Mark)
      (op' : Connective) (hm : m.symbol = (Sign.operator op').symbol) :
      Refuses limit ⟨.complete (.pair l op r), outer⟩ m (.chainedOperator m.symbol m.position)

theorem Refuses.of_ofChar? {x : Sign} (hx : Sign.ofChar? m.symbol = some x)
    (h : s.expected.admits x.kind = false) :
    Refuses limit s m (.lexical (.unexpectedChar m.symbol m.position s.expected)) := by
  refine .unexpected s m fun y hy ↦ ?_
  rw [hy, Sign.ofChar?_symbol] at hx
  cases hx
  exact h

theorem refuses_of_step (h : s.step limit m = .error e) : Refuses limit s m e := by
  obtain ⟨draft, outer⟩ := s
  rw [step] at h
  cases hx : Sign.ofChar? m.symbol with
  | none =>
    have hu : ∀ x : Sign, m.symbol ≠ x.symbol := by
      intro x hm
      rw [hm, Sign.ofChar?_symbol] at hx
      cases hx
    rw [hx] at h
    cases draft <;> cases h <;> exact .unexpected _ m fun x hm ↦ absurd hm (hu x)
  | some x =>
    have hm := (Sign.symbol_of_ofChar? hx).symm
    rw [hx] at h
    cases draft with
    | pending p =>
      cases x with
      | opening =>
        by_cases hl : outer.length = limit
        · simp only [hl, if_true, Except.error.injEq] at h
          exact h ▸ .tooDeep p outer m hm hl
        · simp [hl] at h
      | operator op | closing => cases h; exact .of_ofChar? hx rfl
      | _ => cases h
    | complete t =>
      cases x with
      | operator op' =>
        cases t with
        | term t => cases h
        | pair l op r => cases h; exact .chained l op r outer m op' hm
      | closing =>
        cases outer with
        | nil => cases h; exact .unmatched t m hm
        | cons p outer => cases h
      | _ => cases h; exact .of_ofChar? hx rfl

theorem step_of_refuses (h : Refuses limit s m e) : s.step limit m = .error e := by
  cases h with
  | unexpected _ _ h =>
    obtain ⟨draft, outer⟩ := s
    rw [step]
    cases hx : Sign.ofChar? m.symbol with
    | none => cases draft <;> rfl
    | some x =>
      have ha := h x (Sign.symbol_of_ofChar? hx).symm
      cases draft with
      | pending p =>
        cases x with
        | operator op | closing => rfl
        | _ => cases ha
      | complete t =>
        cases x with
        | operator op | closing => cases ha
        | _ => rfl
  | tooDeep p outer _ hm hl =>
    rw [step, hm, Sign.ofChar?_symbol]
    exact if_pos hl
  | unmatched t _ hm | chained l op r outer _ op' hm =>
    rw [step, hm, Sign.ofChar?_symbol]

theorem Refuses.position?_eq (h : Refuses limit s m e) : e.position? = some m.position := by
  cases h <;> rfl

theorem run_eq_error_iff {ms : List Mark} :
    s.run limit ms = .error e ↔ ∃ before m after s', ms = before ++ m :: after ∧
      s.run limit before = .ok s' ∧ Refuses limit s' m e := by
  constructor
  · intro h
    induction ms generalizing s with
    | nil => cases h
    | cons m ms ih =>
      rw [run] at h
      cases hs : s.step limit m with
      | error e' =>
        rw [hs] at h
        cases h
        exact ⟨[], m, ms, s, rfl, rfl, refuses_of_step hs⟩
      | ok s₁ =>
        rw [hs] at h
        obtain ⟨before, m', after, s', rfl, hr, he⟩ := ih h
        refine ⟨m :: before, m', after, s', rfl, ?_, he⟩
        rw [run, hs]
        exact hr
  · rintro ⟨before, m, after, s', rfl, hr, he⟩
    rw [run_append, hr]
    simp only [Except.bind, run, step_of_refuses he]

theorem finish_eq_ok_iff {t : Sentence} : s.finish = .ok t ↔ s = ⟨.complete t, []⟩ := by
  obtain ⟨draft, outer⟩ := s
  cases draft with
  | pending p => simp [finish]
  | complete u => cases outer <;> simp [finish]

theorem error_of_finish (h : s.finish = .error e) :
    e = .lexical (.unexpectedEnd s.expected s.outer.length) := by
  unfold finish at h
  split at h
  · cases h
  · exact (Except.error.inj h).symm

/-- The sketch of a text that is in order as far as it goes. -/
def ofChars (text : List Char) : Except SyntaxError Sketch :=
  run Context.maxDepth {} (marks 0 text)

theorem ofChars_append (text rest : List Char) :
    ofChars (text ++ rest) =
      (ofChars text).bind fun s ↦ s.run Context.maxDepth (marks text.length rest) := by
  rw [ofChars, marks_append, run_append, Nat.zero_add]
  rfl

theorem ofChars_append_cons {front : List Char} {c : Char} (hs : ofChars front = .ok s)
    (hc : isBlank c = false) (back : List Char) :
    ofChars (front ++ c :: back) = (s.step Context.maxDepth ⟨c, front.length⟩).bind fun s' ↦
      s'.run Context.maxDepth (marks (front.length + 1) back) := by
  rw [ofChars_append, hs, marks_cons hc]
  rfl

/-- Why a text cannot be read: a character in it is the first wrong one, or it ends too early. -/
inductive Fails (text : List Char) : SyntaxError → Prop
  | refused {front back : List Char} {c : Char} {s : Sketch} {e : SyntaxError}
      (ht : text = front ++ c :: back) (hc : isBlank c = false) (hs : ofChars front = .ok s)
      (h : Refuses Context.maxDepth s ⟨c, front.length⟩ e) : Fails text e
  | ended {s : Sketch} {e : SyntaxError} (hs : ofChars text = .ok s) (h : s.finish = .error e) :
      Fails text e

theorem Fails.lexical_or_chained {text : List Char} {e : SyntaxError} (h : Fails text e) :
    (∃ e', e = .lexical e') ∨ ∃ c n, e = .chainedOperator c n := by
  cases h with
  | refused ht hc hs he =>
    cases he with
    | chained l op r outer _ op' hm => exact .inr ⟨_, _, rfl⟩
    | _ => exact .inl ⟨_, rfl⟩
  | ended hs he => exact .inl ⟨_, error_of_finish he⟩

theorem ofChars_eq_error_iff {text : List Char} :
    ofChars text = .error e ↔ ∃ front c back s, text = front ++ c :: back ∧ isBlank c = false ∧
      ofChars front = .ok s ∧ Refuses Context.maxDepth s ⟨c, front.length⟩ e := by
  constructor
  · intro h
    obtain ⟨before, m, after, s, hm, hs, he⟩ := run_eq_error_iff.1 h
    have hc : isBlank m.symbol = false := isBlank_of_mem_marks (hm ▸ List.mem_append_cons_self)
    obtain ⟨front, back, rfl, hp, rfl, -⟩ := marks_eq_append_cons hm
    rw [Nat.zero_add] at hp
    obtain ⟨c, p⟩ := m
    cases hp
    exact ⟨front, c, back, s, rfl, hc, hs, he⟩
  · rintro ⟨front, c, back, s, rfl, hc, hs, he⟩
    rw [ofChars_append_cons hs hc, step_of_refuses he]
    rfl

end Grammar.Sketch

open Grammar

theorem Parsed.ofText_eq_ofChars (text : String) :
    ofText text = ((Sketch.ofChars text.toList).bind Sketch.finish).map fun t ↦
      ⟨t.reading.cancel, Signature.ofBits t.reading.occurrences⟩ :=
  ofText_eq_derive text

theorem Parsed.ofText_eq_error_iff {text : String} {e : SyntaxError} :
    ofText text = .error e ↔ Sketch.Fails text.toList e := by
  rw [ofText_eq_ofChars]
  constructor
  · intro h
    cases hs : Sketch.ofChars text.toList with
    | error e' =>
      rw [hs] at h
      cases h
      obtain ⟨front, c, back, s, ht, hc, hf, he⟩ := Sketch.ofChars_eq_error_iff.1 hs
      exact .refused ht hc hf he
    | ok s =>
      rw [hs] at h
      refine .ended hs ?_
      change s.finish.map _ = _ at h
      cases hf : s.finish with
      | error e' =>
        rw [hf] at h
        cases h
        rfl
      | ok t => rw [hf] at h; cases h
  · intro h
    cases h with
    | refused ht hc hf he =>
      rw [Sketch.ofChars_eq_error_iff.2 ⟨_, _, _, _, ht, hc, hf, he⟩]
      rfl
    | ended hs hf =>
      rw [hs]
      change (Sketch.finish _).map _ = _
      rw [hf]
      rfl

end Sentential
