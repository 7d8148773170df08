import Sentential.Proofs.Acceptance
import Sentential.Proofs.Sketch.Refusal

namespace Sentential

open Text Grammar

def LexicalError.moveTo (n : Nat) : LexicalError → LexicalError
  | unexpectedChar found _ expected => unexpectedChar found n expected
  | unmatchedClose _ => unmatchedClose n
  | tooDeep _ limit => tooDeep n limit
  | unexpectedEnd expected openGroups => unexpectedEnd expected openGroups

/-- The same error at another place. -/
def SyntaxError.moveTo (n : Nat) : SyntaxError → SyntaxError
  | lexical e => lexical (e.moveTo n)
  | chainedOperator operator _ => chainedOperator operator n
  | unexpectedLexeme found _ => unexpectedLexeme found n
  | unexpectedEnd => unexpectedEnd

theorem SyntaxError.moveTo_moveTo (n n' : Nat) (e : SyntaxError) :
    (e.moveTo n').moveTo n = e.moveTo n := by
  cases e with
  | lexical e => cases e <;> rfl
  | _ => rfl

namespace Text

/-- The character that comes `i`-th if blanks are not counted stands at the place `n`. -/
def VisibleAt (text : List Char) (i n : Nat) : Prop :=
  ∃ front c back, text = front ++ c :: back ∧ isBlank c = false ∧ (visible front).length = i ∧
    front.length = n

/-- Errors of two texts that have no place or stand at the same character, blanks apart. -/
def SamePlace (text text' : List Char) (e e' : SyntaxError) : Prop :=
  (e.position? = none ∧ e'.position? = none) ∨
    ∃ i n n', e.position? = some n ∧ e'.position? = some n' ∧ VisibleAt text i n ∧
      VisibleAt text' i n'

theorem visible_append_cons {c : Char} (hc : isBlank c = false) (front back : List Char) :
    visible (front ++ c :: back) = visible front ++ c :: visible back := by
  rw [visible, List.filter_append, List.filter_cons_of_pos (by simp [hc])]
  rfl

theorem visible_eq_append_cons {text xs ys : List Char} {c : Char}
    (h : visible text = xs ++ c :: ys) :
    ∃ front back, text = front ++ c :: back ∧ isBlank c = false ∧ visible front = xs := by
  obtain ⟨l₁, l₂, rfl, hx, hy⟩ := List.filter_eq_append_iff.1 h
  obtain ⟨l, back, rfl, hl, hc, -⟩ := List.filter_eq_cons_iff.1 hy
  refine ⟨l₁ ++ l, back, (List.append_assoc ..).symm, by simpa using hc, ?_⟩
  rw [visible, List.filter_append, List.filter_eq_nil_iff.2 hl, List.append_nil, hx]

end Text

namespace Grammar.Sketch

variable {limit : Nat} {s s' : Sketch} {m : Mark} {e : SyntaxError}

theorem Refuses.moveTo (h : Refuses limit s m e) (m' : Mark) (hm : m'.symbol = m.symbol) :
    Refuses limit s m' (e.moveTo m'.position) := by
  cases h with
  | unexpected _ _ h =>
    have hr : Refuses limit s m' _ := .unexpected s m' fun x hx ↦ h x (hm.symm.trans hx)
    rw [hm] at hr
    exact hr
  | tooDeep p outer _ hs hl => exact .tooDeep p outer m' (hm.trans hs) hl
  | unmatched t _ hs => exact .unmatched t m' (hm.trans hs)
  | chained l op r outer _ op' hs =>
    have hr : Refuses limit _ m' _ := .chained l op r outer m' op' (hm.trans hs)
    rw [hm] at hr
    exact hr

theorem run_of_map_symbol_eq {ms ms' : List Mark} (h : ms.map Mark.symbol = ms'.map Mark.symbol)
    (hr : s.run limit ms = .ok s') : s.run limit ms' = .ok s' := by
  induction ms generalizing s ms' with
  | nil =>
    cases List.map_eq_nil_iff.1 h.symm
    exact hr
  | cons m ms ih =>
    obtain ⟨m', ms', rfl, hm, hms⟩ := List.map_eq_cons_iff.1 h.symm
    obtain ⟨x, s₁, hx, hstep, hr⟩ := exists_step_of_run hr
    rw [run, step_of (hm.trans hx) hstep]
    exact ih hms.symm hr

theorem ofChars_of_visible_eq {text text' : List Char} (h : visible text = visible text')
    (hs : ofChars text = .ok s) : ofChars text' = .ok s := by
  refine run_of_map_symbol_eq ?_ hs
  rw [map_symbol_marks, map_symbol_marks, h]

theorem Fails.of_visible_eq {text text' : List Char} (hf : Fails text e)
    (h : visible text = visible text') :
    ∃ e', Fails text' e' ∧ (∀ n, e.moveTo n = e'.moveTo n) ∧ SamePlace text text' e e' := by
  cases hf with
  | @refused front back c s _ ht hc hs he =>
    rw [ht, visible_append_cons hc] at h
    obtain ⟨front', back', ht', -, hv⟩ := visible_eq_append_cons h.symm
    -- The sketch of a text shows no blanks, so the same character is refused for the same reason.
    have he' := he.moveTo ⟨c, front'.length⟩ rfl
    refine ⟨_, .refused ht' hc (ofChars_of_visible_eq hv.symm hs) he', fun n ↦ ?_, .inr ?_⟩
    · exact (SyntaxError.moveTo_moveTo n front'.length e).symm
    · refine ⟨(visible front).length, front.length, front'.length, he.position?_eq,
        he'.position?_eq, ⟨front, c, back, ht, hc, rfl, rfl⟩, front', c, back', ht', hc, ?_, rfl⟩
      rw [hv]
  | ended hs he =>
    have hn : e.position? = none := by
      rw [error_of_finish he]
      rfl
    exact ⟨e, .ended (ofChars_of_visible_eq h hs) he, fun _ ↦ rfl, .inl ⟨hn, hn⟩⟩

end Grammar.Sketch

namespace Parsed

/-- Texts that differ in blanks alone are read as the same, or the same is wrong with both, at the
same character. -/
theorem ofText_of_visible_eq {text text' : String}
    (h : visible text.toList = visible text'.toList) :
    (∃ p, ofText text = .ok p ∧ ofText text' = .ok p) ∨
    ∃ e e', ofText text = .error e ∧ ofText text' = .error e' ∧ (∀ n, e.moveTo n = e'.moveTo n) ∧
      SamePlace text.toList text'.toList e e' := by
  cases hp : ofText text with
  | ok p =>
    obtain ⟨t, ht, hd, rfl⟩ := ofText_eq_ok_iff.1 hp
    exact .inl ⟨_, rfl, ofText_eq_ok_iff.2 ⟨t, ht.trans h, hd, rfl⟩⟩
  | error e =>
    obtain ⟨e', hf, hm, hn⟩ := (ofText_eq_error_iff.1 hp).of_visible_eq h
    exact .inr ⟨e, e', rfl, ofText_eq_error_iff.2 hf, hm, hn⟩

theorem ofText_of_visible_eq_of_chain :
    visible "a&b|c".toList = visible " a & b | c".toList ∧
      ofText "a&b|c" = .error (.chainedOperator '|' 3) ∧
      ofText " a & b | c" = .error (.chainedOperator '|' 7) ∧
      ∃ i, VisibleAt "a&b|c".toList i 3 ∧ VisibleAt " a & b | c".toList i 7 := by
  have hv : visible "a&b|c".toList = visible " a & b | c".toList := rfl
  have h : ofText "a&b|c" = .error (.chainedOperator '|' 3) := rfl
  have h' : ofText " a & b | c" = .error (.chainedOperator '|' 7) := rfl
  refine ⟨hv, h, h', ?_⟩
  obtain ⟨p, hp, -⟩ | ⟨e, e', he, he', -, hn⟩ := ofText_of_visible_eq hv
  · rw [h] at hp
    cases hp
  · rw [h] at he
    rw [h'] at he'
    cases he
    cases he'
    obtain ⟨hn, -⟩ | ⟨i, n, n', hn, hn', hi, hi'⟩ := hn
    · cases hn
    · cases hn
      cases hn'
      exact ⟨i, hi, hi'⟩

end Parsed

end Sentential
