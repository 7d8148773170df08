import Mathlib.Algebra.Group.Nat.Defs
import Sentential.Proofs.Acceptance

namespace Sentential

open Text Grammar

namespace Statement

/-- A statement as it is written as an operand. -/
def toTerm : Statement → Term
  | falsum => .falsum
  | verum => .verum
  | var v => .letter v
  | not s => .negation s.toTerm
  | binary op l r => .pair l.toTerm op r.toTerm

def toSentence : Statement → Sentence
  | binary op l r => .pair l.toTerm op r.toTerm
  | s => .term s.toTerm

@[simp] theorem reading_toTerm (s : Statement) : s.toTerm.reading = s := by
  induction s with
  | falsum | verum | var v => rfl
  | not s ih => rw [toTerm, Term.reading, ih]
  | binary op l r ihl ihr => rw [toTerm, Term.reading, ihl, ihr]

@[simp] theorem reading_toSentence (s : Statement) : s.toSentence.reading = s := by
  cases s with
  | binary op l r => simp [toSentence, Sentence.reading]
  | _ => exact reading_toTerm _

theorem visible_symbols_binary {l r : List Char} (op : Connective) :
    visible (l ++ ' ' :: op.symbol :: ' ' :: r) = visible l ++ op.symbol :: visible r := by
  have hb : isBlank ' ' = true := rfl
  have ho : isBlank op.symbol = false := Sign.isBlank_symbol (.operator op)
  simp [visible, hb, ho]

theorem visible_enclose {s : Statement} {text : List Char} :
    visible (s.enclose text) = s.enclose (visible text) := by
  unfold enclose
  split
  · have ho : isBlank '(' = false := rfl
    have hc : isBlank ')' = false := rfl
    simp [visible, ho, hc]
  · rfl

theorem visible_symbols (s : Statement) :
    visible s.symbols = s.toSentence.symbols ∧
      visible (s.enclose s.symbols) = s.toTerm.symbols := by
  induction s with
  | falsum | verum => exact ⟨rfl, rfl⟩
  | var v =>
    have hv : isBlank v.name = false := Sign.isBlank_symbol (.letter v)
    have h : visible [v.name] = [v.name] := by simp [visible, hv]
    exact ⟨h, h⟩
  | not s ih =>
    have h : visible ('!' :: s.enclose s.symbols) = '!' :: s.toTerm.symbols := by
      rw [← ih.2]
      rfl
    exact ⟨h, h⟩
  | binary op l r ihl ihr =>
    have h : visible (binary op l r).symbols =
        l.toTerm.symbols ++ op.symbol :: r.toTerm.symbols := by
      rw [symbols, visible_symbols_binary, ihl.2, ihr.2]
    refine ⟨h, ?_⟩
    rw [visible_enclose, h]
    rfl

theorem spells_render (s : Statement) : s.toSentence.Spells s.render := by
  rw [Sentence.Spells, render, String.toList_ofList, s.visible_symbols.1]

theorem nesting_render (s : Statement) : nesting 0 s.render.toList = s.toSentence.depth := by
  rw [← nesting_visible, ← s.spells_render, s.toSentence.nesting_symbols]

theorem depth_toSentence_le (s : Statement) : s.toSentence.depth ≤ s.toTerm.depth := by
  cases s with
  | binary op l r => exact Nat.le_succ _
  | _ => exact Nat.le_refl _

theorem depth_toTerm_negate (s : Statement) : s.negate.toTerm.depth = s.toTerm.depth := by
  cases s <;> rfl

theorem depth_toTerm_cancel (s : Statement) : s.cancel.toTerm.depth = s.toTerm.depth := by
  induction s with
  | falsum | verum | var v => rfl
  | not s ih => rw [cancel, depth_toTerm_negate, ih]; rfl
  | binary op l r ihl ihr => rw [cancel, toTerm, toTerm, Term.depth, Term.depth, ihl, ihr]

end Statement

namespace Grammar

open Statement

theorem Term.depth_toTerm_reading (t : Term) : t.reading.toTerm.depth ≤ t.depth := by
  induction t with
  | falsum | verum | letter v => exact Nat.le_refl _
  | negation t ih => exact ih
  | group t ih => exact Nat.le_succ_of_le ih
  | pair l op r ihl ihr =>
    simp only [reading, toTerm, depth]
    omega

theorem Sentence.depth_toSentence_cancel (t : Sentence) :
    t.reading.cancel.toSentence.depth ≤ t.depth := by
  cases t with
  | term t =>
    have hs := t.reading.cancel.depth_toSentence_le
    rw [depth_toTerm_cancel] at hs
    exact Nat.le_trans hs t.depth_toTerm_reading
  | pair l op r =>
    have hl := l.depth_toTerm_reading
    have hr := r.depth_toTerm_reading
    simp only [reading, cancel, toSentence, depth, depth_toTerm_cancel]
    omega

end Grammar

namespace Parsed

/-- The canonical text of what was read is read as the same again. -/
theorem ofText_render {text : String} {p : Parsed} (h : ofText text = .ok p) :
    ofText p.statement.render = .ok p ∧
      (ofText p.statement.render).map (·.statement.render) = .ok p.statement.render := by
  obtain ⟨t, -, hd, rfl⟩ := ofText_eq_ok_iff.1 h
  have hr : ofText t.reading.cancel.render =
      .ok ⟨t.reading.cancel, Signature.ofBits t.reading.occurrences⟩ := by
    refine ofText_eq_ok_iff.2 ⟨_, t.reading.cancel.spells_render, ?_, ?_⟩
    · exact Nat.le_trans t.depth_toSentence_cancel hd
    · rw [Statement.reading_toSentence, Statement.cancel_cancel, Statement.occurrences_cancel]
  exact ⟨hr, by rw [hr]; rfl⟩

theorem ofText_render_of_blanks :
    (Statement.binary .xor (.var ⟨26⟩) (.var ⟨1⟩)).render = "a ^ B" ∧
      ofText "a ^ B" =
        .ok ⟨.binary .xor (.var ⟨26⟩) (.var ⟨1⟩), Signature.ofBits (2 ^ 26 + 2)⟩ := by
  have h : ofText " !((!(a  ^B)))" =
      .ok ⟨.binary .xor (.var ⟨26⟩) (.var ⟨1⟩), Signature.ofBits (2 ^ 26 + 2)⟩ := rfl
  exact ⟨rfl, (ofText_render h).1⟩

/-- The canonical text of any statement is read as the statement without its pairs of negations,
which means the same, unless groups are nested too deeply in it. Then the first parenthesis that
makes it so is found. -/
theorem ofText_render_statement (s : Statement) :
    (nesting 0 s.render.toList ≤ 256 →
      (ofText s.render).map (·.statement) = .ok s.cancel ∧
        s.cancel.occurrences = s.occurrences ∧
        ∀ a : Assignment, s.cancel.evaluate a = s.evaluate a) ∧
    (256 < nesting 0 s.render.toList →
      ∃ before after, s.render.toList = before ++ '(' :: after ∧ nesting 0 before ≤ 256 ∧
        256 < nesting 0 (before ++ ['(']) ∧
        ofText s.render = .error (.lexical (.tooDeep before.length 256))) := by
  rw [s.nesting_render]
  refine ⟨fun hd ↦ ⟨?_, s.occurrences_cancel, fun a ↦ s.eval_cancel a.get⟩, fun hd ↦ ?_⟩
  · have hr := ofText_eq_ok_iff.2 ⟨s.toSentence, s.spells_render, hd, rfl⟩
    rw [hr, Statement.reading_toSentence]
    rfl
  · exact ofText_of_depth_lt s.spells_render hd

end Parsed

end Sentential
