import Sentential.TruthTable

namespace Sentential

namespace Text

/-- How many fill characters stand before a text and after it. Without an alignment there are none
before it. -/
def Field.Places (f : Field) (before after : Nat) : Prop :=
  match f.alignment with
  | none => before = 0
  | some .left => before = 0
  | some .center => after = before ∨ after = before + 1
  | some .right => after = 0

/-- The text is cut to the precision, and fill characters bring what is left of it to the width. -/
def Field.Fits (f : Field) (text written : String) : Prop :=
  ∃ kept before after, kept = text.toList.take (f.precision.getD text.length) ∧
    written.toList = List.replicate before f.fill ++ kept ++ List.replicate after f.fill ∧
    before + after = f.width - kept.length ∧ f.Places before after

namespace Field

variable {f : Field}

theorem cut_eq (f : Field) (text : String) :
    f.cut text.toList = text.toList.take (f.precision.getD text.length) := by
  rw [cut]
  cases f.precision with
  | none => rw [Option.getD_none, ← String.length_toList, List.take_length]
  | some n => rfl

theorem margins_eq_iff {n before after : Nat} : f.margins n = (before, after) ↔
    before + after = f.width - n ∧ f.Places before after := by
  rw [margins, Places]
  cases f.alignment with
  | none =>
    simp only [Prod.mk.injEq]
    omega
  | some a => cases a <;> simp only [Prod.mk.injEq] <;> omega

theorem pad_eq_iff {text written : String} : f.pad text = written ↔ f.Fits text written := by
  rw [pad, ← String.toList_inj, String.toList_ofList, padChars, cut_eq]
  constructor
  · intro h
    exact ⟨_, _, _, rfl, h.symm, margins_eq_iff.1 rfl⟩
  · rintro ⟨kept, before, after, rfl, hw, hm⟩
    rw [hw, margins_eq_iff.2 hm]

end Field

end Text

open Text

theorem Expected.write_layout (e : Expected) (f : Field) : e.layout.write f = e.description := by
  cases e <;> simp [layout, description]

theorem LexicalError.write_layout (e : LexicalError) (f : Field) :
    e.layout.write f = e.message := by
  unfold message
  cases e <;>
    simp only [layout, Layout.write_append, Layout.write_fixed, Layout.write_word,
      Layout.write_inner, Expected.write_layout] <;>
    rfl

theorem SyntaxError.write_layout (e : SyntaxError) (f : Field) : e.layout.write f = e.message := by
  unfold message
  cases e with
  | lexical e => exact e.write_layout f
  | unexpectedEnd => rfl
  | chainedOperator operator position =>
    simp only [layout, Layout.write_append, Layout.write_fixed, Layout.write_word]
    rfl
  | unexpectedLexeme found position =>
    have hk : found.layout.write .plain = found.description := Field.pad_plain _
    simp only [layout, Layout.write_append, Layout.write_fixed, Layout.write_word,
      Layout.write_inner, hk]
    rfl

theorem Assignment.write_layout (a : Assignment) (f : Field) : a.layout.write f = a.display := by
  have hp (c : Char) (b : Bool) :
      String.singleton c ++ ":" ++ String.singleton (digit b) =
        String.ofList [c, ':', digit b] := by
    simp [← String.toList_inj]
  simp only [layout, display, Layout.write_append, Layout.write_fixed, Layout.write_intercalate,
    List.map_zipWith, Layout.write_word, hp]

namespace Statement

theorem toList_write_operand (s : Statement) (l : Layout) (f : Field) :
    ((layout.operand s l).write f).toList = s.enclose (l.write .plain).toList := by
  unfold layout.operand enclose
  split <;> simp

/-- The field of the whole does not reach the operands, however deep they are. -/
theorem toList_write_layout (s : Statement) (f : Field) :
    (s.layout.write f).toList = s.symbols := by
  induction s generalizing f with
  | falsum => simp [layout, symbols]
  | verum => simp [layout, symbols]
  | var v => simp [layout, symbols, Variable.layout]
  | not s ih => simp [layout, symbols, toList_write_operand, ih]
  | binary op l r ihl ihr =>
    simp [layout, symbols, toList_write_operand, ihl, ihr, Connective.layout]

theorem write_layout (s : Statement) (f : Field) : s.layout.write f = s.render := by
  rw [render, ← toList_write_layout s f, String.ofList_toList]

end Statement

/-- Statements, assignments, expectations and errors are written as they are, whatever the field.
Single words and characters are fitted into the field, on its left if it has no alignment. -/
theorem Text.Field.format_fits (f : Field) :
    (∀ s : Statement, s.format f = s.render) ∧
    (∀ p : Parsed, p.format f = p.statement.render) ∧
    (∀ a : Assignment, a.format f = a.display) ∧
    (∀ e : Expected, e.format f = e.description) ∧
    (∀ e : SyntaxError, e.format f = e.message) ∧
    ∀ written : String,
      (∀ k : LexemeKind, k.format f = written ↔ f.Fits k.description written) ∧
      (∀ filter : RowFilter, filter.format f = written ↔ f.Fits filter.name written) ∧
      (∀ c : Classification, c.format f = written ↔ f.Fits c.name written) ∧
      (∀ v : Variable, v.format f = written ↔ f.Fits (String.singleton v.name) written) ∧
      ∀ op : Connective, op.format f = written ↔ f.Fits (String.singleton op.symbol) written := by
  refine ⟨fun s ↦ s.write_layout f, fun p ↦ p.statement.write_layout f, fun a ↦ a.write_layout f,
    fun e ↦ e.write_layout f, fun e ↦ e.write_layout f, fun written ↦ ?_⟩
  exact ⟨fun _ ↦ pad_eq_iff, fun _ ↦ pad_eq_iff, fun _ ↦ pad_eq_iff, fun _ ↦ pad_eq_iff,
    fun _ ↦ pad_eq_iff⟩

end Sentential
