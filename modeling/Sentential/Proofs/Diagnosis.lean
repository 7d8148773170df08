import Mathlib.Data.List.Basic
import Sentential.Cli.Diagnosis
import Sentential.Proofs.Lines
import Sentential.Proofs.Sketch.Refusal

namespace Sentential

open Text Grammar

namespace SyntaxError

/-- The character that an error finds wrong. -/
def culprit? : SyntaxError → Option Char
  | lexical (.unexpectedChar found _ _) => some found
  | lexical (.unmatchedClose _) => some ')'
  | lexical (.tooDeep _ _) => some '('
  | lexical (.unexpectedEnd _ _) => none
  | chainedOperator operator _ => some operator
  | unexpectedLexeme _ _ => none
  | unexpectedEnd => none

theorem newline_notMem_toString (n : Nat) : '\n' ∉ (toString n).toList := by
  intro h
  cases isDigit_of_mem_toString h

theorem newline_notMem_singleton {c : Char} (h : c ≠ '\n') : '\n' ∉ (toString c).toList := by
  change '\n' ∉ (String.singleton c).toList
  rw [String.toList_singleton, List.mem_singleton]
  exact h.symm

theorem newline_notMem_lexical {e : LexicalError} (h : (lexical e).culprit? ≠ some '\n') :
    '\n' ∉ e.message.toList := by
  have hx (x : Expected) : '\n' ∉ (toString x.description).toList := by cases x <;> decide
  unfold LexicalError.message
  cases e with
  | unexpectedChar found position expected =>
    have hf := newline_notMem_singleton fun hn ↦ h (congrArg some hn)
    simp only [String.toList_append, List.mem_append, not_or, hf, hx, newline_notMem_toString,
      not_false_eq_true, and_true]
    decide
  | unmatchedClose position | tooDeep position limit =>
    simp only [String.toList_append, List.mem_append, not_or, newline_notMem_toString,
      not_false_eq_true, and_true]
    decide
  | unexpectedEnd expected openGroups =>
    simp only [String.toList_append, List.mem_append, not_or, hx, not_false_eq_true, and_true]
    decide

/-- An error is told in one line unless a line feed is what is wrong. -/
theorem newline_notMem_message {e : SyntaxError} (h : e.culprit? ≠ some '\n') :
    '\n' ∉ e.message.toList := by
  unfold message
  cases e with
  | lexical e => exact newline_notMem_lexical h
  | chainedOperator operator position =>
    have hf := newline_notMem_singleton fun hn ↦ h (congrArg some hn)
    simp only [String.toList_append, List.mem_append, not_or, hf, newline_notMem_toString,
      not_false_eq_true, and_true]
    decide
  | unexpectedLexeme found position =>
    have hd : '\n' ∉ (toString found.description).toList := by cases found <;> decide
    simp only [String.toList_append, List.mem_append, not_or, hd, newline_notMem_toString,
      not_false_eq_true, and_true]
    decide
  | unexpectedEnd => decide

end SyntaxError

namespace Grammar.Sketch

variable {limit : Nat} {s : Sketch} {m : Mark} {e : SyntaxError}

theorem Refuses.culprit?_eq (h : Refuses limit s m e) : e.culprit? = some m.symbol := by
  cases h with
  | unexpected _ _ h => rfl
  | tooDeep p outer _ hm hl => rw [hm]; rfl
  | unmatched t _ hm => rw [hm]; rfl
  | chained l op r outer _ op' hm => rfl

/-- An error that has a position is about the character there. -/
theorem Fails.exists_culprit {text : List Char} {position : Nat} (h : Fails text e)
    (hp : e.position? = some position) :
    ∃ c, e.culprit? = some c ∧ text[position]? = some c := by
  cases h with
  | @refused front back c s e ht hc hs he =>
    rw [he.position?_eq] at hp
    cases hp
    refine ⟨c, he.culprit?_eq, ?_⟩
    rw [ht, List.getElem?_append_right (Nat.le_refl _), Nat.sub_self]
    rfl
  | ended hs he =>
    rw [error_of_finish he] at hp
    cases hp

end Grammar.Sketch

theorem Text.Field.pad_caret (position : Nat) :
    ({ alignment := some .right, width := position + 1 } : Field).pad "^" =
      String.ofList (List.replicate position ' ' ++ ['^']) := by
  simp [pad, padChars, cut, margins]

namespace SyntaxError

variable {e : SyntaxError} {text : String}

/-- A caret under the character at a position, two blanks further in than the text itself. -/
def pointer (position : Nat) : String :=
  String.ofList (List.replicate 2 ' ' ++ List.replicate position ' ' ++ ['^'])

theorem newline_notMem_pointer (position : Nat) : '\n' ∉ (pointer position).toList := by
  simp [pointer, List.mem_replicate]

theorem idxOf_pointer (position : Nat) :
    (pointer position).toList.idxOf '^' = position + 2 := by
  have hn : '^' ∉ List.replicate 2 ' ' ++ List.replicate position ' ' := by
    simp [List.mem_replicate]
  rw [pointer, String.toList_ofList, List.idxOf_append_of_notMem hn]
  simp

theorem diagnosis_eq {position : Nat} (hp : e.position? = some position)
    (hn : '\n' ∉ text.toList) :
    e.diagnosis text = "\n".intercalate [e.message, "  " ++ text, pointer position] := by
  have hc : text.toList.contains '\n' = false := by simpa using hn
  rw [diagnosis, hp]
  simp only [hc, Field.pad_caret]
  simp [← String.toList_inj, pointer, List.replicate_succ]

theorem diagnosis_eq_message (h : '\n' ∈ text.toList ∨ e.position? = none) :
    e.diagnosis text = e.message := by
  rw [diagnosis]
  cases hp : e.position? with
  | none => rfl
  | some position =>
    have hn : '\n' ∈ text.toList := h.resolve_right (by simp [hp])
    simp [hn]

end SyntaxError

open SyntaxError

/-- Where a text is a single line, what is wrong with it is told in three lines: the error, the text
and a caret under the character that the error finds wrong. Else the error is all there is. -/
theorem Parsed.diagnosis_points {text : String} {e : SyntaxError} (h : ofText text = .error e) :
    (∀ position, e.position? = some position → '\n' ∉ text.toList →
      ∃ c source below,
        e.diagnosis text = "\n".intercalate [e.message, source, below] ∧
        (e.diagnosis text).toList.splitOn '\n' =
          [e.message.toList, source.toList, below.toList] ∧
        source = "  " ++ text ∧
        below = String.ofList (List.replicate 2 ' ' ++ List.replicate position ' ' ++ ['^']) ∧
        e.culprit? = some c ∧ text.toList[position]? = some c ∧
        source.toList[below.toList.idxOf '^']? = some c) ∧
    ('\n' ∈ text.toList ∨ e.position? = none → e.diagnosis text = e.message) := by
  refine ⟨fun position hp hn ↦ ?_, diagnosis_eq_message⟩
  obtain ⟨c, he, hc⟩ := (ofText_eq_error_iff.1 h).exists_culprit hp
  have hd := diagnosis_eq hp hn
  have hm : '\n' ∉ e.message.toList := by
    refine newline_notMem_message fun hne ↦ hn ?_
    rw [he] at hne
    cases hne
    exact List.mem_of_getElem? hc
  refine ⟨c, "  " ++ text, pointer position, hd, ?_, rfl, rfl, he, hc, ?_⟩
  · have hl : ∀ line ∈ [e.message, "  " ++ text, pointer position].map String.toList,
        '\n' ∉ line := by
      simpa using ⟨hm, hn, newline_notMem_pointer position⟩
    have hs : (e.diagnosis text).toList =
        ['\n'].intercalate ([e.message, "  " ++ text, pointer position].map String.toList) := by
      rw [hd]
      exact String.toList_intercalate
    rw [hs, List.splitOn_intercalate '\n' hl (List.cons_ne_nil _ _)]
    rfl
  · rw [idxOf_pointer]
    simpa using hc

theorem Parsed.diagnosis_points_of_wide_blank :
    ofText "\u2003(a & é)" = .error (.lexical (.unexpectedChar 'é' 6 .value)) ∧
      '\n' ∉ "\u2003(a & é)".toList ∧
      ((SyntaxError.lexical (.unexpectedChar 'é' 6 .value)).diagnosis
          "\u2003(a & é)").toList.splitOn '\n' =
        ["unexpected char 'é' at position 6; expected '!', '(', '0', '1', or a statement",
          "  \u2003(a & é)",
          "        ^"].map String.toList := by
  have h : ofText "\u2003(a & é)" = .error (.lexical (.unexpectedChar 'é' 6 .value)) := rfl
  have hn : '\n' ∉ "\u2003(a & é)".toList := by decide
  obtain ⟨c, source, below, -, hs, rfl, rfl, -⟩ := (diagnosis_points h).1 6 rfl hn
  exact ⟨h, hn, hs.trans rfl⟩

end Sentential
