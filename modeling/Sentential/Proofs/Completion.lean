import Sentential.Proofs.Classification
import Sentential.Proofs.Context.Leads
import Sentential.Proofs.Viability

namespace Sentential

open Text Grammar

def Text.closings (n : Nat) : String := String.ofList (List.replicate n ')')

namespace Grammar.Sketch

variable {s : Sketch} {t : Sentence} {outer : List Pending} {text : List Char}

/-- Each parenthesis behind a complete operand closes the innermost group. -/
theorem ofChars_append_closings (hs : ofChars text = .ok ⟨.complete t, outer⟩) {m : Nat}
    (hm : m ≤ outer.length) :
    ∃ t', ofChars (text ++ List.replicate m ')') = .ok ⟨.complete t', outer.drop m⟩ := by
  have hms := map_symbol_marks_symbols text.length (List.replicate m .closing)
  rw [List.map_replicate] at hms
  obtain ⟨hl, hc⟩ := List.eq_replicate_iff.1 hms
  rw [List.length_map] at hl
  obtain ⟨t', ht⟩ := run_closings Context.maxDepth t outer
    (fun x hx ↦ hc x.symbol (List.mem_map_of_mem hx)) (Nat.le_trans (Nat.le_of_eq hl) hm)
  rw [hl] at ht
  refine ⟨t', ?_⟩
  rw [ofChars_append, hs]
  exact ht

end Grammar.Sketch

namespace Parsed

open Sketch

variable {text : String} {s : Sketch} {t : Sentence} {outer : List Pending}

theorem exists_ok_of_ofChars (hs : ofChars text.toList = .ok ⟨.complete t, []⟩) :
    ∃ p, ofText text = .ok p := by
  rw [ofText_eq_ofChars, hs]
  exact ⟨_, rfl⟩

/-- A letter is the operand that a text lacks. -/
theorem exists_ok_append_letter {p : Pending} (hs : ofChars text.toList = .ok ⟨.pending p, outer⟩)
    {c : Char} (hc : c.isAlpha = true) :
    ∃ p, ofText (text ++ String.singleton c ++ closings outer.length) = .ok p := by
  obtain ⟨v, rfl⟩ := Variable.isAlpha_iff.1 hc
  obtain ⟨t, ht⟩ := ofChars_append_completion v hs
  refine exists_ok_of_ofChars (t := t) ?_
  rw [← ht, completion, closings, String.toList_append, String.toList_append, String.toList_ofList,
    String.toList_singleton, List.map_cons, List.map_replicate, List.append_assoc]
  rfl

section Closings

variable (hs : ofChars text.toList = .ok ⟨.complete t, outer⟩)

include hs

theorem exists_ofChars_append_closings {m : Nat} (hm : m ≤ outer.length) :
    ∃ t', ofChars (text ++ closings m).toList = .ok ⟨.complete t', outer.drop m⟩ := by
  rw [String.toList_append, closings, String.toList_ofList]
  exact ofChars_append_closings hs hm

theorem exists_ok_append_closings : ∃ p, ofText (text ++ closings outer.length) = .ok p := by
  obtain ⟨t', ht⟩ := exists_ofChars_append_closings hs (Nat.le_refl outer.length)
  rw [List.drop_length] at ht
  exact exists_ok_of_ofChars ht

theorem ofText_append_closings_of_lt {m : Nat} (hm : m < outer.length) :
    ofText (text ++ closings m) =
      .error (.lexical (.unexpectedEnd .operatorOrClose (outer.length - m))) := by
  obtain ⟨t', ht⟩ := exists_ofChars_append_closings hs (Nat.le_of_lt hm)
  refine ofText_eq_error_iff.2 (.ended ht ?_)
  rw [← List.length_drop]
  cases hd : outer.drop m with
  | nil => exact absurd (List.drop_eq_nil_iff.1 hd) (Nat.not_le.2 hm)
  | cons p rest => rfl

theorem ofText_append_closings_of_gt {m : Nat} (hm : outer.length < m) :
    ofText (text ++ closings m) =
      .error (.lexical (.unmatchedClose (text.length + outer.length))) := by
  obtain ⟨t', ht⟩ := exists_ofChars_append_closings hs (Nat.le_refl outer.length)
  rw [List.drop_length] at ht
  have hl : (text ++ closings outer.length).toList.length = text.length + outer.length := by
    rw [String.length_toList, String.length_append, closings, String.length_ofList,
      List.length_replicate]
  have hm' : outer.length + (m - outer.length - 1 + 1) = m := by omega
  have hr : (text ++ closings m).toList =
      (text ++ closings outer.length).toList ++
        ')' :: List.replicate (m - outer.length - 1) ')' := by
    rw [String.toList_append, String.toList_append, closings, closings, String.toList_ofList,
      String.toList_ofList, List.append_assoc, ← List.replicate_succ,
      List.replicate_append_replicate, hm']
  rw [← hl]
  -- The groups are closed before the parenthesis that is too much, whatever follows it.
  exact ofText_eq_error_iff.2 (.refused hr (by decide) ht (.unmatched t' _ rfl))

end Closings

/-- What the error of a text that ends too early says is enough to complete the text. -/
theorem ofText_append_of_unexpectedEnd {text : String} {expected : Expected} {n : Nat}
    (h : ofText text = .error (.lexical (.unexpectedEnd expected n))) :
    text.toList.count '(' = text.toList.count ')' + n ∧
      (expected = .value → ∀ c : Char, c.isAlpha = true →
        ∃ p, ofText (text ++ String.singleton c ++ closings n) = .ok p) ∧
      (expected = .operatorOrClose → 1 ≤ n ∧ (∃ p, ofText (text ++ closings n) = .ok p) ∧
        (∀ m < n, ofText (text ++ closings m) =
          .error (.lexical (.unexpectedEnd .operatorOrClose (n - m)))) ∧
        ∀ m > n, ofText (text ++ closings m) =
          .error (.lexical (.unmatchedClose (text.length + n)))) := by
  obtain ⟨⟨draft, outer⟩, hs, hf⟩ := (ofText_eq_error_iff.1 h).exists_ended rfl
  cases error_of_finish hf
  refine ⟨count_eq_of_ofChars hs, ?_, ?_⟩
  · intro he c hc
    cases draft with
    | pending p => exact exists_ok_append_letter hs hc
    | complete t => cases he
  · intro he
    cases draft with
    | pending p => cases he
    | complete t =>
      have hn : 1 ≤ outer.length := by
        cases outer with
        | nil => cases hf
        | cons p outer => exact Nat.le_add_left 1 outer.length
      exact ⟨hn, exists_ok_append_closings hs, fun m hm ↦ ofText_append_closings_of_lt hs hm,
        fun m hm ↦ ofText_append_closings_of_gt hs hm⟩

theorem ofText_append_of_open_groups :
    ofText "!(a & (" = .error (.lexical (.unexpectedEnd .value 2)) ∧
      (∃ p, ofText ("!(a & (" ++ String.singleton 'b' ++ closings 2) = .ok p) ∧
      ofText "((a" = .error (.lexical (.unexpectedEnd .operatorOrClose 2)) ∧
      (∃ p, ofText ("((a" ++ closings 2) = .ok p) ∧
      ofText ("((a" ++ closings 1) = .error (.lexical (.unexpectedEnd .operatorOrClose 1)) ∧
      ofText ("((a" ++ closings 3) = .error (.lexical (.unmatchedClose 5)) := by
  have h : ofText "!(a & (" = .error (.lexical (.unexpectedEnd .value 2)) := rfl
  have h' : ofText "((a" = .error (.lexical (.unexpectedEnd .operatorOrClose 2)) := rfl
  obtain ⟨-, hv, -⟩ := ofText_append_of_unexpectedEnd h
  obtain ⟨-, -, hc⟩ := ofText_append_of_unexpectedEnd h'
  obtain ⟨-, hp, hlt, hgt⟩ := hc rfl
  exact ⟨h, hv rfl 'b' (by decide), h', hp, hlt 1 (by decide), hgt 3 (by decide)⟩

end Parsed

end Sentential
