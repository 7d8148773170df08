import Sentential.Lexeme
import Sentential.Proofs.Nesting

namespace Sentential

namespace Text

/-- The characters of a text that are not blank. -/
def visible (text : List Char) : List Char := text.filter fun c ↦ !isBlank c

theorem level_of_isBlank {c : Char} (h : isBlank c = true) (n : Nat) : level n [c] = n := by
  have ho : c ≠ '(' := by
    rintro rfl
    exact absurd h (by decide)
  have hc : c ≠ ')' := by
    rintro rfl
    exact absurd h (by decide)
  rw [level, if_neg ho, if_neg hc, level]

theorem level_visible (n : Nat) (text : List Char) : level n (visible text) = level n text := by
  induction text generalizing n with
  | nil => rfl
  | cons c text ih =>
    have hs : level n (c :: text) = level (level n [c]) text := level_append n [c] text
    cases hc : isBlank c with
    | true =>
      rw [visible, List.filter_cons_of_neg (by simp [hc]), hs, level_of_isBlank hc]
      exact ih n
    | false =>
      rw [visible, List.filter_cons_of_pos (by simp [hc]), hs, ← ih]
      exact level_append n [c] (visible text)

theorem nesting_visible (n : Nat) (text : List Char) :
    nesting n (visible text) = nesting n text := by
  induction text generalizing n with
  | nil => rfl
  | cons c text ih =>
    cases hc : isBlank c with
    | true =>
      rw [visible, List.filter_cons_of_neg (by simp [hc]), nesting_cons, level_of_isBlank hc,
        Nat.max_eq_right (le_nesting n text)]
      exact ih n
    | false =>
      rw [visible, List.filter_cons_of_pos (by simp [hc]), nesting_cons, nesting_cons n c text,
        ← ih]
      rfl

end Text

open Text

@[simp] theorem map_symbol_marks (position : Nat) (text : List Char) :
    (marks position text).map Mark.symbol = visible text := by
  induction text generalizing position with
  | nil => rfl
  | cons c text ih =>
    cases hc : isBlank c <;> simp [marks, visible, hc] <;> exact ih (position + 1)

theorem marks_cons {c : Char} (hc : isBlank c = false) (position : Nat) (text : List Char) :
    marks position (c :: text) = ⟨c, position⟩ :: marks (position + 1) text := by
  simp [marks, hc]

theorem marks_append (position : Nat) (text rest : List Char) :
    marks position (text ++ rest) = marks position text ++ marks (position + text.length) rest := by
  induction text generalizing position with
  | nil => rfl
  | cons c text ih =>
    have hp : position + (text.length + 1) = position + 1 + text.length := by omega
    cases hc : isBlank c <;> simp [marks, hc, ih, hp]

theorem isBlank_of_mem_marks {position : Nat} {text : List Char} {m : Mark}
    (h : m ∈ marks position text) : isBlank m.symbol = false := by
  have hm : m.symbol ∈ visible text := by
    rw [← map_symbol_marks position text]
    exact List.mem_map_of_mem h
  simpa using (List.mem_filter.1 hm).2

theorem le_of_mem_marks {position : Nat} {text : List Char} {m : Mark}
    (h : m ∈ marks position text) : position ≤ m.position := by
  induction text generalizing position with
  | nil => cases h
  | cons c text ih =>
    have hs : m ∈ marks (position + 1) text → position ≤ m.position :=
      fun h ↦ Nat.le_of_succ_le (ih h)
    cases hc : isBlank c with
    | true =>
      rw [marks, if_pos hc] at h
      exact hs h
    | false =>
      rw [marks_cons hc] at h
      rcases List.mem_cons.1 h with rfl | h
      · exact Nat.le_refl position
      · exact hs h

theorem pairwise_marks (position : Nat) (text : List Char) :
    (marks position text).Pairwise (·.position < ·.position) := by
  induction text generalizing position with
  | nil => exact .nil
  | cons c text ih =>
    cases hc : isBlank c with
    | true =>
      rw [marks, if_pos hc]
      exact ih (position + 1)
    | false =>
      rw [marks_cons hc]
      exact .cons (fun m hm ↦ le_of_mem_marks hm) (ih (position + 1))

/-- A mark stands where its character stands in the text. -/
theorem marks_eq_append_cons {position : Nat} {text : List Char} {before after : List Mark}
    {m : Mark} (h : marks position text = before ++ m :: after) :
    ∃ front back, text = front ++ m.symbol :: back ∧ m.position = position + front.length ∧
      before = marks position front ∧ after = marks (m.position + 1) back := by
  induction text generalizing position before with
  | nil => simp [marks] at h
  | cons c text ih =>
    rw [marks] at h
    split at h
    · rename_i hc
      obtain ⟨front, back, rfl, hp, hb, ha⟩ := ih h
      refine ⟨c :: front, back, rfl, ?_, by simp [marks, hc, hb], ha⟩
      rw [hp, List.length_cons]
      omega
    · rename_i hc
      cases before with
      | nil =>
        obtain ⟨rfl, rfl⟩ := List.cons.inj h
        exact ⟨[], text, rfl, rfl, rfl, rfl⟩
      | cons m' before =>
        rw [List.cons_append] at h
        obtain ⟨rfl, ht⟩ := List.cons.inj h
        obtain ⟨front, back, rfl, hp, hb, ha⟩ := ih ht
        refine ⟨c :: front, back, rfl, ?_, by simp [marks, hc, hb], ha⟩
        rw [hp, List.length_cons]
        omega

theorem marks_take {text : List Char} {before after : List Mark} {m : Mark}
    (h : marks 0 text = before ++ m :: after) :
    marks 0 (text.take m.position) = before ∧
      marks 0 (text.take (m.position + 1)) = before ++ [m] := by
  have hb : isBlank m.symbol = false := isBlank_of_mem_marks (h ▸ List.mem_append_cons_self)
  obtain ⟨front, back, rfl, hp, rfl, -⟩ := marks_eq_append_cons h
  obtain ⟨c, p⟩ := m
  rw [Nat.zero_add] at hp
  obtain rfl : p = front.length := hp
  refine ⟨by rw [List.take_left], ?_⟩
  have ht : (front ++ c :: back).take (front.length + 1) = front ++ [c] := by
    rw [List.take_length_add_append]
    rfl
  rw [ht, marks_append, marks_cons hb, Nat.zero_add]
  rfl

theorem lt_of_mem_marks {position : Nat} {text : List Char} {m : Mark}
    (h : m ∈ marks position text) : m.position < position + text.length := by
  obtain ⟨before, after, hm⟩ := List.append_of_mem h
  obtain ⟨front, back, rfl, hp, -, -⟩ := marks_eq_append_cons hm
  rw [hp, List.length_append, List.length_cons]
  omega

end Sentential
