import Sentential.Text.Nesting

namespace Sentential.Text

/-- The number of parentheses that are open at the end of a text, of which some are open already. -/
def level (already : Nat) : List Char → Nat
  | [] => already
  | c :: text =>
    if c = '(' then level (already + 1) text
    else if c = ')' then level (already - 1) text
    else level already text

theorem level_append (n : Nat) (text rest : List Char) :
    level n (text ++ rest) = level (level n text) rest := by
  induction text generalizing n with
  | nil => rfl
  | cons c text ih =>
    simp only [List.cons_append, level]
    split
    · exact ih (n + 1)
    · split
      · exact ih (n - 1)
      · exact ih n

theorem nesting_cons (n : Nat) (c : Char) (text : List Char) :
    nesting n (c :: text) = max n (nesting (level n [c]) text) := by
  simp only [nesting, level]
  split
  · rfl
  · split <;> rfl

theorem nesting_append (n : Nat) (text rest : List Char) :
    nesting n (text ++ rest) = max (nesting n text) (nesting (level n text) rest) := by
  induction text generalizing n with
  | nil => exact (Nat.max_eq_right (le_nesting n rest)).symm
  | cons c text ih =>
    rw [List.cons_append, nesting_cons, nesting_cons, ih, ← level_append, Nat.max_assoc]
    rfl

theorem level_le_nesting (n : Nat) (text : List Char) : level n text ≤ nesting n text := by
  have h := nesting_append n text []
  rw [List.append_nil, nesting] at h
  omega

/-- A text that closes the parentheses it opens, of which at most `depth` are open at once. -/
def Balanced (depth : Nat) (text : List Char) : Prop :=
  ∀ n, level n text = n ∧ nesting n text = n + depth

namespace Balanced

variable {a b : Nat} {c : Char} {text rest : List Char}

theorem single (ho : c ≠ '(') (hc : c ≠ ')') : Balanced 0 [c] := by
  intro n
  have hl : level n [c] = n := by rw [level, if_neg ho, if_neg hc, level]
  exact ⟨hl, by rw [nesting_cons, hl]; exact Nat.max_self n⟩

theorem append (h : Balanced a text) (h' : Balanced b rest) :
    Balanced (max a b) (text ++ rest) := by
  intro n
  rw [level_append, nesting_append, (h n).1, (h n).2]
  exact ⟨(h' n).1, by rw [(h' n).2, Nat.add_max_add_left]⟩

theorem parentheses (h : Balanced a text) : Balanced (a + 1) ('(' :: text ++ [')']) := by
  intro n
  have hl : level n ('(' :: text ++ [')']) = level (n + 1) (text ++ [')']) := rfl
  have hn : nesting n ('(' :: text ++ [')']) = max n (nesting (n + 1) (text ++ [')'])) := rfl
  rw [hl, hn, level_append, nesting_append, (h (n + 1)).1, (h (n + 1)).2]
  refine ⟨rfl, ?_⟩
  have hc : nesting (n + 1) [')'] = n + 1 := Nat.max_eq_left (Nat.le_succ n)
  rw [hc]
  omega

end Balanced

end Sentential.Text
