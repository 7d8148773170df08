namespace Sentential.Text

/-- The greatest number of parentheses that are open at once in a text, of which some are open
already. -/
def nesting (already : Nat) : List Char → Nat
  | [] => already
  | c :: text =>
    max already <|
      if c = '(' then nesting (already + 1) text
      else if c = ')' then nesting (already - 1) text
      else nesting already text

theorem le_nesting (n : Nat) (text : List Char) : n ≤ nesting n text := by
  cases text with
  | nil => exact Nat.le_refl n
  | cons c text => exact Nat.le_max_left ..

end Sentential.Text
