namespace Sentential.Text

/-- A truth value as one character. -/
def digit (b : Bool) : Char := if b then '1' else '0'

theorem digit_injective {b c : Bool} (h : digit b = digit c) : b = c := by
  revert b c
  decide

end Sentential.Text
