import Sentential.Lexeme

namespace Sentential

namespace Variable

theorem index_of_ofIndex? {i : Nat} {v : Variable} (h : ofIndex? i = some v) : v.index.val = i := by
  unfold ofIndex? at h
  split at h
  · cases h
    rfl
  · cases h

theorem name_of_ofChar? {c : Char} {v : Variable} (h : ofChar? c = some v) : v.name = c := by
  unfold ofChar? at h
  split at h
  · rename_i hc
    have hr : 65 ≤ c.toNat ∧ c.toNat ≤ 90 := of_decide_eq_true hc
    have hv : v.index.val = c.toNat - 65 := index_of_ofIndex? h
    have hi : v.index.val < 26 := by omega
    rw [name, if_pos (by exact hi), hv]
    exact (congrArg Char.ofNat (Nat.sub_add_cancel hr.1)).trans (Char.ofNat_toNat c)
  · split at h
    · rename_i hc
      have hr : 97 ≤ c.toNat ∧ c.toNat ≤ 122 := by
        obtain ⟨hl, hu⟩ := Bool.and_eq_true_iff.1 hc
        exact ⟨of_decide_eq_true hl, of_decide_eq_true hu⟩
      have hv : v.index.val = c.toNat - 97 + 26 := index_of_ofIndex? h
      have hi : ¬ v.index.val < 26 := by omega
      rw [name, if_neg (by exact hi), hv, Nat.add_sub_cancel]
      exact (congrArg Char.ofNat (Nat.sub_add_cancel hr.1)).trans (Char.ofNat_toNat c)
    · cases h

end Variable

/-- A character that means something, with its meaning. -/
inductive Sign
  | falsum
  | verum
  | negation
  | opening
  | closing
  | operator (op : Connective)
  | letter (v : Variable)
  deriving DecidableEq, Repr

namespace Sign

def symbol : Sign → Char
  | falsum => '0'
  | verum => '1'
  | negation => '!'
  | opening => '('
  | closing => ')'
  | operator op => op.symbol
  | letter v => v.name

def kind : Sign → LexemeKind
  | falsum => .falsum
  | verum => .verum
  | negation => .negation
  | opening => .opening
  | closing => .closing
  | operator _ => .operator
  | letter _ => .letter

/-- The meaning of a character. -/
def ofChar? (c : Char) : Option Sign :=
  if c = '0' then some falsum
  else if c = '1' then some verum
  else if c = '!' then some negation
  else if c = '(' then some opening
  else if c = ')' then some closing
  else
    match Connective.ofSymbol? c with
    | some op => some (operator op)
    | none => (Variable.ofChar? c).map letter

@[simp] theorem ofChar?_symbol (x : Sign) : ofChar? x.symbol = some x := by
  cases x with
  | operator op => cases op <;> rfl
  | letter v =>
    obtain ⟨i⟩ := v
    revert i
    decide
  | _ => rfl

theorem symbol_of_ofChar? {c : Char} {x : Sign} (h : ofChar? c = some x) : x.symbol = c := by
  cases hv : Variable.ofChar? c <;>
    grind [ofChar?, Sign.symbol, Connective.ofSymbol?_eq_some_iff, Variable.name_of_ofChar?]

theorem symbol_injective {x y : Sign} (h : x.symbol = y.symbol) : x = y := by
  simpa using congrArg ofChar? h

@[simp] theorem symbol_inj {x y : Sign} : x.symbol = y.symbol ↔ x = y :=
  ⟨symbol_injective, congrArg symbol⟩

theorem symbol_eq_opening {x : Sign} : x.symbol = '(' ↔ x = opening := symbol_inj (y := opening)

theorem symbol_eq_closing {x : Sign} : x.symbol = ')' ↔ x = closing := symbol_inj (y := closing)

theorem map_kind_ofChar? (c : Char) : (ofChar? c).map kind = LexemeKind.ofChar? c := by
  cases hv : Variable.ofChar? c <;> grind [ofChar?, LexemeKind.ofChar?, kind]

theorem isBlank_symbol (x : Sign) : Text.isBlank x.symbol = false := by
  cases x with
  | operator op => cases op <;> rfl
  | letter v =>
    obtain ⟨i⟩ := v
    revert i
    decide
  | _ => rfl

end Sign

end Sentential
