import Sentential.Text.Layout

namespace Sentential

/-- A propositional variable is named by one of the 52 ASCII letters and numbered in their order,
`A` to `Z` first, then `a` to `z`. -/
structure Variable where
  index : Fin 52
  deriving DecidableEq, Repr

namespace Variable

def ofIndex? (i : Nat) : Option Variable :=
  if h : i < 52 then some ⟨i, h⟩ else none

/-- The variable that a letter names. Letters outside ASCII name none. -/
def ofChar? (c : Char) : Option Variable :=
  if c.isUpper then ofIndex? (c.toNat - 'A'.toNat)
  else if c.isLower then ofIndex? (c.toNat - 'a'.toNat + 26)
  else none

def name (v : Variable) : Char :=
  if v.index < 26 then Char.ofNat (v.index + 'A'.toNat)
  else Char.ofNat (v.index - 26 + 'a'.toNat)

/-- A set of variables is a number; this is the set that holds `v` alone. -/
def bit (v : Variable) : Nat := 1 <<< v.index.val

instance : LT Variable := ⟨fun v w ↦ v.index < w.index⟩
instance : LE Variable := ⟨fun v w ↦ v.index ≤ w.index⟩
instance (v w : Variable) : Decidable (v < w) := inferInstanceAs (Decidable (v.index < w.index))
instance (v w : Variable) : Decidable (v ≤ w) := inferInstanceAs (Decidable (v.index ≤ w.index))

def all : List Variable := (List.finRange 52).map mk

/-- The members of a set of variables in ascending order. Bits past the last variable mean
nothing. -/
def occurring (bits : Nat) : List Variable := all.filter fun v ↦ bits.testBit v.index

/-- The set that holds the variables of a list. -/
def union (vs : List Variable) : Nat := vs.foldr (fun v bits ↦ v.bit ||| bits) 0

theorem pairwise_all : all.Pairwise (· < ·) := by decide

theorem pairwise_occurring (bits : Nat) : (occurring bits).Pairwise (· < ·) :=
  pairwise_all.filter _

theorem mem_all (v : Variable) : v ∈ all := List.mem_map.2 ⟨v.index, List.mem_finRange _, rfl⟩

@[simp] theorem mem_occurring {bits : Nat} {v : Variable} :
    v ∈ occurring bits ↔ bits.testBit v.index = true := by
  simp [occurring, mem_all]

@[simp] theorem testBit_bit (v : Variable) (i : Nat) : v.bit.testBit i = decide (v.index = i) := by
  simp [bit, Nat.one_shiftLeft, Nat.testBit_two_pow]

theorem testBit_union {vs : List Variable} {i : Nat} :
    (union vs).testBit i = true ↔ ∃ v ∈ vs, v.index.val = i := by
  induction vs with
  | nil => simp [union]
  | cons v vs ih =>
    rw [union, List.foldr_cons, Nat.testBit_or, Bool.or_eq_true, testBit_bit, decide_eq_true_eq]
    simp only [List.mem_cons, exists_eq_or_imp]
    exact or_congr Iff.rfl ih

theorem testBit_union_index {vs : List Variable} {v : Variable} :
    (union vs).testBit v.index = true ↔ v ∈ vs := by
  rw [testBit_union]
  constructor
  · rintro ⟨w, hw, hi⟩
    obtain ⟨i⟩ := w
    obtain ⟨j⟩ := v
    obtain rfl : i = j := Fin.ext hi
    exact hw
  · intro hv
    exact ⟨v, hv, rfl⟩

@[simp] theorem ofChar?_name (v : Variable) : ofChar? v.name = some v := by
  revert v
  rintro ⟨i⟩
  revert i
  decide

theorem name_injective {v w : Variable} (h : v.name = w.name) : v = w := by
  simpa using congrArg ofChar? h

def layout (v : Variable) : Text.Layout := .fitted (String.singleton v.name)

def format (f : Text.Field) (v : Variable) : String := v.layout.write f

@[simp] theorem format_plain (v : Variable) : v.format .plain = String.singleton v.name :=
  Text.Field.pad_plain _

end Variable

end Sentential
