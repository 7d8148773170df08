import Sentential.Proofs.Enumeration
import Sentential.Proofs.Places

namespace Sentential

namespace Assignment

variable {a : Assignment} {v : Variable}

theorem get_of_notMem (h : v ∉ a.signature.letters) : a.get v = false := by
  rw [get, Signature.place?, if_neg h]

end Assignment

namespace Signature

variable {s s' : Signature} {v : Variable} {i value number : Nat}

theorem exists_place? (hv : v ∈ s.letters) : ∃ i, s.place? v = some i :=
  ⟨s.letters.idxOf v, if_pos hv⟩

/-- Each bit of `value` that belongs to a variable of both signatures is moved from its place in
`s'` to its place in `s`, and `number` has no other bits. -/
structure Restricts (s s' : Signature) (value number : Nat) : Prop where
  testBit_place : ∀ v i j, s.place? v = some i → s'.place? v = some j →
    number.testBit i = value.testBit j
  testBit_free : ∀ i, (∀ v, s.place? v ≠ some i) → number.testBit i = false

/-- The number of the assignment to the variables of `s` that takes their truth values from an
assignment to the variables of `s'`. -/
def restrict (s s' : Signature) (value : Nat) : Nat :=
  Nat.ofBits fun i : Fin s.letters.length ↦ (Assignment.mk s' value).get s.letters[i]

theorem restrict_lt (s s' : Signature) (value : Nat) : s.restrict s' value < 2 ^ s.size :=
  Nat.ofBits_lt_two_pow _

theorem testBit_restrict (hi : i < s.letters.length) :
    (s.restrict s' value).testBit i = (Assignment.mk s' value).get s.letters[i] :=
  Nat.testBit_ofBits_lt _ i hi

theorem get_restrict (hv : v ∈ s.letters) :
    (Assignment.mk s (s.restrict s' value)).get v = (Assignment.mk s' value).get v := by
  obtain ⟨i, hi, rfl⟩ := List.getElem_of_mem hv
  rw [get_getElem _ hi, testBit_restrict hi]

theorem restricts_restrict (s s' : Signature) (value : Nat) :
    s.Restricts s' value (s.restrict s' value) where
  testBit_place := by
    intro v i j hi hj
    have hv : v ∈ s.letters := List.mem_of_getElem? (place?_eq_some_iff.1 hi)
    calc
      _ = (Assignment.mk s (s.restrict s' value)).get v := (Assignment.get_of_place? hi).symm
      _ = (Assignment.mk s' value).get v := get_restrict hv
      _ = value.testBit j := Assignment.get_of_place? hj
  testBit_free := by
    intro i hi
    apply Nat.testBit_ofBits_ge
    by_contra hlt
    exact hi s.letters[i] (place?_getElem (Nat.lt_of_not_le hlt))

/-- Where `s'` has all variables of `s`, no bit is left open. -/
theorem Restricts.eq_restrict (hs : s.letters ⊆ s'.letters) (h : s.Restricts s' value number) :
    number = s.restrict s' value := by
  have hr := restricts_restrict s s' value
  apply Nat.eq_of_testBit_eq
  intro i
  by_cases hi : i < s.letters.length
  · have hp : s.place? s.letters[i] = some i := place?_getElem hi
    obtain ⟨j, hj⟩ := exists_place? (hs (List.getElem_mem hi))
    rw [h.testBit_place _ i j hp hj, hr.testBit_place _ i j hp hj]
  · have hf : ∀ v, s.place? v ≠ some i := fun v hv ↦ hi (place?_lt hv)
    rw [h.testBit_free i hf, hr.testBit_free i hf]

theorem restricts_iff (hs : s.letters ⊆ s'.letters) :
    s.Restricts s' value number ↔ number = s.restrict s' value := by
  constructor
  · intro h
    exact h.eq_restrict hs
  · rintro rfl
    exact restricts_restrict s s' value

end Signature

namespace Statement

variable {t : Statement} {s s' : Signature}

theorem evaluate_restrict
    (ht : ∀ v ∈ s'.letters, t.occurrences.testBit v.index = true → v ∈ s.letters) (value : Nat) :
    t.evaluate ⟨s', value⟩ = t.evaluate ⟨s, s.restrict s' value⟩ := by
  apply eval_congr
  intro v hv
  by_cases hm : v ∈ s.letters
  · exact (Signature.get_restrict hm).symm
  · -- Both signatures lack the variable, so it is false under either assignment.
    have hm' : v ∉ s'.letters := fun h ↦ hm (ht v h hv)
    rw [Assignment.get_of_notMem hm', Assignment.get_of_notMem hm]

/-- What a statement says under an assignment depends on the truth values of its own variables only,
whatever their places are. Variables that it does not have can be dropped from the signature. -/
theorem evaluate_renumbered (t : Statement) (s s' : Signature) :
    (∀ value value' a a', s.assignment? value = some a → s'.assignment? value' = some a' →
      (∀ v : Variable, t.occurrences.testBit v.index = true → a.get v = a'.get v) →
      t.evaluate a = t.evaluate a') ∧
    (s.letters ⊆ s'.letters →
      (∀ v ∈ s'.letters, t.occurrences.testBit v.index = true → v ∈ s.letters) →
      ∀ value < 2 ^ s'.size, ∃ number,
        (∀ n, s.Restricts s' value n ↔ n = number) ∧ number < 2 ^ s.size ∧
        ∃ a a', s.assignment? number = some a ∧ s'.assignment? value = some a' ∧
          t.evaluate a' = t.evaluate a) := by
  constructor
  · intro value value' a a' _ _ h
    exact eval_congr h
  · intro hs ht value hv
    have hlt : s.restrict s' value < 2 ^ s.size := s.restrict_lt s' value
    exact ⟨s.restrict s' value, fun n ↦ Signature.restricts_iff hs, hlt, ⟨s, _⟩, ⟨s', value⟩,
      Signature.assignment?_eq_some_iff.2 ⟨hlt, rfl⟩,
      Signature.assignment?_eq_some_iff.2 ⟨hv, rfl⟩, evaluate_restrict ht value⟩

theorem evaluate_renumbered_of_gaps :
    (∀ n, (Signature.ofBits (2 + 2 ^ 27)).Restricts (.ofBits (3 + 3 * 2 ^ 26)) 7 n ↔ n = 1) ∧
    (binary .implies (var ⟨1⟩) (var ⟨27⟩)).evaluate ⟨.ofBits (3 + 3 * 2 ^ 26), 7⟩ =
      (binary .implies (var ⟨1⟩) (var ⟨27⟩)).evaluate ⟨.ofBits (2 + 2 ^ 27), 1⟩ := by
  have hs : (Signature.ofBits (2 + 2 ^ 27)).letters ⊆
      (Signature.ofBits (3 + 3 * 2 ^ 26)).letters := by decide
  obtain ⟨number, hn, -, a, a', ha, ha', he⟩ :=
    (evaluate_renumbered (binary .implies (var ⟨1⟩) (var ⟨27⟩)) _ _).2 hs (by decide) 7 (by decide)
  obtain rfl : 1 = number := (hn 1).1 ((Signature.restricts_iff hs).2 rfl)
  cases ha
  cases ha'
  exact ⟨hn, he⟩

end Statement

end Sentential
