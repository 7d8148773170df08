import Mathlib.Logic.ExistsUnique
import Sentential.Partition
import Sentential.Proofs.Classification

namespace Sentential

namespace Signature

variable {s : Signature}

theorem isEmpty_eq_true_iff : s.isEmpty = true ↔ s.size = 0 := by
  rw [isEmpty, List.isEmpty_iff, size, List.length_eq_zero_iff]

theorem assignment?_eq_some_iff {value : Nat} {a : Assignment} :
    s.assignment? value = some a ↔ value < 2 ^ s.size ∧ a = ⟨s, value⟩ := by
  rw [assignment?, s.assignmentCount_eq]
  constructor
  · intro h
    split at h
    · exact ⟨‹_›, (Option.some.inj h).symm⟩
    · cases h
  · rintro ⟨hv, rfl⟩
    exact if_pos hv

theorem assignment?_eq_none {value : Nat} (h : 2 ^ s.size ≤ value) :
    s.assignment? value = none := by
  rw [assignment?, s.assignmentCount_eq]
  exact if_neg (Nat.not_lt.2 h)

theorem get_getElem {i : Nat} (value : Nat) (hi : i < s.letters.length) :
    (Assignment.mk s value).get s.letters[i] = value.testBit i :=
  Assignment.get_letter ⟨s, value⟩ hi

/-- The number of an assignment is known from its truth values. -/
theorem value_eq_of_get_eq {value value' : Nat} (h : value < 2 ^ s.size) (h' : value' < 2 ^ s.size)
    (hv : ∀ v ∈ s.letters, (Assignment.mk s value).get v = (Assignment.mk s value').get v) :
    value = value' := by
  apply Nat.eq_of_testBit_eq
  intro i
  by_cases hi : i < s.letters.length
  · have hb := hv s.letters[i] (List.getElem_mem hi)
    rw [get_getElem value hi, get_getElem value' hi] at hb
    exact hb
  · have hp : 2 ^ s.size ≤ 2 ^ i := Nat.pow_le_pow_right Nat.two_pos (Nat.le_of_not_lt hi)
    rw [Nat.testBit_lt_two_pow (Nat.lt_of_lt_of_le h hp),
      Nat.testBit_lt_two_pow (Nat.lt_of_lt_of_le h' hp)]

theorem existsUnique_assignment (s : Signature) (ρ : Valuation) :
    ∃! value, value < 2 ^ s.size ∧ ∃ a, s.assignment? value = some a ∧
      ∀ v ∈ s.letters, a.get v = ρ v := by
  obtain ⟨value, hlt, hρ⟩ := s.exists_assignment ρ
  rw [s.assignmentCount_eq] at hlt
  refine ⟨value, ⟨hlt, _, assignment?_eq_some_iff.2 ⟨hlt, rfl⟩, hρ⟩, ?_⟩
  rintro value' ⟨hlt', a, ha, hρ'⟩
  obtain ⟨-, rfl⟩ := assignment?_eq_some_iff.1 ha
  apply value_eq_of_get_eq hlt' hlt
  intro v hv
  rw [hρ' v hv, hρ v hv]

theorem get_zero {v : Variable} (hv : v ∈ s.letters) : (Assignment.mk s 0).get v = false := by
  obtain ⟨i, hi, rfl⟩ := List.getElem_of_mem hv
  rw [get_getElem 0 hi, Nat.zero_testBit]

theorem get_last {v : Variable} (hv : v ∈ s.letters) :
    (Assignment.mk s (2 ^ s.size - 1)).get v = true := by
  obtain ⟨i, hi, rfl⟩ := List.getElem_of_mem hv
  rw [get_getElem _ hi, Nat.testBit_two_pow_sub_one]
  exact decide_eq_true hi

end Signature

namespace Sweep

/-- What a sweep answers when it is asked `n` times for the next assignment. -/
def draw : Nat → Sweep → List (Option Assignment)
  | 0, _ => []
  | n + 1, s => s.next.1 :: draw n s.next.2

theorem stop_eq (s : Sweep) : s.stop = 2 ^ s.signature.size := s.signature.assignmentCount_eq

theorem next_fst (s : Sweep) : s.next.1 = s.signature.assignment? s.position := by
  rw [next, Signature.assignment?, stop]
  split <;> rfl

/-- A sweep counts up from its position. Behind the last assignment there is nothing for ever. -/
theorem draw_eq (n : Nat) (s : Sweep) :
    s.draw n = (List.range n).map fun i ↦ s.signature.assignment? (s.position + i) := by
  induction n generalizing s with
  | zero => rfl
  | succ n ih =>
    rw [draw, ih, next_fst, List.range_succ_eq_map, List.map_cons, List.map_map]
    congr 1
    apply List.map_congr_left
    intro i _
    by_cases h : s.position < s.stop
    · have hn : s.next.2 = ⟨s.signature, s.position + 1⟩ := by rw [next_of_lt h]
      have hp : s.position + 1 + i = s.position + (i + 1) := by omega
      rw [hn, Function.comp_apply, ← hp]
    · have hn : s.next.2 = s := by rw [next_of_le (Nat.le_of_not_lt h)]
      have hs : 2 ^ s.signature.size ≤ s.position := s.stop_eq ▸ Nat.le_of_not_lt h
      rw [hn, Signature.assignment?_eq_none (by omega), Function.comp_apply,
        Signature.assignment?_eq_none (by omega)]

end Sweep

/-- Numbers and truth valuations correspond to each other, and a sweep goes through them in the
order of the numbers, from all false to all true. Without a variable there is one assignment, but
nothing to sweep. -/
theorem Signature.sweep_assignments (s : Signature) :
    (∀ ρ : Valuation, ∃! value, value < 2 ^ s.size ∧ ∃ a, s.assignment? value = some a ∧
      ∀ v ∈ s.letters, a.get v = ρ v) ∧
    (∀ value, 2 ^ s.size ≤ value → s.assignment? value = none) ∧
    (1 ≤ s.size →
      (∃ sweep, s.sweep = .ok sweep ∧ ∀ n, sweep.draw n = (List.range n).map s.assignment?) ∧
      (∀ value < 2 ^ s.size, s.assignment? value = some ⟨s, value⟩) ∧
      ∀ v ∈ s.letters, (Assignment.mk s 0).get v = false ∧
        (Assignment.mk s (2 ^ s.size - 1)).get v = true) ∧
    (s.size = 0 →
      s.sweep = .error .noVariables ∧
      (∀ (α : Type) (plan : Partition) (f : Assignment → α),
        s.mapAssignments plan f = .error .noVariables) ∧
      s.assignment? 0 = some ⟨s, 0⟩) := by
  have hsome : ∀ value < 2 ^ s.size, s.assignment? value = some ⟨s, value⟩ :=
    fun value hv ↦ assignment?_eq_some_iff.2 ⟨hv, rfl⟩
  refine ⟨s.existsUnique_assignment, fun value ↦ assignment?_eq_none, ?_, ?_⟩
  · intro hk
    have he : ¬s.isEmpty = true := by
      rw [isEmpty_eq_true_iff]
      omega
    refine ⟨⟨⟨s, 0⟩, if_neg he, ?_⟩, hsome, fun v hv ↦ ⟨get_zero hv, get_last hv⟩⟩
    intro n
    rw [Sweep.draw_eq]
    simp only [Nat.zero_add]
  · intro hk
    have he : s.isEmpty = true := isEmpty_eq_true_iff.2 hk
    exact ⟨if_pos he, fun α plan f ↦ if_pos he, hsome 0 (Nat.two_pow_pos s.size)⟩

end Sentential
