import Sentential.Proofs.Places
import Sentential.Proofs.UniqueReadability

namespace Sentential

namespace Variable

theorem union_congr {vs ws : List Variable} (h : ∀ v, v ∈ vs ↔ v ∈ ws) : union vs = union ws := by
  apply Nat.eq_of_testBit_eq
  intro i
  rw [Bool.eq_iff_iff, testBit_union, testBit_union]
  apply exists_congr
  intro v
  rw [h]

theorem mem_filterMap_ofChar? {text : List Char} {v : Variable} :
    v ∈ text.filterMap ofChar? ↔ v.name ∈ text := by
  rw [List.mem_filterMap]
  constructor
  · intro h
    obtain ⟨c, hc, hv⟩ := h
    rwa [name_of_ofChar? hv]
  · intro h
    exact ⟨v.name, h, v.ofChar?_name⟩

theorem toNat_name (v : Variable) :
    v.name.toNat = v.index.val + if v.index.val < 26 then 65 else 71 := by
  obtain ⟨i⟩ := v
  revert i
  decide

theorem name_lt_name {v w : Variable} (h : v < w) : v.name < w.name := by
  have hv := v.toNat_name
  have hw := w.toNat_name
  rw [lt_iff] at h
  rw [Char.lt_def, UInt32.lt_iff_toNat_lt]
  change v.name.toNat < w.name.toNat
  split at hv <;> split at hw <;> omega

end Variable

theorem Statement.occurrences_lt (s : Statement) : s.occurrences < 2 ^ 52 := by
  induction s with
  | falsum => exact Nat.two_pow_pos 52
  | verum => exact Nat.two_pow_pos 52
  | var v =>
    rw [occurrences, Variable.bit, Nat.one_shiftLeft]
    exact Nat.pow_lt_pow_right Nat.one_lt_two v.index.isLt
  | not s ih => exact ih
  | binary op l r ihl ihr => exact Nat.or_lt_two_pow ihl ihr

theorem Signature.mem_names {s : Signature} {c : Char} :
    c ∈ s.names ↔ ∃ v ∈ s.letters, v.name = c := List.mem_map

theorem Signature.pairwise_names (s : Signature) : s.names.Pairwise (· < ·) :=
  List.pairwise_map.2 (s.ascending.imp Variable.name_lt_name)

/-- The variables met in a text, those of the statement read from it and the letters that stand in
it are the same, and the names are these letters in the order of the alphabet, each once. -/
theorem Parsed.occurrences_ofText {text : String} {p : Parsed} (h : ofText text = .ok p) :
    p.signature.occurrences = p.statement.occurrences ∧
    p.statement.occurrences = Variable.union (text.toList.filterMap Variable.ofChar?) ∧
    (∀ v : Variable, p.statement.occurrences.testBit v.index = true ↔ v.name ∈ text.toList) ∧
    (∀ v, v ∈ p.signature.letters ↔ v.name ∈ text.toList) ∧
    (∀ c, c ∈ p.signature.names ↔ c.isAlpha = true ∧ c ∈ text.toList) ∧
    p.signature.names.Pairwise (· < ·) := by
  have hl : ∀ v, v ∈ p.signature.letters ↔ v.name ∈ text.toList := by
    intro v
    rw [letters_eq_of_ofText h, Text.mem_letters]
  have ho : p.signature.occurrences = p.statement.occurrences := by
    rw [signature_eq_of_ofText h, Signature.occurrences_ofBits,
      Nat.mod_eq_of_lt p.statement.occurrences_lt]
  have hu : p.signature.occurrences = Variable.union (text.toList.filterMap Variable.ofChar?) := by
    apply Variable.union_congr
    intro v
    rw [hl, Variable.mem_filterMap_ofChar?]
  refine ⟨ho, ho ▸ hu, ?_, hl, ?_, p.signature.pairwise_names⟩
  · intro v
    rw [← ho, Signature.testBit_occurrences, hl]
  · intro c
    rw [Signature.mem_names, Variable.isAlpha_iff]
    constructor
    · rintro ⟨v, hv, rfl⟩
      exact ⟨⟨v, rfl⟩, (hl v).1 hv⟩
    · rintro ⟨⟨v, rfl⟩, hv⟩
      exact ⟨v, (hl v).2 hv, rfl⟩

theorem Parsed.occurrences_ofText_of_repeated_letters :
    ∃ p, ofText "(b & a) | !!(B > b)" = .ok p ∧ p.signature.names = ['B', 'a', 'b'] ∧
      p.signature.occurrences = p.statement.occurrences ∧
      p.statement.occurrences = Variable.union [⟨27⟩, ⟨26⟩, ⟨1⟩, ⟨27⟩] := by
  let s : Statement := .binary .or (.binary .and (.var ⟨27⟩) (.var ⟨26⟩))
    (.binary .implies (.var ⟨1⟩) (.var ⟨27⟩))
  have h : ofText "(b & a) | !!(B > b)" = .ok ⟨s, .ofBits (2 + 2 ^ 26 + 2 ^ 27)⟩ := rfl
  obtain ⟨ho, hu, -⟩ := occurrences_ofText h
  exact ⟨_, h, rfl, ho, hu⟩

end Sentential
