import Mathlib.Data.Nat.Init
import Sentential.Proofs.LiteralReading
import Sentential.TruthTable

namespace Sentential

theorem Variable.isAlpha_iff {c : Char} : c.isAlpha = true ↔ ∃ v : Variable, v.name = c := by
  constructor
  · intro h
    suffices hs : (ofChar? c).isSome = true by
      obtain ⟨v, hv⟩ := Option.isSome_iff_exists.1 hs
      exact ⟨v, name_of_ofChar? hv⟩
    have hi {i : Nat} (hi : i < 52) : (ofIndex? i).isSome = true := by
      rw [ofIndex?, dif_pos hi]
      rfl
    rw [ofChar?]
    by_cases hu : c.isUpper = true
    · have hr : c.toNat ≤ 90 := (of_decide_eq_true hu).2
      rw [if_pos hu]
      exact hi (by simp only [Char.reduceToNat]; omega)
    · have hl : c.isLower = true := (Bool.or_eq_true_iff.1 h).resolve_left hu
      have hr : c.toNat ≤ 122 := of_decide_eq_true (Bool.and_eq_true_iff.1 hl).2
      rw [if_neg hu, if_pos hl]
      exact hi (by simp only [Char.reduceToNat]; omega)
  · rintro ⟨⟨i⟩, rfl⟩
    revert i
    decide

theorem Text.letters_eq_nil_iff {text : List Char} :
    letters text = [] ↔ ∀ c ∈ text, c.isAlpha = false := by
  rw [List.eq_nil_iff_forall_not_mem]
  constructor
  · intro h c hc
    refine Bool.eq_false_iff.2 fun ha ↦ ?_
    obtain ⟨v, rfl⟩ := Variable.isAlpha_iff.1 ha
    exact h v (mem_letters.2 hc)
  · intro h v hv
    have ha : v.name.isAlpha = true := Variable.isAlpha_iff.2 ⟨v, rfl⟩
    rw [h v.name (mem_letters.1 hv)] at ha
    cases ha

/-- Some numbered assignment gives the variables any truth values that are asked for. -/
theorem Signature.exists_assignment (s : Signature) (ρ : Valuation) :
    ∃ value < s.assignmentCount, ∀ v ∈ s.letters, (Assignment.mk s value).get v = ρ v := by
  let f : Fin s.letters.length → Bool := fun i ↦ ρ s.letters[i]
  refine ⟨Nat.ofBits f, ?_, fun v hv ↦ Assignment.get_eq (fun i hi ↦ ?_) hv⟩
  · rw [s.assignmentCount_eq]
    exact Nat.ofBits_lt_two_pow f
  · exact (Nat.testBit_ofBits_lt f i hi).symm

namespace TruthTable

theorem value_tabulate (plan : Partition) {p : Parsed} (h : p.signature.letters ≠ []) :
    (tabulate plan p).value = .ok ⟨p.signature.names, p.statement.render,
      (List.range p.signature.assignmentCount).map fun value ↦
        p.statement.evaluate ⟨p.signature, value⟩⟩ := by
  have he : p.signature.isEmpty = false := List.isEmpty_eq_false_iff.2 h
  rw [tabulate, Signature.mapAssignments, he, plan.map_eq, List.range_eq_range']
  rfl

theorem value_tabulate_of_eq_nil (plan : Partition) {p : Parsed} (h : p.signature.letters = []) :
    (tabulate plan p).value = .error .noVariables := by
  have he : p.signature.isEmpty = true := List.isEmpty_iff.2 h
  rw [tabulate, Signature.mapAssignments, he]
  rfl

/-- The outputs of a statement are the truth values it can take at all. -/
theorem mem_outputs_iff {p : Parsed} {b : Bool}
    (h : ∀ v, p.statement.occurrences.testBit v.index = true → v ∈ p.signature.letters) :
    b ∈ ((List.range p.signature.assignmentCount).map fun value ↦
      p.statement.evaluate ⟨p.signature, value⟩) ↔ ∃ ρ, p.statement.eval ρ = b := by
  rw [List.mem_map]
  constructor
  · rintro ⟨value, -, hb⟩
    exact ⟨_, hb⟩
  · rintro ⟨ρ, hb⟩
    obtain ⟨value, hv, hρ⟩ := p.signature.exists_assignment ρ
    refine ⟨value, List.mem_range.2 hv, ?_⟩
    rw [← hb]
    exact Statement.eval_congr fun v hv ↦ hρ v (h v hv)

theorem all_outputs_iff (b : Bool) (outputs : List Bool) :
    outputs.all (· = b) = true ↔ (!b) ∉ outputs := by
  simp only [List.all_eq_true, decide_eq_true_eq]
  constructor
  · intro h hb
    exact Bool.eq_not.1 rfl (h (!b) hb)
  · intro h c hc
    refine Classical.byContradiction fun hb ↦ h ?_
    rwa [← Bool.eq_not.2 hb]

variable (t : TruthTable)

theorem classify_eq : t.classify =
    if false ∈ t.outputs then if true ∈ t.outputs then .contingent else .contradiction
    else .tautology := by
  have ht := all_outputs_iff true t.outputs
  have hf := all_outputs_iff false t.outputs
  rw [classify]
  by_cases h : false ∈ t.outputs
  · rw [if_neg fun ha ↦ ht.1 ha h, if_pos h]
    by_cases h' : true ∈ t.outputs
    · rw [if_neg fun ha ↦ hf.1 ha h', if_pos h']
    · rw [if_pos (hf.2 h'), if_neg h']
  · rw [if_pos (ht.2 h), if_neg h]

theorem classify_eq_tautology_iff : t.classify = .tautology ↔ false ∉ t.outputs := by
  rw [classify_eq]
  by_cases h : false ∈ t.outputs <;> by_cases h' : true ∈ t.outputs <;> simp [h, h']

theorem classify_eq_contradiction_iff :
    t.classify = .contradiction ↔ false ∈ t.outputs ∧ true ∉ t.outputs := by
  rw [classify_eq]
  by_cases h : false ∈ t.outputs <;> by_cases h' : true ∈ t.outputs <;> simp [h, h']

theorem classify_eq_contingent_iff :
    t.classify = .contingent ↔ true ∈ t.outputs ∧ false ∈ t.outputs := by
  rw [classify_eq]
  by_cases h : false ∈ t.outputs <;> by_cases h' : true ∈ t.outputs <;> simp [h, h']

open Grammar

theorem exists_table {s : Sentence} (h : (Signature.ofBits s.reading.occurrences).letters ≠ []) :
    ∃ t, (∀ plan, (tabulate plan
        ⟨s.reading.cancel, Signature.ofBits s.reading.occurrences⟩).value = .ok t) ∧
      (true ∈ t.outputs ↔ ∃ ρ, s.Holds ρ) ∧ (false ∈ t.outputs ↔ ∃ ρ, ¬s.Holds ρ) := by
  have ho (b : Bool) := mem_outputs_iff (b := b)
    (p := ⟨s.reading.cancel, Signature.ofBits s.reading.occurrences⟩) fun v hv ↦
      Variable.mem_occurring.2 (Statement.occurrences_cancel s.reading ▸ hv)
  refine ⟨_, fun plan ↦ value_tabulate plan h, (ho true).trans ?_, (ho false).trans ?_⟩
  · simp only [Statement.eval_cancel, s.eval_reading]
  · simp only [Statement.eval_cancel, ← Bool.not_eq_true, s.eval_reading]

/-- However the assignments are shared out, the outputs of a table speak for all valuations of the
52 variables and for the text as it is written. Without a letter there is no table. -/
theorem classify_ofText {text : String} {p : Parsed} (h : Parsed.ofText text = .ok p) :
    ∃ s : Sentence, (∀ u : Sentence, u.Spells text ↔ u = s) ∧
      ((∃ c ∈ text.toList, c.isAlpha = true) →
        ∃ t, (∀ plan, (tabulate plan p).value = .ok t) ∧
          (t.classify = .tautology ↔ ∀ ρ, s.Holds ρ) ∧
          (t.classify = .contradiction ↔ ∀ ρ, ¬s.Holds ρ) ∧
          (t.classify = .contingent ↔ (∃ ρ, s.Holds ρ) ∧ ∃ ρ, ¬s.Holds ρ)) ∧
      ((∀ c ∈ text.toList, c.isAlpha = false) →
        ∀ plan, (tabulate plan p).value = .error .noVariables) := by
  obtain ⟨s, hs, -, rfl⟩ := Parsed.ofText_eq_ok_iff.1 h
  have hl : (Signature.ofBits s.reading.occurrences).letters = Text.letters text.toList :=
    hs.occurring_eq
  refine ⟨s, hs.iff_eq, ?_, fun ha plan ↦ value_tabulate_of_eq_nil plan ?_⟩
  · rintro ⟨c, hc, ha⟩
    have hn : (Signature.ofBits s.reading.occurrences).letters ≠ [] := by
      intro hn
      rw [Text.letters_eq_nil_iff.1 (hl ▸ hn) c hc] at ha
      cases ha
    obtain ⟨t, ht, htrue, hfalse⟩ := exists_table hn
    refine ⟨t, ht, ?_, ?_, ?_⟩
    · rw [classify_eq_tautology_iff, hfalse, not_exists]
      exact forall_congr' fun ρ ↦ not_not
    · rw [classify_eq_contradiction_iff, hfalse, htrue, not_exists]
      exact ⟨fun hc ↦ hc.2, fun hc ↦ ⟨⟨fun _ ↦ false, hc _⟩, hc⟩⟩
    · rw [classify_eq_contingent_iff, hfalse, htrue]
  · rw [hl, Text.letters_eq_nil_iff]
    exact ha

theorem classify_ofText_of_excluded_middle :
    Parsed.ofText "a | !a" =
      .ok ⟨.binary .or (.var ⟨26⟩) (.not (.var ⟨26⟩)), Signature.ofBits (2 ^ 26)⟩ ∧
    ∃ s : Sentence, s.Spells "a | !a" ∧ ∀ ρ, s.Holds ρ := by
  have h : Parsed.ofText "a | !a" =
      .ok ⟨.binary .or (.var ⟨26⟩) (.not (.var ⟨26⟩)), Signature.ofBits (2 ^ 26)⟩ := rfl
  obtain ⟨s, hs, hc, -⟩ := classify_ofText h
  obtain ⟨t, ht, htautology, -⟩ := hc ⟨'a', by decide, rfl⟩
  refine ⟨h, s, (hs s).2 rfl, htautology.1 ?_⟩
  cases ht .whole
  rfl

end TruthTable

end Sentential
