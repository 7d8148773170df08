import Mathlib.Algebra.Group.Nat.Defs
import Sentential.Proofs.Letters

namespace Sentential

/-- What a connective says about two propositions. -/
def Connective.Relates : Connective → Prop → Prop → Prop
  | and, P, Q => P ∧ Q
  | or, P, Q => P ∨ Q
  | xor, P, Q => ¬(P ↔ Q)
  | implies, P, Q => P → Q
  | iff, P, Q => P ↔ Q

theorem Connective.apply_eq_true_iff (op : Connective) (p q : Bool) :
    op.apply p q = true ↔ op.Relates (p = true) (q = true) := by
  cases op <;> cases p <;> cases q <;> simp [apply, Relates]

namespace Grammar

/-- Whether a term holds as it is written, each negation counting for itself. -/
def Term.Holds (ρ : Valuation) : Term → Prop
  | falsum => False
  | verum => True
  | letter v => ρ v = true
  | negation t => ¬t.Holds ρ
  | group t => t.Holds ρ
  | pair l op r => op.Relates (l.Holds ρ) (r.Holds ρ)

def Sentence.Holds (ρ : Valuation) : Sentence → Prop
  | term t => t.Holds ρ
  | pair l op r => op.Relates (l.Holds ρ) (r.Holds ρ)

variable {ρ : Valuation}

theorem Term.eval_reading (t : Term) : t.reading.eval ρ = true ↔ t.Holds ρ := by
  induction t with
  | falsum => simp [reading, Statement.eval, Holds]
  | verum => simp [reading, Statement.eval, Holds]
  | letter v => rfl
  | negation t ih => rw [Holds, ← ih, reading, Statement.eval, Bool.not_eq_true', Bool.not_eq_true]
  | group t ih => exact ih
  | pair l op r ihl ihr => rw [Holds, ← ihl, ← ihr]; exact op.apply_eq_true_iff ..

theorem Sentence.eval_reading (t : Sentence) : t.reading.eval ρ = true ↔ t.Holds ρ := by
  cases t with
  | term t => exact t.eval_reading
  | pair l op r =>
    rw [Holds, ← l.eval_reading, ← r.eval_reading]
    exact op.apply_eq_true_iff ..

end Grammar

theorem Signature.nodup_letters (s : Signature) : s.letters.Nodup :=
  s.ascending.imp fun h he ↦ absurd (congrArg Variable.index he) (Fin.ne_of_lt h)

theorem Signature.place?_getElem {s : Signature} {i : Nat} (h : i < s.letters.length) :
    s.place? s.letters[i] = some i := by
  rw [place?, if_pos (List.getElem_mem h), s.nodup_letters.idxOf_getElem i h]

theorem Signature.assignmentCount_eq (s : Signature) : s.assignmentCount = 2 ^ s.letters.length :=
  Nat.one_shiftLeft _

theorem Assignment.get_of_place? {a : Assignment} {v : Variable} {i : Nat}
    (h : a.signature.place? v = some i) : a.get v = a.value.testBit i := by
  rw [get, h]

theorem Assignment.get_letter (a : Assignment) {i : Nat} (h : i < a.signature.letters.length) :
    a.get a.signature.letters[i] = a.value.testBit i :=
  get_of_place? (Signature.place?_getElem h)

theorem Assignment.get_eq {a : Assignment} {ρ : Valuation}
    (h : ∀ i, (hi : i < a.signature.letters.length) → ρ a.signature.letters[i] = a.value.testBit i)
    {v : Variable} (hv : v ∈ a.signature.letters) : a.get v = ρ v := by
  obtain ⟨i, hi, rfl⟩ := List.getElem_of_mem hv
  rw [a.get_letter hi, h i hi]

theorem Parsed.evaluate_eq_none_iff (p : Parsed) (value : Nat) :
    p.evaluate value = none ↔ 2 ^ p.signature.letters.length ≤ value := by
  rw [evaluate, Signature.assignment?, p.signature.assignmentCount_eq]
  by_cases h : value < 2 ^ p.signature.letters.length
  · rw [if_pos h]
    exact ⟨nofun, fun h' ↦ absurd h (Nat.not_lt.2 h')⟩
  · rw [if_neg h]
    exact ⟨fun _ ↦ Nat.le_of_not_lt h, fun _ ↦ rfl⟩

theorem Parsed.eval_of_evaluate {p : Parsed} {value : Nat} {b : Bool}
    (h : p.evaluate value = some b) :
    p.statement.eval (Assignment.mk p.signature value).get = b := by
  rw [evaluate, Signature.assignment?] at h
  split at h
  · exact Option.some.inj h
  · cases h

open Grammar

/-- A text is evaluated as it is written: the bits of the number of an assignment are the truth
values of its letters, from the first letter in the alphabet on. -/
theorem Parsed.evaluate_literally {text : String} {p : Parsed} (h : ofText text = .ok p) :
    ∃ t : Sentence, (∀ u : Sentence, u.Spells text ↔ u = t) ∧ ∀ value,
      (p.evaluate value = none ↔ 2 ^ (Text.letters text.toList).length ≤ value) ∧
      ∀ (ρ : Valuation) (b : Bool),
        (∀ i, (hi : i < (Text.letters text.toList).length) →
          ρ (Text.letters text.toList)[i] = value.testBit i) →
        p.evaluate value = some b → (b = true ↔ t.Holds ρ) := by
  obtain ⟨t, ht, -, rfl⟩ := ofText_eq_ok_iff.1 h
  have hl : (Signature.ofBits t.reading.occurrences).letters = Text.letters text.toList :=
    ht.occurring_eq
  refine ⟨t, ht.iff_eq, fun value ↦ ⟨?_, fun ρ b hρ hb ↦ ?_⟩⟩
  · rw [evaluate_eq_none_iff, hl]
  · rw [← hl] at hρ
    have he := eval_of_evaluate hb
    have hc : ∀ v : Variable, t.reading.cancel.occurrences.testBit v.index = true →
        (Assignment.mk (Signature.ofBits t.reading.occurrences) value).get v = ρ v := by
      intro v hv
      refine Assignment.get_eq hρ ?_
      rw [Statement.occurrences_cancel] at hv
      exact Variable.mem_occurring.2 hv
    rw [← he, Statement.eval_congr hc, Statement.eval_cancel]
    exact t.eval_reading

theorem Parsed.evaluate_literally_of_two_letters :
    ofText "!!!(b > (A))" =
      .ok ⟨.not (.binary .implies (.var ⟨27⟩) (.var ⟨0⟩)), Signature.ofBits (2 ^ 27 + 1)⟩ ∧
    ∃ t : Sentence, t.Spells "!!!(b > (A))" ∧ ∀ ρ : Valuation, ρ ⟨0⟩ = false → ρ ⟨27⟩ = true →
      t.Holds ρ := by
  have h : ofText "!!!(b > (A))" =
      .ok ⟨.not (.binary .implies (.var ⟨27⟩) (.var ⟨0⟩)), Signature.ofBits (2 ^ 27 + 1)⟩ := rfl
  obtain ⟨t, ht, hv⟩ := evaluate_literally h
  have hl : Text.letters "!!!(b > (A))".toList = [⟨0⟩, ⟨27⟩] := rfl
  refine ⟨h, t, (ht t).2 rfl, fun ρ hA hb ↦ ?_⟩
  refine ((hv 2).2 ρ true ?_ rfl).1 rfl
  rw [hl]
  rintro (_ | _ | i) hi
  · exact hA
  · exact hb
  · exact absurd hi (by simp)

end Sentential
