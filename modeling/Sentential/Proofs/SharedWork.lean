import Mathlib.Logic.Relation
import Sentential.Proofs.Enumeration

namespace Sentential

open Relation

/-- Work on a range of numbers that is shared out: a range that nobody has worked on yet, the values
found on a range, or two neighbouring parts. -/
inductive Work (α : Type)
  | waiting (start length : Nat)
  | finished (values : List α)
  | parts (before after : Work α)
  deriving DecidableEq, Repr

namespace Work

variable {α : Type} {f : Nat → α} {w w' : Work α}

/-- What can be done next, in any part: a range is divided, the values of `f` on a range are found,
or the values of two neighbours are joined. -/
inductive Step (f : Nat → α) : Work α → Work α → Prop
  | divide (start m n : Nat) :
      Step f (waiting start (m + n)) (parts (waiting start m) (waiting (start + m) n))
  | fill (start length : Nat) :
      Step f (waiting start length) (finished ((List.range' start length).map f))
  | join (xs ys : List α) : Step f (parts (finished xs) (finished ys)) (finished (xs ++ ys))
  | before {w w' : Work α} (v : Work α) : Step f w w' → Step f (parts w v) (parts w' v)
  | after (w : Work α) {v v' : Work α} : Step f v v' → Step f (parts w v) (parts w v')

/-- The values that are found or still to be found, in the order of the range. -/
def values (f : Nat → α) : Work α → List α
  | waiting start length => (List.range' start length).map f
  | finished xs => xs
  | parts before after => before.values f ++ after.values f

theorem Step.values_eq (h : Step f w w') : w'.values f = w.values f := by
  induction h with
  | divide start m n =>
    have hr : List.range' start (m + n) = List.range' start m ++ List.range' (start + m) n :=
      (List.range'_append_1 ..).symm
    rw [values, values, values, values, hr, List.map_append]
  | fill start length => rfl
  | join xs ys => rfl
  | before v _ ih => rw [values, values, ih]
  | after w _ ih => rw [values, values, ih]

theorem values_eq_of_run (h : ReflTransGen (Step f) w w') : w'.values f = w.values f := by
  induction h with
  | refl => rfl
  | tail _ hs ih => rw [hs.values_eq, ih]

/-- Work can always be finished. -/
theorem run_finished (f : Nat → α) (w : Work α) :
    ReflTransGen (Step f) w (finished (w.values f)) := by
  induction w with
  | waiting start length => exact .single (.fill start length)
  | finished xs => exact .refl
  | parts before after ihb iha =>
    have hb := ihb.lift (parts · after) fun _ _ h ↦ Step.before after h
    have ha := iha.lift (parts (finished (before.values f))) fun _ _ h ↦ Step.after _ h
    exact (hb.trans ha).tail (.join _ _)

end Work

/-- What can become of work on the assignments of a statement. An assignment is made from its number
without a check. -/
def Parsed.Works (p : Parsed) : Work Bool → Work Bool → Prop :=
  ReflTransGen (Work.Step fun value ↦ p.statement.evaluate ⟨p.signature, value⟩)

namespace Sweep

/-- The assignments that a sweep gives, one after the other, until it is used up. -/
inductive Yields : Sweep → List Assignment → Prop
  | stop {s s' : Sweep} (h : s.next = (none, s')) : Yields s []
  | draw {s s' : Sweep} {a : Assignment} {as : List Assignment} (h : s.next = (some a, s'))
      (hs : Yields s' as) : Yields s (a :: as)

theorem yields_range' {n : Nat} {s : Sweep} (h : s.position + n = s.stop) :
    s.Yields ((List.range' s.position n).map (Assignment.mk s.signature)) := by
  induction n generalizing s with
  | zero => exact .stop (next_of_le (by omega))
  | succ n ih =>
    have hn : s.position + 1 + n = s.stop := by omega
    exact .draw (next_of_lt (by omega)) (ih (s := ⟨s.signature, s.position + 1⟩) hn)

end Sweep

theorem Signature.letters_ne_nil_iff {s : Signature} : s.letters ≠ [] ↔ 1 ≤ s.size :=
  List.length_pos_iff.symm

namespace TruthTable

/-- However the assignments are shared out, in whatever order the parts are worked on, the outputs
are those that a sweep meets one after the other, each in the place of its number. -/
theorem outputs_of_shared_work {p : Parsed} (h : 1 ≤ p.signature.size) :
    ∃ t : TruthTable, (∀ plan, (tabulate plan p).value = .ok t) ∧
      t.outputs.length = 2 ^ p.signature.size ∧
      (∃ sweep as, p.signature.sweep = .ok sweep ∧ sweep.Yields as ∧
        t.outputs = as.map p.statement.evaluate) ∧
      (∀ value, t.outputs[value]? = p.evaluate value) ∧
      ∀ w, p.Works (.waiting 0 (2 ^ p.signature.size)) w →
        p.Works w (.finished t.outputs) ∧
          ∀ outputs, w = .finished outputs → outputs = t.outputs := by
  have hl := Signature.letters_ne_nil_iff.2 h
  have hc : p.signature.assignmentCount = 2 ^ p.signature.size := p.signature.assignmentCount_eq
  refine ⟨_, fun plan ↦ value_tabulate plan hl, ?_, ?_, ?_, ?_⟩
  · rw [List.length_map, List.length_range, hc]
  · have he : ¬p.signature.isEmpty = true := by
      rw [Signature.isEmpty_eq_true_iff]
      omega
    have hy : (Sweep.mk p.signature 0).Yields _ := Sweep.yields_range' (Nat.zero_add _)
    refine ⟨_, _, if_neg he, hy, ?_⟩
    rw [List.map_map, List.range_eq_range']
    rfl
  · intro value
    rw [List.getElem?_map, Parsed.evaluate, Signature.assignment?]
    by_cases hv : value < p.signature.assignmentCount
    · rw [List.getElem?_range hv, if_pos hv]
      rfl
    · rw [List.getElem?_eq_none (by simpa using hv), if_neg hv]
      rfl
  · -- What is found in the end was settled at the start, since no step changes the values.
    intro w hw
    have hv := Work.values_eq_of_run hw
    rw [Work.values, ← hc, ← List.range_eq_range'] at hv
    rw [← hv]
    refine ⟨Work.run_finished _ w, ?_⟩
    rintro outputs rfl
    rfl

theorem outputs_of_shared_work_of_implication :
    ∃ p, Parsed.ofText "a > b" = .ok p ∧ 1 ≤ p.signature.size ∧
      ∀ outputs, p.Works (.waiting 0 4) (.finished outputs) →
        outputs = [true, false, true, true] := by
  refine ⟨⟨.binary .implies (.var ⟨26⟩) (.var ⟨27⟩), .ofBits (2 ^ 26 + 2 ^ 27)⟩, rfl, by decide, ?_⟩
  intro outputs hw
  obtain ⟨t, ht, -, -, -, hr⟩ := outputs_of_shared_work
    (p := ⟨.binary .implies (.var ⟨26⟩) (.var ⟨27⟩), .ofBits (2 ^ 26 + 2 ^ 27)⟩) (by decide)
  cases ht .whole
  exact (hr _ hw).2 outputs rfl

end TruthTable

end Sentential
