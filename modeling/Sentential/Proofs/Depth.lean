import Sentential.Proofs.CanonicalText
import Sentential.Proofs.Reach

namespace Sentential

open Text Grammar

namespace Statement

/-- Each group adds a connective and at most one negation to a path. -/
theorem height_le_depth_toTerm {s : Statement} (h : s.IsNormal) :
    s.height ≤ 2 * s.toTerm.depth + 2 ∧
      (s.isNegation = false → s.height ≤ 2 * s.toTerm.depth + 1) := by
  induction s with
  | falsum | verum | var v => exact ⟨Nat.le_succ 1, fun _ ↦ Nat.le_refl 1⟩
  | not s ih =>
    have hs := (ih h.2).2 h.1
    constructor
    · simp only [height, toTerm, Term.depth]
      omega
    · intro hn
      cases hn
  | binary op l r ihl ihr =>
    have hl := (ihl h.1).1
    have hr := (ihr h.2).1
    have hb : (binary op l r).height ≤ 2 * (binary op l r).toTerm.depth + 1 := by
      simp only [height, toTerm, Term.depth]
      omega
    exact ⟨Nat.le_succ_of_le hb, fun _ ↦ hb⟩

theorem height_le_nesting {s : Statement} (h : s.IsNormal) :
    s.height ≤ 2 * nesting 0 s.render.toList + 3 := by
  rw [s.nesting_render]
  cases s with
  | binary op l r =>
    have hl := (height_le_depth_toTerm h.1).1
    have hr := (height_le_depth_toTerm h.2).1
    simp only [height, toSentence, Sentence.depth]
    omega
  | _ => exact Nat.le_succ_of_le (height_le_depth_toTerm h).1

end Statement

/-- However long a text is, what is read from it is not nested more deeply than its groups, and no
more groups than that are read at a time. -/
theorem Parsed.ofText_depth (text : String) :
    (∀ p, ofText text = .ok p →
      p.statement.IsNormal ∧ nesting 0 p.statement.render.toList ≤ 256 ∧
        p.statement.height ≤ 515) ∧
    ∀ s n, Reaches text s n → n.groups.length ≤ 257 := by
  refine ⟨fun p hp ↦ ?_, fun s n h ↦ Nat.succ_le_succ h.length_outer_le⟩
  obtain ⟨t, -, hd, rfl⟩ := ofText_eq_ok_iff.1 hp
  have hn := t.reading.isNormal_cancel
  have hr : nesting 0 t.reading.cancel.render.toList ≤ 256 := by
    rw [Statement.nesting_render]
    exact Nat.le_trans t.depth_toSentence_cancel hd
  have hh : t.reading.cancel.height ≤ 515 := by
    have hs := Statement.height_le_nesting hn
    omega
  exact ⟨hn, hr, hh⟩

end Sentential
