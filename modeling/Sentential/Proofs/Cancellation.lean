import Mathlib.Logic.Relation
import Sentential.Statement

namespace Sentential.Statement

open Relation

/-- Somewhere in the statement, two negations in a row are dropped. -/
inductive Contracts : Statement → Statement → Prop
  | drop (s : Statement) : Contracts (not (not s)) s
  | not {s t : Statement} : Contracts s t → Contracts (not s) (not t)
  | left {op : Connective} {l l' r : Statement} :
      Contracts l l' → Contracts (binary op l r) (binary op l' r)
  | right {op : Connective} {l r r' : Statement} :
      Contracts r r' → Contracts (binary op l r) (binary op l r')

theorem negate_of_isNegation {s : Statement} (h : s.isNegation = false) : s.negate = not s := by
  cases s with
  | not s => cases h
  | _ => rfl

theorem negate_negate {s : Statement} (h : s.IsNormal) : s.negate.negate = s := by
  cases s with
  | not s => exact negate_of_isNegation h.1
  | _ => rfl

theorem cancel_not_not (s : Statement) : (not (not s)).cancel = s.cancel :=
  negate_negate s.isNormal_cancel

theorem cancel_of_isNormal {s : Statement} (h : s.IsNormal) : s.cancel = s := by
  induction s with
  | not s ih => rw [cancel, ih h.2, negate_of_isNegation h.1]
  | binary op l r ihl ihr => rw [cancel, ihl h.1, ihr h.2]
  | _ => rfl

theorem cancel_cancel (s : Statement) : s.cancel.cancel = s.cancel :=
  cancel_of_isNormal s.isNormal_cancel

theorem Contracts.cancel_eq {s t : Statement} (h : Contracts s t) : s.cancel = t.cancel := by
  induction h with
  | drop s => exact cancel_not_not s
  | not _ ih => rw [cancel, cancel, ih]
  | left _ ih => rw [cancel, cancel, ih]
  | right _ ih => rw [cancel, cancel, ih]

theorem cancel_eq_of_contracts {s t : Statement} (h : ReflTransGen Contracts s t) :
    s.cancel = t.cancel := by
  induction h with
  | refl => rfl
  | tail _ hc ih => exact ih.trans hc.cancel_eq

theorem contracts_negate (s : Statement) : ReflTransGen Contracts (not s) s.negate := by
  cases s with
  | not s => exact .single (.drop s)
  | _ => exact .refl

theorem contracts_cancel (s : Statement) : ReflTransGen Contracts s s.cancel := by
  induction s with
  | not s ih => exact (ih.lift not fun _ _ ↦ .not).trans (contracts_negate s.cancel)
  | binary op l r ihl ihr =>
    exact (ihl.lift (binary op · r) fun _ _ ↦ .left).trans
      (ihr.lift (binary op l.cancel) fun _ _ ↦ .right)
  | _ => exact .refl

/-- In whatever order pairs of negations are dropped, as long as there are any, the same statement
is left in the end. -/
theorem cancel_eq_iff {s t : Statement} :
    s.cancel = t ↔ ReflTransGen Contracts s t ∧ t.IsNormal := by
  constructor
  · rintro rfl
    exact ⟨contracts_cancel s, isNormal_cancel s⟩
  · rintro ⟨h, ht⟩
    rw [cancel_eq_of_contracts h, cancel_of_isNormal ht]

end Sentential.Statement
