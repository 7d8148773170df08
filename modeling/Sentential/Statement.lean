import Sentential.Connective
import Sentential.Variable

namespace Sentential

/-- A truth value for each of the 52 variables. -/
abbrev Valuation := Variable → Bool

inductive Statement
  | falsum
  | verum
  | var (v : Variable)
  | not (s : Statement)
  | binary (op : Connective) (l r : Statement)
  deriving DecidableEq, Repr

namespace Statement

def eval (ρ : Valuation) : Statement → Bool
  | falsum => false
  | verum => true
  | var v => ρ v
  | not s => !s.eval ρ
  | binary op l r => op.apply (l.eval ρ) (r.eval ρ)

def occurrences : Statement → Nat
  | falsum | verum => 0
  | var v => v.bit
  | not s => s.occurrences
  | binary _ l r => l.occurrences ||| r.occurrences

def size : Statement → Nat
  | falsum | verum | var _ => 1
  | not s => 1 + s.size
  | binary _ l r => 1 + l.size + r.size

def isBinary : Statement → Bool
  | binary _ _ _ => true
  | _ => false

/-- The opposite of a statement, with one negation less where it has one to lose. -/
def negate : Statement → Statement
  | not s => s
  | s => not s

/-- The same statement with every directly nested pair of negations cancelled. -/
def cancel : Statement → Statement
  | falsum => falsum
  | verum => verum
  | var v => var v
  | not s => s.cancel.negate
  | binary op l r => binary op l.cancel r.cancel

def isNegation : Statement → Bool
  | not _ => true
  | _ => false

/-- No negation stands directly under a negation. -/
def IsNormal : Statement → Prop
  | falsum | verum | var _ => True
  | not s => s.isNegation = false ∧ s.IsNormal
  | binary _ l r => l.IsNormal ∧ r.IsNormal

instance decidableIsNormal : (s : Statement) → Decidable s.IsNormal
  | falsum | verum | var _ => isTrue trivial
  | not s => @instDecidableAnd _ _ _ (decidableIsNormal s)
  | binary _ l r => @instDecidableAnd _ _ (decidableIsNormal l) (decidableIsNormal r)

/-- The number of nodes on the longest path from the root to a leaf. -/
def height : Statement → Nat
  | falsum | verum | var _ => 1
  | not s => 1 + s.height
  | binary _ l r => 1 + max l.height r.height

theorem size_pos (s : Statement) : 0 < s.size := by
  cases s <;> simp only [size] <;> omega

@[simp] theorem eval_negate (ρ : Valuation) (s : Statement) : s.negate.eval ρ = !s.eval ρ := by
  cases s <;> simp [negate, eval]

@[simp] theorem occurrences_negate (s : Statement) : s.negate.occurrences = s.occurrences := by
  cases s <;> rfl

@[simp] theorem eval_cancel (ρ : Valuation) (s : Statement) : s.cancel.eval ρ = s.eval ρ := by
  induction s <;> simp_all [cancel, eval]

theorem isNormal_negate : {s : Statement} → s.IsNormal → s.negate.IsNormal
  | falsum, _ | verum, _ | var _, _ => ⟨rfl, trivial⟩
  | not _, h => h.2
  | binary _ _ _, h => ⟨rfl, h⟩

theorem isNormal_cancel (s : Statement) : s.cancel.IsNormal := by
  induction s with
  | not s ih => exact isNormal_negate ih
  | binary op l r ihl ihr => exact ⟨ihl, ihr⟩
  | _ => trivial

@[simp] theorem occurrences_cancel (s : Statement) : s.cancel.occurrences = s.occurrences := by
  induction s <;> simp_all [cancel, occurrences]

/-- Only the variables that occur in a statement matter to it. -/
theorem eval_congr {ρ σ : Valuation} {s : Statement}
    (h : ∀ v, s.occurrences.testBit v.index = true → ρ v = σ v) : s.eval ρ = s.eval σ := by
  induction s with
  | falsum => rfl
  | verum => rfl
  | var v => exact h v (by simp [occurrences])
  | not s ih => simp only [eval, ih h]
  | binary op l r ihl ihr =>
    simp only [occurrences, Nat.testBit_or, Bool.or_eq_true] at h
    simp only [eval, ihl fun v hv ↦ h v (.inl hv), ihr fun v hv ↦ h v (.inr hv)]

end Statement

end Sentential
