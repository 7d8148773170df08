import Sentential.Assignment

namespace Sentential

/-- A sweep over the assignments of a signature, counting up from number zero. -/
structure Sweep where
  signature : Signature
  /-- The number of the assignment that comes next. -/
  position : Nat
  deriving DecidableEq, Repr

/-- A new sweep. Without a variable there is nothing to count. -/
def Signature.sweep (s : Signature) : Except EnumerationError Sweep :=
  if s.isEmpty then .error .noVariables else .ok ⟨s, 0⟩

namespace Sweep

/-- The number behind the last assignment. -/
def stop (s : Sweep) : Nat := s.signature.assignmentCount

def next (s : Sweep) : Option Assignment × Sweep :=
  if s.position < s.stop then
    (some ⟨s.signature, s.position⟩, { s with position := s.position + 1 })
  else (none, s)

/-- Skips `n` assignments and draws the one behind them. A sweep with too few left is used up. -/
def nth (n : Nat) (s : Sweep) : Option Assignment × Sweep :=
  if s.position + n < s.stop then
    (some ⟨s.signature, s.position + n⟩, { s with position := s.position + n + 1 })
  else (none, { s with position := s.stop })

def take : Nat → Sweep → List Assignment × Sweep
  | 0, s => ([], s)
  | n + 1, s =>
    match s.next with
    | (none, s') => ([], s')
    | (some a, s') =>
      let (as, s'') := take n s'
      (a :: as, s'')

def reset (s : Sweep) : Sweep := { s with position := 0 }

/-- Bounds on the number of assignments still to come. -/
def sizeHint (s : Sweep) : Nat × Option Nat :=
  let remaining := s.stop - s.position
  (remaining, some remaining)

variable {s : Sweep}

theorem next_of_lt (h : s.position < s.stop) :
    s.next = (some ⟨s.signature, s.position⟩, ⟨s.signature, s.position + 1⟩) := if_pos h

theorem next_of_le (h : s.stop ≤ s.position) : s.next = (none, s) := if_neg (Nat.not_lt.2 h)

theorem nth_of_lt {n : Nat} (h : s.position + n < s.stop) :
    s.nth n = (some ⟨s.signature, s.position + n⟩, ⟨s.signature, s.position + n + 1⟩) := if_pos h

theorem nth_of_le {n : Nat} (h : s.stop ≤ s.position + n) :
    s.nth n = (none, ⟨s.signature, s.stop⟩) := if_neg (Nat.not_lt.2 h)

end Sweep

end Sentential
