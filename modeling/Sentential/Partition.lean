import Sentential.Sweep

namespace Sentential

/-- A way to divide a range of numbers into consecutive pieces. -/
inductive Partition
  | whole
  /-- The first `n` numbers, or all if there are fewer, and the others. -/
  | cut (n : Nat) (before after : Partition)
  deriving DecidableEq, Repr

namespace Partition

variable {α : Type}

/-- The values of `f` on `length` numbers from `start` on, found piece by piece and joined in the
order of the range. -/
def map (f : Nat → α) : Partition → Nat → Nat → List α
  | whole, start, length => (List.range' start length).map f
  | cut n before after, start, length =>
    let m := min n length
    before.map f start m ++ after.map f (start + m) (length - m)

theorem map_eq (f : Nat → α) (p : Partition) (start length : Nat) :
    p.map f start length = (List.range' start length).map f := by
  induction p generalizing start length with
  | whole => rfl
  | cut n before after ihb iha =>
    rw [map, ihb, iha, ← List.map_append, List.range'_append_1,
      Nat.add_sub_of_le (Nat.min_le_right n length)]

end Partition

/-- The values of `f` on all assignments in the order of their numbers. The pieces of the partition
can be worked on at the same time. -/
def Signature.mapAssignments {α : Type} (s : Signature) (plan : Partition) (f : Assignment → α) :
    Except EnumerationError (List α) :=
  if s.isEmpty then .error .noVariables
  else .ok (plan.map (fun value ↦ f ⟨s, value⟩) 0 s.assignmentCount)

end Sentential
