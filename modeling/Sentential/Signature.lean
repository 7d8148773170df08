import Sentential.Variable

namespace Sentential

/-- The variables of a statement in ascending order. The place of a variable in this order is the
bit that gives its value in a numbered assignment. -/
structure Signature where
  letters : List Variable
  ascending : letters.Pairwise (· < ·)
  deriving DecidableEq, Repr

namespace Signature

def ofBits (bits : Nat) : Signature where
  letters := Variable.occurring bits
  ascending := Variable.pairwise_occurring bits

def names (s : Signature) : List Char := s.letters.map Variable.name

def size (s : Signature) : Nat := s.letters.length

def isEmpty (s : Signature) : Bool := s.letters.isEmpty

def occurrences (s : Signature) : Nat := s.letters.foldr (fun v bits ↦ v.bit ||| bits) 0

def place? (s : Signature) (v : Variable) : Option Nat :=
  if v ∈ s.letters then some (s.letters.idxOf v) else none

def assignmentCount (s : Signature) : Nat := 1 <<< s.size

@[simp] theorem testBit_occurrences {s : Signature} {v : Variable} :
    s.occurrences.testBit v.index = true ↔ v ∈ s.letters :=
  Variable.testBit_union_index

theorem place?_lt {s : Signature} {v : Variable} {i : Nat} (h : s.place? v = some i) :
    i < s.size := by
  unfold place? at h
  split at h
  · cases h
    exact List.idxOf_lt_length_of_mem ‹_›
  · cases h

end Signature

end Sentential
