import Mathlib.Data.List.ProdSigma
import Sentential.Proofs.Classification
import Sentential.Proofs.Lines

namespace Sentential.Text

theorem toNat_digit (b : Bool) : (digit b).toNat - '0'.toNat = b.toNat := by
  cases b <;> rfl

theorem ofDigitChars_bits (value k init : Nat) :
    Nat.ofDigitChars 2 (((List.range k).reverse.map value.testBit).map digit) init =
      2 ^ k * init + value % 2 ^ k := by
  -- The highest of the digits is read first and then part of `init`.
  induction k generalizing init with
  | zero => rw [Nat.pow_zero, Nat.one_mul, Nat.mod_one]; rfl
  | succ k ih =>
    have hr : (List.range (k + 1)).reverse = k :: (List.range k).reverse := by
      rw [List.range_succ, List.reverse_concat]
    calc
      _ = 2 ^ k * (2 * init + (value.testBit k).toNat) + value % 2 ^ k := by
        rw [hr, List.map_cons, List.map_cons, Nat.ofDigitChars_cons, toNat_digit, ih]
      _ = 2 ^ (k + 1) * init + (value % 2 ^ k + 2 ^ k * (value / 2 ^ k % 2)) := by
        rw [Nat.toNat_testBit, Nat.mul_add, Nat.pow_succ, Nat.mul_assoc]
        omega
      _ = 2 ^ (k + 1) * init + value % 2 ^ (k + 1) := by rw [Nat.mod_pow_succ]

/-- The digits of a number from the highest on, as many of them as there are places. -/
structure IsBinary (places value : Nat) (digits : List Char) : Prop where
  length_eq : digits.length = places
  zero_or_one : ∀ c ∈ digits, c = '0' ∨ c = '1'
  value_eq : Nat.ofDigitChars 2 digits 0 = value

theorem isBinary_bits {value k : Nat} (h : value < 2 ^ k) :
    IsBinary k value (((List.range k).reverse.map value.testBit).map digit) where
  length_eq := by rw [List.length_map, List.length_map, List.length_reverse, List.length_range]
  zero_or_one := by
    intro c hc
    obtain ⟨b, -, rfl⟩ := List.mem_map.1 hc
    cases b
    · exact .inl rfl
    · exact .inr rfl
  value_eq := by rw [ofDigitChars_bits, Nat.mul_zero, Nat.zero_add, Nat.mod_eq_of_lt h]

end Sentential.Text

namespace Sentential.TruthTable

/-- What a table shows under a filter. -/
structure Excerpt where
  names : List Char
  statement : String
  rows : List (Nat × Bool)
  deriving DecidableEq, Repr

def excerpt (t : TruthTable) (filter : RowFilter) : Excerpt := ⟨t.names, t.statement, t.rows filter⟩

variable {plan : Partition} {p : Parsed} {t : TruthTable} {filter : RowFilter}

theorem of_tabulate_eq_ok (h : (tabulate plan p).value = .ok t) :
    p.signature.letters ≠ [] ∧
      t = ⟨p.signature.names, p.statement.render,
        (List.range p.signature.assignmentCount).map fun value ↦
          p.statement.evaluate ⟨p.signature, value⟩⟩ := by
  by_cases hn : p.signature.letters = []
  · rw [value_tabulate_of_eq_nil plan hn] at h
    cases h
  · rw [value_tabulate plan hn] at h
    exact ⟨hn, (Except.ok.inj h).symm⟩

theorem exists_name_of_mem_columns (ht : (tabulate plan p).value = .ok t) {c : Char}
    (hc : c ∈ t.columns) : ∃ v : Variable, v.name = c := by
  obtain ⟨-, rfl⟩ := of_tabulate_eq_ok ht
  obtain ⟨v, -, hv⟩ := List.mem_map.1 (List.mem_reverse.1 hc)
  exact ⟨v, hv⟩

theorem isOrdinary_statement (ht : (tabulate plan p).value = .ok t) :
    ∀ c ∈ t.statement.toList, Text.isOrdinary c = true := by
  obtain ⟨-, rfl⟩ := of_tabulate_eq_ok ht
  rw [Statement.render, String.toList_ofList]
  exact p.statement.isOrdinary_symbols

theorem mem_rows {value : Nat} {output : Bool} :
    (value, output) ∈ t.rows filter ↔
      t.outputs[value]? = some output ∧ filter.admits output = true := by
  rw [rows, List.mem_filter, List.mem_map_swap, List.mem_zipIdx_iff_getElem?]

theorem pairwise_rows (t : TruthTable) (filter : RowFilter) :
    (t.rows filter).Pairwise (·.1 < ·.1) := by
  have hn : (t.outputs.zipIdx.map Prod.snd).Pairwise (· < ·) := by
    rw [List.zipIdx_map_snd]
    exact List.pairwise_lt_range' 1
  refine List.Pairwise.filter _ (List.pairwise_map.2 ?_)
  exact List.pairwise_map.1 hn

theorem isBinary_inputs (ht : (tabulate plan p).value = .ok t) {row : Nat × Bool}
    (hr : row ∈ t.rows filter) :
    Text.IsBinary p.signature.size row.1 ((t.inputs row.1).map Text.digit) := by
  obtain ⟨-, rfl⟩ := of_tabulate_eq_ok ht
  obtain ⟨ho, -⟩ := mem_rows.1 hr
  have hv := (List.getElem?_eq_some_iff.1 ho).1
  rw [List.length_map, List.length_range, p.signature.assignmentCount_eq] at hv
  have hn : p.signature.names.length = p.signature.size := List.length_map _
  rw [inputs, hn]
  exact Text.isBinary_bits hv

end Sentential.TruthTable
