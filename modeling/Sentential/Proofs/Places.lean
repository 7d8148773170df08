import Mathlib.Data.List.FinRange
import Mathlib.Data.List.Induction
import Mathlib.Data.List.Sort
import Mathlib.Logic.ExistsUnique
import Sentential.Proofs.LiteralReading

namespace Sentential

namespace Variable

theorem lt_iff {v w : Variable} : v < w ↔ v.index.val < w.index.val := Iff.rfl

instance : Std.Irrefl (α := Variable) (· < ·) := ⟨fun v ↦ Nat.lt_irrefl v.index.val⟩

instance : Std.Antisymm (α := Variable) (· < ·) :=
  ⟨fun _ _ h h' ↦ absurd h (Nat.lt_asymm h')⟩

theorem union_concat (vs : List Variable) (v : Variable) :
    union (vs ++ [v]) = union vs ||| v.bit := by
  induction vs with
  | nil => exact Nat.or_comm _ _
  | cons w vs ih => exact (congrArg (w.bit ||| ·) ih).trans (Nat.or_assoc _ _ _).symm

theorem countP_occurring (bits : Nat) (p : Nat → Bool) :
    (occurring bits).countP (p ·.index) = (List.range 52).countP fun i ↦ p i && bits.testBit i := by
  rw [occurring, List.countP_filter, all, List.countP_map, ← List.map_coe_finRange_eq_range,
    List.countP_map]
  rfl

theorem countP_range_lt {n m : Nat} (h : n ≤ m) (p : Nat → Bool) :
    (List.range m).countP (fun i ↦ decide (i < n) && p i) = (List.range n).countP p := by
  obtain ⟨k, rfl⟩ := Nat.exists_eq_add_of_le h
  have hl : (List.range n).countP (fun i ↦ decide (i < n) && p i) = (List.range n).countP p := by
    apply List.countP_congr
    intro i hi
    simp [List.mem_range.1 hi]
  have hr : ((List.range k).map (n + ·)).countP (fun i ↦ decide (i < n) && p i) = 0 := by
    rw [List.countP_map, List.countP_eq_zero]
    intro i _
    simp
  rw [List.range_add, List.countP_append, hl, hr, Nat.add_zero]

theorem countP_lt_occurring (bits : Nat) (v : Variable) :
    (occurring bits).countP (· < v) = (List.range v.index).countP bits.testBit := by
  have h := countP_occurring bits (fun i ↦ decide (i < v.index.val))
  rw [countP_range_lt (Nat.le_of_lt v.index.isLt)] at h
  exact h

theorem idxOf_eq_countP {vs : List Variable} (h : vs.Pairwise (· < ·)) {v : Variable}
    (hv : v ∈ vs) : vs.idxOf v = vs.countP (· < v) := by
  induction vs with
  | nil => cases hv
  | cons w vs ih =>
    obtain ⟨hw, hvs⟩ := List.pairwise_cons.1 h
    by_cases he : w = v
    · subst he
      have hc : (w :: vs).countP (· < w) = 0 := by
        rw [List.countP_eq_zero]
        intro u hu
        rcases List.mem_cons.1 hu with rfl | hu
        · simp [lt_iff]
        · have hlt : w < u := hw u hu
          rw [lt_iff] at hlt
          simp only [decide_eq_true_eq, lt_iff]
          omega
      rw [hc, List.idxOf_cons_self]
    · have hm : v ∈ vs := (List.mem_cons.1 hv).resolve_left (Ne.symm he)
      have hlt : decide (w < v) = true := decide_eq_true (hw v hm)
      rw [List.idxOf_cons_ne vs he, ih hvs hm, List.countP_cons_of_pos (p := (· < v)) hlt]

end Variable

namespace Signature

variable {s : Signature} {v w : Variable} {i j : Nat}

theorem place?_eq_some_iff : s.place? v = some i ↔ s.letters[i]? = some v := by
  constructor
  · intro h
    rw [place?] at h
    split at h
    · obtain rfl := Option.some.inj h
      exact List.getElem?_idxOf ‹_›
    · cases h
  · intro h
    obtain ⟨hi, rfl⟩ := List.getElem?_eq_some_iff.1 h
    exact place?_getElem hi

theorem letters_lt_letters {hi : i < s.letters.length} {hj : j < s.letters.length} (h : i < j) :
    s.letters[i] < s.letters[j] :=
  List.pairwise_iff_getElem.1 s.ascending i j hi hj h

theorem lt_iff_place?_lt (hv : s.place? v = some i) (hw : s.place? w = some j) :
    v < w ↔ i < j := by
  obtain ⟨hi, rfl⟩ := List.getElem?_eq_some_iff.1 (place?_eq_some_iff.1 hv)
  obtain ⟨hj, rfl⟩ := List.getElem?_eq_some_iff.1 (place?_eq_some_iff.1 hw)
  constructor
  · intro h
    rw [Variable.lt_iff] at h
    by_contra hn
    rcases Nat.eq_or_lt_of_le (Nat.le_of_not_lt hn) with rfl | hlt
    · omega
    · have hl : s.letters[j] < s.letters[i] := letters_lt_letters hlt
      rw [Variable.lt_iff] at hl
      omega
  · intro h
    exact letters_lt_letters h

theorem existsUnique_place?_iff : (∃! v, s.place? v = some i) ↔ i < s.size := by
  constructor
  · rintro ⟨v, hv, -⟩
    exact place?_lt hv
  · intro hi
    refine ⟨s.letters[i], place?_getElem hi, ?_⟩
    intro w hw
    have hg : s.letters[i]? = some w := place?_eq_some_iff.1 hw
    rw [List.getElem?_eq_getElem hi] at hg
    exact (Option.some.inj hg).symm

theorem getElem?_names (h : s.place? v = some i) : s.names[i]? = some v.name := by
  rw [names, List.getElem?_map, place?_eq_some_iff.1 h]
  rfl

theorem map_place?_letters (s : Signature) :
    s.letters.map s.place? = (List.range s.size).map some := by
  apply List.ext_getElem
  · rw [List.length_map, List.length_map, List.length_range, size]
  · intro i hi hi'
    rw [List.length_map] at hi
    rw [List.getElem_map, List.getElem_map, List.getElem_range]
    exact place?_getElem hi

theorem occurring_occurrences (s : Signature) : Variable.occurring s.occurrences = s.letters := by
  apply (Variable.pairwise_occurring s.occurrences).eq_of_mem_iff s.ascending
  intro v
  rw [Variable.mem_occurring, testBit_occurrences]

theorem eq_of_occurrences_eq {s t : Signature} (h : s.occurrences = t.occurrences) : s = t := by
  rw [mk.injEq, ← s.occurring_occurrences, h, t.occurring_occurrences]

variable (bits : Nat)

theorem occurrences_ofBits : (ofBits bits).occurrences = bits % 2 ^ 52 := by
  apply Nat.eq_of_testBit_eq
  intro i
  have h : (ofBits bits).occurrences.testBit i = true ↔ _ := Variable.testBit_union
  rw [Bool.eq_iff_iff, h, Nat.testBit_mod_two_pow, Bool.and_eq_true, decide_eq_true_eq]
  constructor
  · rintro ⟨v, hv, rfl⟩
    exact ⟨v.index.isLt, Variable.mem_occurring.1 hv⟩
  · rintro ⟨hi, hb⟩
    exact ⟨⟨i, hi⟩, Variable.mem_occurring.2 hb, rfl⟩

theorem place?_ofBits (v : Variable) : (ofBits bits).place? v =
    if bits.testBit v.index then some ((List.range v.index).countP bits.testBit) else none := by
  rw [place?]
  by_cases h : v ∈ (ofBits bits).letters
  · have hi : (ofBits bits).letters.idxOf v = (List.range v.index).countP bits.testBit := by
      rw [Variable.idxOf_eq_countP (ofBits bits).ascending h]
      exact Variable.countP_lt_occurring bits v
    rw [if_pos h, if_pos (Variable.mem_occurring.1 h), hi]
  · rw [if_neg h, if_neg (Variable.mem_occurring.not.1 h)]

theorem size_ofBits : (ofBits bits).size = (List.range 52).countP bits.testBit := by
  have h := Variable.countP_occurring bits fun _ ↦ true
  rw [List.countP_true] at h
  simp only [Bool.true_and] at h
  exact h

theorem size_ofBits_le : (ofBits bits).size ≤ 52 := by
  rw [size_ofBits]
  exact List.countP_le_length

theorem ofBits_eq_iff {bits bits' : Nat} :
    ofBits bits = ofBits bits' ↔ ∀ i < 52, bits.testBit i = bits'.testBit i := by
  constructor
  · intro h i hi
    have hv : ∀ b : Nat, b.testBit i = true ↔ (⟨i, hi⟩ : Variable) ∈ (ofBits b).letters :=
      fun b ↦ (Variable.mem_occurring (v := ⟨i, hi⟩)).symm
    rw [Bool.eq_iff_iff, hv, hv, h]
  · intro h
    rw [ofBits, ofBits, mk.injEq]
    apply List.filter_congr
    intro v _
    exact h v.index v.index.isLt

/-- A signature that is written out for looking things up: the set of its variables, the place of
each and the names in the order of the places. -/
structure Directory where
  occurrences : Nat := 0
  place? : Variable → Option Nat := fun _ ↦ none
  names : List Char := []

namespace Directory

/-- Gives the first place that is free to the next variable. -/
def enter (d : Directory) (v : Variable) : Directory where
  occurrences := d.occurrences ||| v.bit
  place? := Function.update d.place? v (some d.names.length)
  names := d.names ++ [v.name]

/-- Writes out a set of variables, one variable after the other. -/
def ofBits (bits : Nat) : Directory := (Variable.occurring bits).foldl enter {}

/-- What is written once the variables of a list have their places. -/
def ofList (vs : List Variable) : Directory where
  occurrences := Variable.union vs
  place? v := if v ∈ vs then some (vs.idxOf v) else none
  names := vs.map Variable.name

theorem enter_ofList {vs : List Variable} {v : Variable} (hv : v ∉ vs) :
    (ofList vs).enter v = ofList (vs ++ [v]) := by
  rw [enter, ofList, ofList, mk.injEq]
  refine ⟨(Variable.union_concat vs v).symm, ?_, by rw [List.map_append]; rfl⟩
  funext w
  by_cases hw : w = v
  · have hm : w ∈ vs ++ [v] := by simp [hw]
    have hi : (vs ++ [v]).idxOf v = vs.length := by
      rw [List.idxOf_append_of_notMem hv, List.idxOf_cons_self, Nat.add_zero]
    rw [if_pos hm, hw, Function.update_self, hi, List.length_map]
  · rw [Function.update_of_ne hw]
    dsimp only
    by_cases hm : w ∈ vs
    · rw [if_pos hm, if_pos (List.mem_append_left [v] hm), List.idxOf_append_of_mem hm]
    · rw [if_neg hm, if_neg (by simp [hm, hw])]

theorem foldl_enter {vs : List Variable} (h : vs.Nodup) : vs.foldl enter {} = ofList vs := by
  -- From the end of the list, since a place depends on the variables that were entered before.
  induction vs using List.reverseRecOn with
  | nil => rfl
  | append_singleton vs v ih =>
    obtain ⟨hvs, -, hd⟩ := List.nodup_append.1 h
    have hv : v ∉ vs := fun hv ↦ hd v hv v (List.mem_singleton_self v) rfl
    rw [List.foldl_append, ih hvs, List.foldl_cons, List.foldl_nil, enter_ofList hv]

/-- However a set is written out, the directory says what the signature says. -/
theorem ofBits_eq (bits : Nat) : ofBits bits =
    ⟨(Signature.ofBits bits).occurrences, (Signature.ofBits bits).place?,
      (Signature.ofBits bits).names⟩ :=
  foldl_enter (Signature.ofBits bits).nodup_letters

end Directory

theorem toNat_one_shiftLeft {n : Nat} (h : n < 64) :
    ((1 : UInt64) <<< n.toUInt64).toNat = 2 ^ n := by
  have hs : n < UInt64.size := Nat.lt_trans h (by decide)
  have hp : 2 ^ n < 2 ^ 64 := Nat.pow_lt_pow_right Nat.one_lt_two h
  rw [UInt64.toNat_shiftLeft, UInt64.toNat_ofNat_of_lt' hs, Nat.mod_eq_of_lt h, UInt64.toNat_one,
    Nat.one_shiftLeft, Nat.mod_eq_of_lt hp]

/-- The place of a variable is the number of those before it, so places follow the order of the
variables and are used up from zero on. No more than the 52 lowest bits count, whichever way the
set is looked at, and no power of two that is needed is too great for a word of 64 bits. -/
theorem places_ofBits (bits : Nat) :
    (ofBits bits).occurrences = bits % 2 ^ 52 ∧
    (∀ v : Variable, (ofBits bits).place? v =
      if bits.testBit v.index then some ((List.range v.index).countP bits.testBit) else none) ∧
    (∀ v w i j, (ofBits bits).place? v = some i → (ofBits bits).place? w = some j →
      (v < w ↔ i < j)) ∧
    (∀ i, (∃! v, (ofBits bits).place? v = some i) ↔ i < (ofBits bits).size) ∧
    (∀ v i, (ofBits bits).place? v = some i → (ofBits bits).names[i]? = some v.name) ∧
    (Variable.occurring (ofBits bits).occurrences).map (ofBits bits).place? =
      (List.range (ofBits bits).size).map some ∧
    ((ofBits bits).size = (List.range 52).countP bits.testBit ∧
      (ofBits bits).assignmentCount = 2 ^ (ofBits bits).size ∧
      (ofBits bits).assignmentCount ≤ 2 ^ 52) ∧
    (((1 : UInt64) <<< (ofBits bits).size.toUInt64).toNat = (ofBits bits).assignmentCount ∧
      (∀ v : Variable, ((1 : UInt64) <<< v.index.val.toUInt64).toNat = v.bit) ∧
      ∀ v i, (ofBits bits).place? v = some i → ((1 : UInt64) <<< i.toUInt64).toNat = 2 ^ i) ∧
    Directory.ofBits bits =
      ⟨(ofBits bits).occurrences, (ofBits bits).place?, (ofBits bits).names⟩ ∧
    ∀ bits', (ofBits bits = ofBits bits' ↔ ∀ i < 52, bits.testBit i = bits'.testBit i) ∧
      (Directory.ofBits bits = Directory.ofBits bits' ↔
        ∀ i < 52, bits.testBit i = bits'.testBit i) := by
  have hs := size_ofBits_le bits
  have hc : (ofBits bits).assignmentCount = 2 ^ (ofBits bits).size :=
    (ofBits bits).assignmentCount_eq
  refine ⟨occurrences_ofBits bits, place?_ofBits bits, fun v w i j ↦ lt_iff_place?_lt,
    fun i ↦ existsUnique_place?_iff, fun v i ↦ getElem?_names, ?_, ⟨size_ofBits bits, hc, ?_⟩,
    ⟨?_, ?_, ?_⟩, Directory.ofBits_eq bits, fun bits' ↦ ⟨ofBits_eq_iff, ?_⟩⟩
  · rw [occurring_occurrences, map_place?_letters]
  · rw [hc]
    exact Nat.pow_le_pow_right Nat.two_pos hs
  · rw [hc, toNat_one_shiftLeft (by omega)]
  · intro v
    have hv := v.index.isLt
    rw [toNat_one_shiftLeft (by omega), Variable.bit, Nat.one_shiftLeft]
  · intro v i h
    have hi := place?_lt h
    rw [toNat_one_shiftLeft (by omega)]
  · rw [← ofBits_eq_iff, Directory.ofBits_eq, Directory.ofBits_eq]
    constructor
    · intro h
      exact eq_of_occurrences_eq (congrArg Directory.occurrences h)
    · intro h
      rw [h]

end Signature

end Sentential
