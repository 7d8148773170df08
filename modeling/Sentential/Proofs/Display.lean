import Sentential.Proofs.Columns
import Sentential.Proofs.Enumeration
import Sentential.Proofs.Places

namespace Sentential

open Text

namespace Assignment

variable (a : Assignment)

/-- A name with its truth value. -/
def pair (v : Variable) : String := String.ofList [v.name, ':', digit (a.get v)]

theorem values_eq : a.values = a.signature.letters.map a.get := by
  apply List.ext_getElem
  · simp [values, Signature.size]
  · intro i hi _
    have hl : i < a.signature.letters.length := by simpa [values, Signature.size] using hi
    simp [values, a.get_letter hl]

theorem display_eq :
    a.display = "\x7b" ++ ",".intercalate (a.signature.letters.map a.pair) ++ "\x7d" := by
  have hp : List.zipWith (fun c b ↦ String.ofList [c, ':', digit b]) a.names a.values =
      a.signature.letters.map a.pair := by
    rw [values_eq, names, Signature.names, List.zipWith_map, List.zipWith_self]
    rfl
  rw [display, hp]

theorem isPlain_pair (v : Variable) : Text.Csv.isPlain (a.pair v) = true := by
  have hn (c : Char) (h : isOrdinary c = true ∨ c = ':') : Text.Csv.isSpecial c = false := by
    rcases h with h | rfl
    · exact (Text.Csv.isPlain_iff.1 (Text.Csv.isPlain_singleton h)).2 c (by simp)
    · rfl
  apply Text.Csv.isPlain_iff.2
  constructor
  · simp [pair]
  · simp [pair, hn, isOrdinary_name, isOrdinary_digit]

theorem pair_eq_pair {a a' : Assignment} {v v' : Variable} (h : a.pair v = a'.pair v') :
    v = v' ∧ a.get v = a'.get v' := by
  obtain ⟨hn, -, hd, -⟩ : v.name = v'.name ∧ ':' = ':' ∧
    digit (a.get v) = digit (a'.get v') ∧ True := by simpa [pair] using h
  exact ⟨Variable.name_injective hn, digit_injective hd⟩

theorem signature_eq_of_display_eq {a a' : Assignment} (h : a.display = a'.display) :
    a.signature = a'.signature ∧ ∀ v ∈ a.signature.letters, a.get v = a'.get v := by
  have hq (a : Assignment) : ∀ f ∈ a.signature.letters.map a.pair, Text.Csv.isPlain f = true := by
    simp [isPlain_pair]
  have hp : a.signature.letters.map a.pair = a'.signature.letters.map a'.pair := by
    apply Text.Csv.eq_of_intercalate_eq (hq a) (hq a')
    simpa [display_eq, ← String.toList_inj] using h
  -- The names come first, since only with them the truth values can be compared.
  have hl : a.signature.letters = a'.signature.letters := by
    have hf : List.Forall₂ (· = ·) a.signature.letters a'.signature.letters := by
      rw [← List.forall₂_eq_eq_eq, List.forall₂_map_left_iff, List.forall₂_map_right_iff] at hp
      exact hp.imp fun v v' he ↦ (pair_eq_pair he).1
    rwa [List.forall₂_eq_eq_eq] at hf
  refine ⟨?_, ?_⟩
  · rw [Signature.mk.injEq]
    exact hl
  · rw [← hl, List.map_inj_left] at hp
    intro v hv
    exact (pair_eq_pair (hp v hv)).2

theorem display_eq_display_iff {s s' : Signature} {value value' : Nat} (h : value < 2 ^ s.size)
    (h' : value' < 2 ^ s'.size) :
    (mk s value).display = (mk s' value').display ↔
      s.occurrences = s'.occurrences ∧ value = value' := by
  constructor
  · intro hd
    obtain ⟨rfl, hv⟩ := signature_eq_of_display_eq hd
    exact ⟨rfl, Signature.value_eq_of_get_eq h h' hv⟩
  · rintro ⟨ho, rfl⟩
    rw [Signature.eq_of_occurrences_eq ho]

end Assignment

namespace TruthTable

variable {plan : Partition} {p : Parsed} {t : TruthTable}

theorem columns_eq (ht : (tabulate plan p).value = .ok t) :
    t.columns = p.signature.letters.reverse.map Variable.name := by
  obtain ⟨-, rfl⟩ := of_tabulate_eq_ok ht
  exact List.map_reverse.symm

theorem inputs_eq (ht : (tabulate plan p).value = .ok t) (value : Nat) :
    t.inputs value = p.signature.letters.reverse.map (Assignment.mk p.signature value).get := by
  have hv := (Assignment.mk p.signature value).values_eq
  obtain ⟨-, rfl⟩ := of_tabulate_eq_ok ht
  rw [List.map_reverse, ← hv]
  simp [inputs, Assignment.values, Signature.names, Signature.size]

theorem getElem?_outputs (ht : (tabulate plan p).value = .ok t) {value : Nat}
    (h : value < 2 ^ p.signature.size) :
    t.outputs[value]? = some (p.statement.evaluate ⟨p.signature, value⟩) := by
  obtain ⟨-, rfl⟩ := of_tabulate_eq_ok ht
  have hc : value < p.signature.assignmentCount := p.signature.assignmentCount_eq ▸ h
  simp [hc]

/-- What is written of row `j` under a filter: in each column there is the truth value that `a`
gives to the variable whose name is at the top. -/
structure RowShows (t : TruthTable) (filter : RowFilter) (j : Nat) (a : Assignment)
    (output : Bool) : Prop where
  csv_names : ∀ w, (Text.Csv.split (t.csv w filter))[0]? =
    some (a.signature.letters.reverse.map (fun v ↦ String.singleton v.name) ++ [t.statement])
  csv_digits : ∀ w, (Text.Csv.split (t.csv w filter))[1 + j]? =
    some (a.signature.letters.reverse.map (fun v ↦ String.singleton (digit (a.get v))) ++
      [String.singleton (digit output)])
  drawn_text : ∀ d : Drawing, d.text t = String.join ((d.lines t).map (· ++ "\n")) ∧
    ((∀ piece ∈ d.glyphs.pieces, IsLine piece.toList) → Text.lines (d.text t) = d.lines t)
  drawn_names : ∀ d : Drawing, d.filter = filter → (d.lines t)[1]? =
    some (d.glyphs.vertical ++
      "  ".intercalate (a.signature.letters.reverse.map fun v ↦ String.singleton v.name) ++
      d.glyphs.vertical ++ t.statement ++ d.glyphs.vertical)
  drawn_digits : ∀ d : Drawing, d.filter = filter →
    d.ShowsRow t j (a.signature.letters.reverse.map (fun v ↦ digit (a.get v)) ++ [digit output])
  /-- Without colors, the digit stands below the name, character by character. -/
  offset : ∀ d : Drawing, d.filter = filter → d.colored = false → ∃ header line : String,
    (d.lines t)[1]? = some header ∧ (d.lines t)[3 + j]? = some line ∧
    ∀ (i : Nat) (v : Variable), a.signature.letters.reverse[i]? = some v →
      header.toList[d.column i]? = some v.name ∧
      line.toList[d.column i]? = some (digit (a.get v))

theorem rowShows (ht : (tabulate plan p).value = .ok t) {filter : RowFilter} {j value : Nat}
    {output : Bool} (hj : (t.rows filter)[j]? = some (value, output)) :
    t.RowShows filter j ⟨p.signature, value⟩ output where
  csv_names w := by
    rw [split_csv ht, records_eq, List.getElem?_cons_zero, columns_eq ht, List.map_map]
    rfl
  csv_digits w := by
    rw [split_csv ht, getElem?_records hj, inputs_eq ht, List.map_append, List.map_map,
      List.map_map]
    rfl
  drawn_text d := ⟨d.text_eq t, Drawing.lines_text ht⟩
  drawn_names d _ := by
    have hh : (d.lines t)[1]? = some (d.header t) := rfl
    rw [hh, Drawing.header, columns_eq ht, List.map_map]
    rfl
  drawn_digits := by
    rintro d rfl
    have hs := d.showsRow ht hj
    rwa [inputs_eq ht, List.map_map] at hs
  offset := by
    rintro d rfl hc
    refine ⟨d.header t, _, rfl, Drawing.getElem?_lines hj, fun i v hi ↦ ⟨?_, ?_⟩⟩
    · apply Drawing.getElem?_row_column
      rw [columns_eq ht, List.getElem?_map, hi, Option.map_some]
    · rw [Drawing.body_eq hc]
      apply Drawing.getElem?_row_column
      rw [inputs_eq ht, List.getElem?_map, List.getElem?_map, hi, Option.map_some, Option.map_some]

end TruthTable

/-- Whoever looks at an assignment sees the same truth values: in the order of the places, in its
text, and in the row of a table that has its number. The text tells it from all others. -/
theorem Assignment.readings_agree {s : Signature} {value : Nat} {a : Assignment}
    (ha : s.assignment? value = some a) :
    a.values.length = s.size ∧
    (∀ i < s.size, ∃ v : Variable, s.place? v = some i ∧ a.names[i]? = some v.name ∧
      a.values[i]? = some (a.get v)) ∧
    a.display = "\x7b" ++ ",".intercalate ((Variable.occurring s.occurrences).map fun v ↦
      String.ofList [v.name, ':', digit (a.get v)]) ++ "\x7d" ∧
    (∀ (plan : Partition) (p : Parsed) (t : TruthTable), p.signature = s →
      (TruthTable.tabulate plan p).value = .ok t →
      t.outputs[value]? = some (p.statement.evaluate a) ∧
      ∀ filter : RowFilter, filter.admits (p.statement.evaluate a) = true →
        (value, p.statement.evaluate a) ∈ t.rows filter ∧
        ∀ j : Nat, (t.rows filter)[j]? = some (value, p.statement.evaluate a) →
          t.RowShows filter j a (p.statement.evaluate a)) ∧
    ∀ (s' : Signature) (value' : Nat) (a' : Assignment), s'.assignment? value' = some a' →
      (a.display = a'.display ↔ s.occurrences = s'.occurrences ∧ value = value') := by
  obtain ⟨hv, rfl⟩ := Signature.assignment?_eq_some_iff.1 ha
  refine ⟨?_, ?_, ?_, ?_, ?_⟩
  · simp [values]
  · intro i hi
    have hp : s.place? s.letters[i] = some i := Signature.place?_getElem hi
    refine ⟨s.letters[i], hp, Signature.getElem?_names hp, ?_⟩
    rw [values_eq, List.getElem?_map, List.getElem?_eq_getElem hi]
    rfl
  · rw [display_eq, s.occurring_occurrences]
    rfl
  · rintro plan p t rfl ht
    have ho := TruthTable.getElem?_outputs ht hv
    refine ⟨ho, fun filter hf ↦ ?_⟩
    exact ⟨TruthTable.mem_rows.2 ⟨ho, hf⟩, fun j hj ↦ TruthTable.rowShows ht hj⟩
  · intro s' value' a' ha'
    obtain ⟨hv', rfl⟩ := Signature.assignment?_eq_some_iff.1 ha'
    exact display_eq_display_iff hv hv'

theorem Assignment.readings_agree_of_implication :
    ∃ a t, (Signature.ofBits (2 ^ 26 + 2 ^ 27)).assignment? 2 = some a ∧
      (TruthTable.tabulate .whole ⟨.binary .implies (.var ⟨26⟩) (.var ⟨27⟩),
        .ofBits (2 ^ 26 + 2 ^ 27)⟩).value = .ok t ∧
      a.display = "\x7ba:0,b:1\x7d" ∧ t.RowShows .holding 1 a true ∧
      ∀ a', (Signature.ofBits (2 ^ 26)).assignment? 1 = some a' → a.display ≠ a'.display := by
  have ha : (Signature.ofBits (2 ^ 26 + 2 ^ 27)).assignment? 2 =
      some ⟨.ofBits (2 ^ 26 + 2 ^ 27), 2⟩ := rfl
  have ht : (TruthTable.tabulate .whole ⟨.binary .implies (.var ⟨26⟩) (.var ⟨27⟩),
      .ofBits (2 ^ 26 + 2 ^ 27)⟩).value =
        .ok ⟨['a', 'b'], "a > b", [true, false, true, true]⟩ := rfl
  obtain ⟨-, -, hd, hr, hi⟩ := readings_agree ha
  refine ⟨_, _, ha, ht, hd.trans (by decide), ((hr _ _ _ rfl ht).2 .holding rfl).2 1 rfl, ?_⟩
  intro a' ha' he
  have hn := ((hi _ _ a' ha').1 he).2
  omega

end Sentential
