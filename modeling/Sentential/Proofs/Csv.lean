import Sentential.Proofs.DrawnRows
import Sentential.TruthTable.Csv

namespace Sentential

open Text

namespace Text.Csv

/-- The fields of the lines of a text, divided at each comma. Quotes mean nothing here. -/
def split (text : String) : List (List String) :=
  (lines text).map fun line ↦ (line.toList.splitOn ',').map String.ofList

theorem isPlain_iff {field : String} :
    isPlain field = true ↔ field ≠ "" ∧ ∀ c ∈ field.toList, isSpecial c = false := by
  simp [isPlain]

theorem isPlain_of_isOrdinary {field : String} (hn : field ≠ "")
    (h : ∀ c ∈ field.toList, isOrdinary c = true) : isPlain field = true := by
  refine isPlain_iff.2 ⟨hn, fun c hc ↦ Bool.eq_false_iff.2 fun hs ↦ ?_⟩
  have ho := h c hc
  simp only [isSpecial, Bool.or_eq_true, decide_eq_true_eq] at hs
  rcases hs with ((rfl | rfl) | rfl) | rfl <;> cases ho

theorem isPlain_singleton {c : Char} (h : isOrdinary c = true) :
    isPlain (String.singleton c) = true := by
  apply isPlain_of_isOrdinary
  · simp
  · simpa using h

theorem isLine_of_isPlain {field : String} (h : isPlain field = true) : IsLine field.toList := by
  intro c hc
  have hs := (isPlain_iff.1 h).2 c hc
  constructor
  · rintro rfl
    cases hs
  · rintro rfl
    cases hs

variable {records : List (List String)}

theorem splitOn_intercalate {fields : List String} (hn : fields ≠ [])
    (h : ∀ f ∈ fields, isPlain f = true) :
    ((",".intercalate fields).toList.splitOn ',').map String.ofList = fields := by
  have hc : ∀ text ∈ fields.map String.toList, ',' ∉ text := by
    intro text ht hm
    obtain ⟨f, hf, rfl⟩ := List.mem_map.1 ht
    have hs := (isPlain_iff.1 (h f hf)).2 ',' hm
    cases hs
  have hs : (",".intercalate fields).toList = [','].intercalate (fields.map String.toList) :=
    String.toList_intercalate
  rw [hs, List.splitOn_intercalate ',' hc (by simpa using hn), List.map_map]
  exact map_eq_self fun f _ ↦ String.ofList_toList

/-- Plain fields are known from the line that has commas between them. -/
theorem eq_of_intercalate_eq {fields fields' : List String}
    (h : ∀ f ∈ fields, isPlain f = true) (h' : ∀ f ∈ fields', isPlain f = true)
    (he : ",".intercalate fields = ",".intercalate fields') : fields = fields' := by
  have hempty {fields : List String} (h : ∀ f ∈ fields, isPlain f = true)
      (he : ",".intercalate fields = "") : fields = [] := by
    by_contra hn
    have hs := splitOn_intercalate hn h
    have hf : "" ∈ fields := by
      rw [← hs, he]
      decide
    exact (isPlain_iff.1 (h "" hf)).1 rfl
  by_cases hn : fields = []
  · rw [hn, String.intercalate_nil] at he
    rw [hn, hempty h' he.symm]
  · by_cases hn' : fields' = []
    · rw [hn', String.intercalate_nil] at he
      exact absurd (hempty h he) hn
    · rw [← splitOn_intercalate hn h, he, splitOn_intercalate hn' h']

/-- Plain fields are found again between the commas. -/
theorem split_join (w : Writer) (hn : ∀ fields ∈ records, fields ≠ [])
    (h : ∀ fields ∈ records, ∀ f ∈ fields, isPlain f = true) :
    split (String.join (records.map fun fields ↦ w.record fields ++ "\n")) = records := by
  have hl : ∀ line ∈ records.map w.record, IsLine line.toList := by
    intro line hline
    obtain ⟨fields, hf, rfl⟩ := List.mem_map.1 hline
    rw [w.record_eq fields (hn fields hf) (h fields hf)]
    exact isLine_intercalate (by decide) fun f hm ↦ isLine_of_isPlain (h fields hf f hm)
  have hm : (records.map fun fields ↦ w.record fields ++ "\n") =
      (records.map w.record).map (· ++ "\n") := by
    rw [List.map_map]
    rfl
  rw [hm, split, lines_join hl, List.map_map]
  refine map_eq_self fun fields hf ↦ ?_
  rw [Function.comp_apply, w.record_eq fields (hn fields hf) (h fields hf)]
  exact splitOn_intercalate (hn fields hf) (h fields hf)

end Text.Csv

namespace TruthTable

variable {plan : Partition} {p : Parsed} {t : TruthTable}

def readRecord (fields : List String) : Nat × Bool :=
  (Nat.ofDigitChars 2 (fields.dropLast.flatMap String.toList) 0, fields.getLastD "" = "1")

/-- Reads the records of a table. -/
def readCsv (text : String) : Excerpt :=
  let records := Text.Csv.split text
  let header := records.headD []
  ⟨(header.dropLast.flatMap String.toList).reverse, header.getLastD "",
    records.tail.map readRecord⟩

theorem records_eq (t : TruthTable) (filter : RowFilter) :
    t.records filter = (t.columns.map String.singleton ++ [t.statement]) ::
      (t.rows filter).map fun row ↦
        ((t.inputs row.1).map digit ++ [digit row.2]).map String.singleton := by
  have h (row : Nat × Bool) : ((t.inputs row.1 ++ [row.2]).map fun b ↦ String.singleton (digit b)) =
      ((t.inputs row.1).map digit ++ [digit row.2]).map String.singleton := by
    rw [List.map_append, List.map_append, List.map_map]
    rfl
  simp only [← h]
  rfl

theorem records_ne_nil {filter : RowFilter} : ∀ fields ∈ t.records filter, fields ≠ [] := by
  intro fields hf
  rw [records_eq] at hf
  rcases List.mem_cons.1 hf with rfl | hf
  · simp
  · obtain ⟨row, -, rfl⟩ := List.mem_map.1 hf
    simp

theorem isPlain_of_mem_records (ht : (tabulate plan p).value = .ok t) {filter : RowFilter} :
    ∀ fields ∈ t.records filter, ∀ f ∈ fields, Text.Csv.isPlain f = true := by
  intro fields hfields f hf
  rw [records_eq] at hfields
  rcases List.mem_cons.1 hfields with rfl | hfields
  · rcases List.mem_append.1 hf with hf | hf
    · obtain ⟨c, hc, rfl⟩ := List.mem_map.1 hf
      obtain ⟨v, rfl⟩ := exists_name_of_mem_columns ht hc
      exact Text.Csv.isPlain_singleton (isOrdinary_name v)
    · rw [List.mem_singleton.1 hf]
      refine Text.Csv.isPlain_of_isOrdinary ?_ (isOrdinary_statement ht)
      obtain ⟨-, rfl⟩ := of_tabulate_eq_ok ht
      exact p.statement.render_ne_empty
  · obtain ⟨row, -, rfl⟩ := List.mem_map.1 hfields
    obtain ⟨c, hc, rfl⟩ := List.mem_map.1 hf
    apply Text.Csv.isPlain_singleton
    rcases List.mem_append.1 hc with hc | hc
    · obtain ⟨b, -, rfl⟩ := List.mem_map.1 hc
      exact isOrdinary_digit b
    · rw [List.mem_singleton.1 hc]
      exact isOrdinary_digit row.2

theorem readRecord_row (ht : (tabulate plan p).value = .ok t) {filter : RowFilter}
    {row : Nat × Bool} (hr : row ∈ t.rows filter) :
    readRecord (((t.inputs row.1).map digit ++ [digit row.2]).map String.singleton) = row := by
  have hv := (isBinary_inputs ht hr).value_eq
  obtain ⟨value, output⟩ := row
  rw [readRecord, List.map_append, List.map_singleton, List.dropLast_concat, List.getLastD_concat,
    List.flatMap_map]
  simp only [String.toList_singleton, List.flatMap_singleton', hv]
  cases output <;> rfl

theorem csv_eq (ht : (tabulate plan p).value = .ok t) (w : Text.Csv.Writer) (filter : RowFilter) :
    t.csv w filter =
      String.join ((t.records filter).map fun fields ↦ ",".intercalate fields ++ "\n") := by
  refine congrArg String.join (List.map_congr_left fun fields hf ↦ ?_)
  rw [w.record_eq fields (records_ne_nil fields hf) (isPlain_of_mem_records ht fields hf)]

theorem split_csv (ht : (tabulate plan p).value = .ok t) (w : Text.Csv.Writer)
    (filter : RowFilter) : Text.Csv.split (t.csv w filter) = t.records filter :=
  Text.Csv.split_join w records_ne_nil (isPlain_of_mem_records ht)

theorem readCsv_csv (ht : (tabulate plan p).value = .ok t) (w : Text.Csv.Writer)
    (filter : RowFilter) : readCsv (t.csv w filter) = t.excerpt filter := by
  have hrows : ((t.rows filter).map fun row ↦
      ((t.inputs row.1).map digit ++ [digit row.2]).map String.singleton).map readRecord =
        t.rows filter := by
    rw [List.map_map]
    exact map_eq_self fun row hr ↦ readRecord_row ht hr
  simp only [readCsv, split_csv ht, records_eq, List.headD_cons, List.tail_cons, hrows]
  rw [List.dropLast_concat, List.getLastD_concat, List.flatMap_map]
  simp only [String.toList_singleton, List.flatMap_singleton']
  rw [columns, List.reverse_reverse]
  rfl

theorem getElem?_records {filter : RowFilter} {j : Nat} {row : Nat × Bool}
    (h : (t.rows filter)[j]? = some row) : (t.records filter)[1 + j]? =
      some (((t.inputs row.1).map digit ++ [digit row.2]).map String.singleton) := by
  rw [records_eq, Nat.add_comm 1 j, List.getElem?_cons_succ, List.getElem?_map, h]
  rfl

/-- The records of a table are written without quotes, so they are found again between the commas.
They show the same rows as any drawing of the table under the same filter, digit by digit. -/
theorem csv_legible (ht : (tabulate plan p).value = .ok t) (w : Text.Csv.Writer)
    (filter : RowFilter) :
    t.csv w filter =
      String.join ((t.records filter).map fun fields ↦ ",".intercalate fields ++ "\n") ∧
    Text.Csv.split (t.csv w filter) = t.records filter ∧
    (t.records filter).length = 1 + (t.rows filter).length ∧
    (t.records filter)[0]? =
      some (p.signature.names.reverse.map String.singleton ++ [p.statement.render]) ∧
    (t.rows filter).Pairwise (·.1 < ·.1) ∧
    (∀ value output, (value, output) ∈ t.rows filter ↔
      t.outputs[value]? = some output ∧ filter.admits output = true) ∧
    (∀ j value output, (t.rows filter)[j]? = some (value, output) →
      ∃ digits, IsBinary p.signature.size value digits ∧
        (t.records filter)[1 + j]? = some ((digits ++ [digit output]).map String.singleton) ∧
        ∀ d : Drawing, d.filter = filter → d.ShowsRow t j (digits ++ [digit output])) ∧
    (∀ d : Drawing, d.filter = filter → (∀ piece ∈ d.glyphs.pieces, IsLine piece.toList) →
      (Text.lines (d.text t)).length = 4 + (t.rows filter).length) ∧
    readCsv (t.csv w filter) = ⟨p.signature.names, p.statement.render, t.rows filter⟩ := by
  refine ⟨csv_eq ht w filter, split_csv ht w filter, ?_, ?_, t.pairwise_rows filter,
    fun _ _ ↦ mem_rows, ?_, ?_, ?_⟩
  · rw [records_eq, List.length_cons, List.length_map, Nat.add_comm]
  · obtain ⟨-, rfl⟩ := of_tabulate_eq_ok ht
    rfl
  · intro j value output hj
    have hr : (value, output) ∈ t.rows filter := List.mem_of_getElem? hj
    refine ⟨(t.inputs value).map digit, isBinary_inputs ht hr, getElem?_records hj, ?_⟩
    rintro d rfl
    exact d.showsRow ht hj
  · rintro d rfl hg
    rw [Drawing.lines_text ht hg, d.length_lines]
  · obtain ⟨-, rfl⟩ := of_tabulate_eq_ok ht
    exact readCsv_csv ht w filter

theorem csv_legible_of_equivalence :
    ∃ t, (tabulate .whole ⟨.binary .iff (.var ⟨26⟩) (.var ⟨1⟩),
        .ofBits (2 ^ 26 + 2)⟩).value = .ok t ∧
      t.csv .sparing .any = "a,B,a = B\n0,0,1\n0,1,0\n1,0,0\n1,1,1\n" ∧
      readCsv (t.csv .sparing .failing) = ⟨['B', 'a'], "a = B", [(1, false), (2, false)]⟩ ∧
      ∃ digits, (t.records .failing)[2]? = some (digits.map String.singleton) ∧
        Drawing.ShowsRow { glyphs := .ascii, colored := true, filter := .failing } t 1 digits := by
  have ht : (tabulate .whole ⟨.binary .iff (.var ⟨26⟩) (.var ⟨1⟩),
      .ofBits (2 ^ 26 + 2)⟩).value = .ok ⟨['B', 'a'], "a = B", [true, false, false, true]⟩ := rfl
  obtain ⟨-, -, -, -, -, -, hd, -, h⟩ := csv_legible ht .sparing .failing
  obtain ⟨digits, -, hr, hs⟩ := hd 1 2 false rfl
  exact ⟨_, ht, by decide, h, _, hr, hs _ rfl⟩

end TruthTable

end Sentential
