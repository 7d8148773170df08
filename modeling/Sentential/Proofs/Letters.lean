import Sentential.Proofs.Acceptance

namespace Sentential

/-- The variables whose letters stand in a text, in ascending order. -/
def Text.letters (text : List Char) : List Variable := Variable.all.filter (text.contains ·.name)

theorem Text.mem_letters {text : List Char} {v : Variable} : v ∈ letters text ↔ v.name ∈ text := by
  simp [letters, Variable.mem_all]

theorem Text.name_mem_visible {text : List Char} {v : Variable} :
    v.name ∈ visible text ↔ v.name ∈ text := by
  have hv : isBlank v.name = false := Sign.isBlank_symbol (.letter v)
  simp [visible, hv]

namespace Grammar

theorem name_eq_symbol {v : Variable} {x : Sign} : v.name = x.symbol ↔ x = .letter v := by
  rw [eq_comm]
  exact Sign.symbol_inj (y := .letter v)

theorem name_ne_symbol {v : Variable} {x : Sign} (h : x ≠ .letter v) : v.name ≠ x.symbol :=
  name_eq_symbol.not.2 h

theorem name_ne_operator (v : Variable) (op : Connective) : v.name ≠ op.symbol :=
  name_ne_symbol (x := .operator op) (by simp)

theorem Term.name_mem_symbols {v : Variable} (t : Term) :
    v.name ∈ t.symbols ↔ t.reading.occurrences.testBit v.index = true := by
  have ho : v.name ≠ '(' := name_ne_symbol (x := .opening) (by simp)
  have hc : v.name ≠ ')' := name_ne_symbol (x := .closing) (by simp)
  induction t with
  | falsum =>
    have h : v.name ≠ '0' := name_ne_symbol (x := .falsum) (by simp)
    simp [symbols, reading, Statement.occurrences, h]
  | verum =>
    have h : v.name ≠ '1' := name_ne_symbol (x := .verum) (by simp)
    simp [symbols, reading, Statement.occurrences, h]
  | letter w =>
    have h : v.name = w.name ↔ w.index.val = v.index.val := by
      rw [← Fin.ext_iff, ← Variable.mk.injEq, eq_comm (a := w)]
      exact ⟨Variable.name_injective, congrArg Variable.name⟩
    simp [symbols, reading, Statement.occurrences, h]
  | negation t ih =>
    have h : v.name ≠ '!' := name_ne_symbol (x := .negation) (by simp)
    simpa [symbols, reading, Statement.occurrences, h] using ih
  | group t ih => simpa [symbols, reading, ho, hc] using ih
  | pair l op r ihl ihr =>
    have h := name_ne_operator v op
    simp [symbols, reading, Statement.occurrences, ho, hc, h, ihl, ihr]

theorem Sentence.name_mem_symbols {v : Variable} (t : Sentence) :
    v.name ∈ t.symbols ↔ t.reading.occurrences.testBit v.index = true := by
  cases t with
  | term t => exact t.name_mem_symbols
  | pair l op r =>
    have h := name_ne_operator v op
    simp [symbols, reading, Statement.occurrences, h, Term.name_mem_symbols]

theorem Sentence.Spells.occurring_eq {t : Sentence} {text : String} (h : t.Spells text) :
    Variable.occurring t.reading.occurrences = Text.letters text.toList := by
  refine List.filter_congr fun v _ ↦ ?_
  rw [Bool.eq_iff_iff, ← t.name_mem_symbols, h, Text.name_mem_visible, List.contains_iff_mem]

end Grammar

end Sentential
