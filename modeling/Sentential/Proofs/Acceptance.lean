import Sentential.Proofs.Recognition

namespace Sentential

open Text

theorem Sign.balanced_symbol {x : Sign} (ho : x ≠ opening) (hc : x ≠ closing) :
    Balanced 0 [x.symbol] :=
  .single (symbol_eq_opening.not.2 ho) (symbol_eq_closing.not.2 hc)

namespace Grammar

theorem balanced_pair {a b : Nat} {l r : List Char} (hl : Balanced a l) (hr : Balanced b r)
    (op : Connective) : Balanced (max a b) (l ++ op.symbol :: r) := by
  have ho : Balanced 0 [op.symbol] := Sign.balanced_symbol (x := .operator op) (by simp) (by simp)
  have h := hl.append (ho.append hr)
  rwa [Nat.zero_max] at h

theorem Term.balanced_symbols (t : Term) : Balanced t.depth t.symbols := by
  induction t with
  | falsum | verum => exact .single (by decide) (by decide)
  | letter v => exact Sign.balanced_symbol (x := .letter v) (by simp) (by simp)
  | negation t ih =>
    have h := (Balanced.single (c := '!') (by decide) (by decide)).append ih
    rwa [Nat.zero_max] at h
  | group t ih => exact ih.parentheses
  | pair l op r ihl ihr =>
    have h := (balanced_pair ihl ihr op).parentheses
    rwa [List.cons_append] at h

theorem Sentence.balanced_symbols (t : Sentence) : Balanced t.depth t.symbols := by
  cases t with
  | term t => exact t.balanced_symbols
  | pair l op r => exact balanced_pair l.balanced_symbols r.balanced_symbols op

theorem Sentence.nesting_symbols (t : Sentence) : nesting 0 t.symbols = t.depth := by
  rw [(t.balanced_symbols 0).2, Nat.zero_add]

/-- The sentence is what the text says, blanks apart. -/
def Sentence.Spells (t : Sentence) (text : String) : Prop := t.symbols = visible text.toList

theorem Sentence.Spells.unique {t u : Sentence} {text : String} (ht : t.Spells text)
    (hu : u.Spells text) : t = u :=
  symbols_injective (ht.trans hu.symm)

theorem Sentence.Spells.iff_eq {t : Sentence} {text : String} (h : t.Spells text) (u : Sentence) :
    u.Spells text ↔ u = t :=
  ⟨fun hu ↦ hu.unique h, fun hu ↦ hu ▸ h⟩

end Grammar

open Grammar

theorem Parsed.ofText_eq_ok_iff {text : String} {p : Parsed} :
    ofText text = .ok p ↔ ∃ t : Sentence, t.Spells text ∧ t.depth ≤ 256 ∧
      p = ⟨t.reading.cancel, Signature.ofBits t.reading.occurrences⟩ := by
  rw [ofText_eq_derive]
  constructor
  · intro h
    cases hd : derive Context.maxDepth (marks 0 text.toList) with
    | error e => rw [hd] at h; cases h
    | ok t =>
      rw [hd] at h
      obtain ⟨hs, hl⟩ := derive_eq_ok_iff.1 hd
      rw [map_symbol_marks] at hs
      exact ⟨t, hs, hl, (Except.ok.inj h).symm⟩
  · rintro ⟨t, hs, hl, rfl⟩
    have hd : derive Context.maxDepth (marks 0 text.toList) = .ok t :=
      derive_of_symbols ((map_symbol_marks ..).trans hs.symm) hl
    rw [hd]
    rfl

/-- A text in which groups are nested too deeply is turned down at the first parenthesis that opens
one group too many, and not before. -/
theorem Parsed.ofText_of_depth_lt {text : String} {t : Sentence} (h : t.Spells text)
    (hd : 256 < t.depth) :
    ∃ before after, text.toList = before ++ '(' :: after ∧ nesting 0 before ≤ 256 ∧
      256 < nesting 0 (before ++ ['(']) ∧
      ofText text = .error (.lexical (.tooDeep before.length 256)) := by
  have hs : (marks 0 text.toList).map Mark.symbol = t.symbols := (map_symbol_marks ..).trans h.symm
  have hd' : Context.maxDepth < t.depth := hd
  obtain ⟨before, m, after, hm, ho, hl, hn, he⟩ := derive_of_depth_lt hs hd'
  obtain ⟨front, back, ht, hp, rfl, rfl⟩ := marks_eq_append_cons hm
  rw [map_symbol_marks, level_visible] at hl
  rw [map_symbol_marks, nesting_visible] at hn
  rw [ho] at ht
  refine ⟨front, back, ht, hn, ?_, ?_⟩
  · rw [nesting_append, hl]
    exact Nat.lt_of_lt_of_le (by decide) (Nat.le_max_right ..)
  · rw [ofText_eq_derive, he, hp, Nat.zero_add]
    rfl

end Sentential
