import Sentential.Proofs.CanonicalText
import Sentential.Proofs.Classification

namespace Sentential

/-- A canonical text is the text of one statement only. Its derivation tells which: that is found
without a limit to the nesting and with every negation in it. -/
theorem Statement.eq_of_render_eq {s t : Statement} (h : s.render = t.render) : s = t := by
  have hs : s.toSentence.Spells t.render := h ▸ s.spells_render
  have hst : s.toSentence = t.toSentence := hs.unique t.spells_render
  rw [← s.reading_toSentence, hst, t.reading_toSentence]

namespace Parsed

variable {text : String} {p : Parsed}

theorem signature_eq_of_ofText (h : ofText text = .ok p) :
    p.signature = .ofBits p.statement.occurrences := by
  obtain ⟨t, -, -, rfl⟩ := ofText_eq_ok_iff.1 h
  rw [Statement.occurrences_cancel]

theorem letters_eq_of_ofText (h : ofText text = .ok p) :
    p.signature.letters = Text.letters text.toList := by
  obtain ⟨t, ht, -, rfl⟩ := ofText_eq_ok_iff.1 h
  exact ht.occurring_eq

theorem letters_ne_nil_of_ofText (h : ofText text = .ok p)
    (hl : ∃ c ∈ text.toList, c.isAlpha = true) : p.signature.letters ≠ [] := by
  obtain ⟨c, hc, ha⟩ := hl
  rw [letters_eq_of_ofText h]
  intro hn
  rw [Text.letters_eq_nil_iff.1 hn c hc] at ha
  cases ha

/-- What was read is known from the statement. -/
theorem eq_of_statement_eq {text' : String} {p' : Parsed} (h : ofText text = .ok p)
    (h' : ofText text' = .ok p') (hs : p.statement = p'.statement) : p = p' := by
  obtain ⟨s, σ⟩ := p
  obtain ⟨s', σ'⟩ := p'
  cases hs
  have hσ : σ = .ofBits s.occurrences := signature_eq_of_ofText h
  have hσ' : σ' = .ofBits s.occurrences := signature_eq_of_ofText h'
  rw [hσ, hσ']

end Parsed

/-- The canonical text tells statements apart, and so tables tell apart the statements that were
read. -/
theorem Statement.render_identifies :
    (∀ s t : Statement, s.render = t.render → s = t) ∧
    ∀ (text text' : String) (p p' : Parsed),
      Parsed.ofText text = .ok p → Parsed.ofText text' = .ok p' →
      (∃ c ∈ text.toList, c.isAlpha = true) → (∃ c ∈ text'.toList, c.isAlpha = true) →
      ∃ t t' : TruthTable, (∀ plan, (TruthTable.tabulate plan p).value = .ok t) ∧
        (∀ plan, (TruthTable.tabulate plan p').value = .ok t') ∧
        (t = t' ↔ p.statement = p'.statement) := by
  refine ⟨fun s t ↦ eq_of_render_eq, fun text text' p p' h h' hl hl' ↦ ?_⟩
  have hn := Parsed.letters_ne_nil_of_ofText h hl
  have hn' := Parsed.letters_ne_nil_of_ofText h' hl'
  refine ⟨_, _, fun plan ↦ TruthTable.value_tabulate plan hn,
    fun plan ↦ TruthTable.value_tabulate plan hn', ?_, ?_⟩
  · intro he
    exact eq_of_render_eq (congrArg TruthTable.statement he)
  · intro hs
    rw [Parsed.eq_of_statement_eq h h' hs]

theorem Statement.render_identifies_of_cancelled_negations :
    ∃ p p' t t', Parsed.ofText "!!a > b" = .ok p ∧ Parsed.ofText "(a)>b" = .ok p' ∧
      TruthTable.ofParsed p = .ok t ∧ TruthTable.ofParsed p' = .ok t' ∧ t = t' := by
  let p : Parsed := ⟨.binary .implies (.var ⟨26⟩) (.var ⟨27⟩), .ofBits (2 ^ 26 + 2 ^ 27)⟩
  have h : Parsed.ofText "!!a > b" = .ok p := rfl
  have h' : Parsed.ofText "(a)>b" = .ok p := rfl
  obtain ⟨t, t', ht, ht', he⟩ := render_identifies.2 _ _ p p h h'
    ⟨'a', by decide, rfl⟩ ⟨'a', by decide, rfl⟩
  exact ⟨p, p, t, t', h, h', ht .whole, ht' .whole, he.2 rfl⟩

end Sentential
