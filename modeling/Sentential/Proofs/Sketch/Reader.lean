import Sentential.Proofs.Cancellation
import Sentential.Proofs.Reader
import Sentential.Proofs.Sketch

namespace Sentential

open Function

namespace Operand

theorem build_negate {o : Operand} (h : ∀ s, o.inner = some s → s.IsNormal) :
    o.negate.build = o.build.map Statement.negate := by
  obtain ⟨inner, negated⟩ := o
  cases inner with
  | none => rfl
  | some s =>
    cases negated with
    | false => rfl
    | true => exact congrArg Except.ok (Statement.negate_negate (h s rfl)).symm

theorem fill_negations (n : Nat) (o : Operand) (s : Statement) :
    (negate^[n] o).fill s = negate^[n] (o.fill s) := by
  induction n with
  | zero => rfl
  | succ n ih => rw [iterate_succ_apply', iterate_succ_apply', ← ih]; rfl

end Operand

theorem Context.read_eq (k : Context) (m : Mark) :
    k.read m = match Sign.ofChar? m.symbol with
      | none => .error (.unexpectedChar m.symbol m.position k.expected)
      | some x =>
        if k.expected.admits x.kind then (k.advance m x.kind).map fun k' ↦ (⟨m, x.kind⟩, k')
        else .error (.unexpectedChar m.symbol m.position k.expected) := by
  rw [Context.read, ← Sign.map_kind_ofChar?]
  cases Sign.ofChar? m.symbol <;> rfl

namespace Grammar

def Term.operand : Term → Operand
  | negation t => t.operand.negate
  | t => Operand.fill {} t.reading.cancel

theorem Term.inner_operand (t : Term) : ∃ s, t.operand.inner = some s ∧ s.IsNormal := by
  induction t with
  | negation t ih => exact ih
  | _ => exact ⟨_, rfl, Statement.isNormal_cancel _⟩

theorem Term.build_operand (t : Term) : t.operand.build = .ok t.reading.cancel := by
  induction t with
  | negation t ih =>
    obtain ⟨s, hs, hn⟩ := t.inner_operand
    rw [operand, Operand.build_negate, ih]
    · rfl
    · rintro s' hs'
      rw [hs] at hs'
      cases hs'
      exact hn
  | _ => rfl

def Pending.group (p : Pending) : Group :=
  let o := Operand.negate^[p.negations] {}
  match p.before with
  | none => { left := o }
  | some (l, op) =>
    { left := l.operand, right := o, operator := some op, occurrences := l.reading.occurrences }

def Sentence.toGroup : Sentence → Group
  | term t =>
    { phase := .operatorOrClose, left := t.operand, occurrences := t.reading.occurrences }
  | pair l op r =>
    { phase := .close, left := l.operand, right := r.operand, operator := some op
      occurrences := l.reading.occurrences ||| r.reading.occurrences }

def Draft.group : Draft → Group
  | pending p => p.group
  | complete t => t.toGroup

/-- The reader that has read what a sketch shows. -/
def Sketch.reader (s : Sketch) : Reader where
  context := ⟨s.expected, s.outer.length⟩
  nest := ⟨s.draft.group, s.outer.map Pending.group⟩

theorem Term.operand_negations (n : Nat) (t : Term) :
    (negation^[n] t).operand = Operand.negate^[n] t.operand := by
  induction n generalizing t with
  | zero => rfl
  | succ n ih => rw [iterate_succ_apply, iterate_succ_apply, ih, operand]

theorem Term.occurrences_negations (n : Nat) (t : Term) :
    (negation^[n] t).reading.occurrences = t.reading.occurrences := by
  induction n with
  | zero => rfl
  | succ n ih => rw [iterate_succ_apply']; exact ih

theorem Pending.group_fill {p : Pending} {t : Term} {s : Statement}
    (h : t.operand = Operand.fill {} s) :
    p.group.fill s t.reading.occurrences = (p.fill t).toGroup := by
  obtain ⟨before, n⟩ := p
  have ho : (Operand.negate^[n] {}).fill s = (Term.negation^[n] t).operand := by
    rw [Operand.fill_negations, Term.operand_negations, h]
  cases before <;>
    simp [Pending.group, Pending.fill, Sentence.toGroup, Group.fill, Group.modify, ho,
      Term.occurrences_negations]

theorem Pending.group_negate (p : Pending) : p.negate.group = p.group.negate := by
  obtain ⟨before, n⟩ := p
  cases before <;>
    simp [Pending.group, Pending.negate, Group.negate, Group.modify, iterate_succ_apply']

theorem Sentence.build_toGroup (t : Sentence) : t.toGroup.build = .ok t.reading.cancel := by
  cases t with
  | term t => exact t.build_operand
  | pair l op r => simp [toGroup, Group.build, Term.build_operand]; rfl

theorem Sentence.occurrences_toGroup (t : Sentence) :
    t.toGroup.occurrences = t.reading.occurrences := by
  cases t <;> rfl

theorem Sentence.reading_enclose (t : Sentence) : t.enclose.reading = t.reading := by
  cases t <;> rfl

theorem Sentence.operand_enclose (t : Sentence) :
    t.enclose.operand = Operand.fill {} t.reading.cancel := by
  cases t <;> rfl

theorem Sentence.phase_toGroup_ne (t : Sentence) : t.toGroup.phase ≠ .closed := by
  cases t <;> simp [toGroup]

theorem Sentence.close_toGroup (t : Sentence) (p : Pending) (outer : List Group) :
    Nest.close ⟨t.toGroup, p.group :: outer⟩ = .ok ⟨(p.fill t.enclose).toGroup, outer⟩ := by
  rw [← Pending.group_fill t.operand_enclose, t.reading_enclose, Nest.close]
  simp only [t.build_toGroup, t.occurrences_toGroup]
  rfl

theorem Pending.phase_group (p : Pending) : p.group.phase = .operand := by
  obtain ⟨before, n⟩ := p
  cases before <;> rfl

namespace Sketch

theorem step_reader_pending (p : Pending) (outer : List Pending) (m : Mark) :
    (reader ⟨.pending p, outer⟩).step m =
      (step Context.maxDepth ⟨.pending p, outer⟩ m).map reader := by
  have hp := p.phase_group
  rw [Reader.step, Context.read_eq, step]
  cases hx : Sign.ofChar? m.symbol with
  | none => rfl
  | some x =>
    have hm := Sign.symbol_of_ofChar? hx
    cases x with
    | falsum | verum =>
      simp only [reader, expected, Expected.admits, Sign.kind, Context.advance, Except.map,
        Nest.step, Nest.fill, Draft.group, hp, fill, if_true]
      rw [← Pending.group_fill rfl]
      rfl
    | letter v =>
      simp only [reader, expected, Expected.admits, Sign.kind, Context.advance, Except.map,
        Nest.step, Nest.fill, Draft.group, hp, fill, if_true, ← hm, Sign.symbol,
        Variable.ofChar?_name]
      rw [← Pending.group_fill rfl]
      rfl
    | negation =>
      simp only [reader, expected, Expected.admits, Sign.kind, Context.advance, Except.map,
        Nest.step, Draft.group, hp, if_true, Pending.group_negate]
    | opening =>
      by_cases hd : outer.length = Context.maxDepth
      · simp only [reader, expected, Expected.admits, Sign.kind, Context.advance, hd, if_true]
        rfl
      · simp only [reader, expected, Expected.admits, Sign.kind, Context.advance, Except.map,
          Nest.step, Draft.group, hp, hd, if_true, if_false]
        rfl
    | operator op | closing => rfl

theorem step_reader_complete (t : Sentence) (outer : List Pending) (m : Mark) :
    (reader ⟨.complete t, outer⟩).step m =
      (step Context.maxDepth ⟨.complete t, outer⟩ m).map reader := by
  rw [Reader.step, Context.read_eq, step]
  cases hx : Sign.ofChar? m.symbol with
  | none => rfl
  | some x =>
    have hm := Sign.symbol_of_ofChar? hx
    cases x with
    | operator op =>
      cases t with
      | term t =>
        simp only [reader, expected, Expected.admits, Sign.kind, Context.advance, Except.map,
          Nest.step, Draft.group, Sentence.toGroup, if_true, ← hm, Sign.symbol,
          Connective.ofSymbol?_symbol]
        rfl
      | pair l op' r => rfl
    | closing =>
      cases outer with
      | nil => rfl
      | cons p outer =>
        -- The phase that the group is in does not matter to a parenthesis.
        have hc := t.close_toGroup p (outer.map Pending.group)
        cases t <;> exact congrArg (Except.map _) hc
    | _ => rfl

theorem step_reader (s : Sketch) (m : Mark) :
    s.reader.step m = (s.step Context.maxDepth m).map reader := by
  obtain ⟨draft, outer⟩ := s
  cases draft with
  | pending p => exact step_reader_pending p outer m
  | complete t => exact step_reader_complete t outer m

theorem run_reader (s : Sketch) (ms : List Mark) :
    s.reader.run ms = (s.run Context.maxDepth ms).map reader := by
  induction ms generalizing s with
  | nil => rfl
  | cons m ms ih =>
    rw [Reader.run, run, step_reader]
    cases s.step Context.maxDepth m with
    | error e => rfl
    | ok s' => exact ih s'

theorem finish_reader (s : Sketch) :
    s.reader.finish = s.finish.map fun t ↦ (t.reading.cancel, t.reading.occurrences) := by
  obtain ⟨draft, outer⟩ := s
  cases draft with
  | pending p => rfl
  | complete t =>
    cases outer with
    | nil =>
      have hn : Nest.finish ⟨t.toGroup, []⟩ =
          t.toGroup.build.bind fun s ↦ .ok (s, t.toGroup.occurrences) := if_neg t.phase_toGroup_ne
      change Nest.finish ⟨t.toGroup, []⟩ = _
      rw [hn, t.build_toGroup, t.occurrences_toGroup]
      rfl
    | cons p outer => rfl

end Sketch

end Grammar

/-- Reading a text finds its derivation and drops pairs of negations in it. -/
theorem Parsed.ofText_eq_derive (text : String) :
    ofText text = (Grammar.derive Context.maxDepth (marks 0 text.toList)).map fun t ↦
      ⟨t.reading.cancel, Signature.ofBits t.reading.occurrences⟩ := by
  rw [Parsed.ofText_eq, Grammar.derive]
  have hr := Grammar.Sketch.run_reader {} (marks 0 text.toList)
  have hi : Grammar.Sketch.reader {} = {} := rfl
  rw [← hi, hr]
  cases Grammar.Sketch.run Context.maxDepth {} (marks 0 text.toList) with
  | error e => rfl
  | ok s =>
    simp only [Except.map, Except.bind, s.finish_reader]
    cases s.finish <;> rfl

end Sentential
