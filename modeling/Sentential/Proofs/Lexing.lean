import Sentential.Proofs.Blanks
import Sentential.Proofs.Chains
import Sentential.Proofs.Sketch.Stream

namespace Sentential

open Text Grammar

namespace LexemeStream

variable {s : LexemeStream} {xs : List Lexeme} {fault : Option LexicalError}

theorem results_of_exhausted (h : s.exhausted = true) : s.results = [] := if_pos h

/-- A stream gives its results one by one and then nothing for ever. -/
theorem draw_eq (n : Nat) (s : LexemeStream) :
    s.draw n = (List.range n).map fun i ↦ (s.results.map Logged.value)[i]? := by
  induction n generalizing s with
  | zero => rfl
  | succ n ih =>
    rw [draw, ih, List.range_succ_eq_map, List.map_cons, List.map_map, s.results_eq]
    cases hn : s.next.value with
    | mk r s' =>
      cases r with
      | none =>
        have he : s'.exhausted = true := exhausted_of_next hn (by simp)
        simp [results_of_exhausted he, Function.comp_def]
      | some r => rfl

theorem Yields.results_eq (h : s.Yields xs fault) :
    s.results.map Logged.value = xs.map .ok ++ fault.toList.map .error := by
  induction h with
  | nil h =>
    rw [LexemeStream.results_eq, h]
    rfl
  | error h =>
    have he := exhausted_of_next h (by simp)
    rw [LexemeStream.results_eq, h]
    simp [results_of_exhausted he]
  | cons h _ ih =>
    rw [LexemeStream.results_eq, h]
    simp [ih]

/-- What is left of the marks where the lexemes end. -/
inductive Ends : List Mark → Option LexicalError → Prop
  | clean : Ends [] none
  | early (expected : Expected) (openGroups : Nat) :
      Ends [] (some (.unexpectedEnd expected openGroups))
  | wrong {m : Mark} {ms : List Mark} {e : LexicalError} (h : e.position? = some m.position) :
      Ends (m :: ms) (some e)

theorem ends_ending (k : Context) : Ends [] k.ending := by
  rw [Context.ending]
  split
  · exact .clean
  · exact .early ..

/-- The lexemes of some marks are these marks with the kinds of their characters, up to where they
end; and they end without an error just if the marks are accepted. -/
theorem exists_yields_ends (k : Context) (ms : List Mark) :
    ∃ xs fault rest, Yields ⟨ms, k, false⟩ xs fault ∧ ms = xs.map Lexeme.toMark ++ rest ∧
      (∀ x ∈ xs, ∃ y : Sign, x.symbol = y.symbol ∧ x.kind = y.kind) ∧ Ends rest fault ∧
      (fault = none ↔ k.Accepts (ms.map Mark.symbol)) := by
  induction ms generalizing k with
  | nil =>
    exact ⟨[], k.ending, [], yields_of_ending k, rfl, fun x hx ↦ absurd hx List.not_mem_nil,
      ends_ending k, Context.accepts_nil_iff.symm⟩
  | cons m ms ih =>
    cases hm : k.read m with
    | error e =>
      have hp := Context.position?_of_read hm
      refine ⟨[], some e, m :: ms, yields_of_read_error hm, rfl,
        fun x hx ↦ absurd hx List.not_mem_nil, .wrong hp, ⟨nofun, fun ha ↦ ?_⟩⟩
      obtain ⟨x, k', hx, hs, -⟩ := Context.exists_step_of_accepts ha
      rw [Context.read_of_step hx hs] at hm
      cases hm
    | ok p =>
      obtain ⟨x, k'⟩ := p
      obtain ⟨y, hy, rfl, hs⟩ := Context.exists_step_of_read hm
      obtain ⟨xs, fault, rest, hys, rfl, hx, he, ha⟩ := ih k'
      refine ⟨⟨m, y.kind⟩ :: xs, fault, rest, yields_of_read_ok hm hys, rfl, ?_, he, ?_⟩
      · intro x hx'
        rcases List.mem_cons.1 hx' with rfl | hx'
        · exact ⟨y, hy, rfl⟩
        · exact hx x hx'
      · rw [ha, List.map_cons, hy, Context.accepts_cons_iff hs]

end LexemeStream

/-- The lexeme of the character that comes `i`-th in a text if blanks are not counted. -/
def Text.IsLexemeAt (text : List Char) (i : Nat) (x : Lexeme) : Prop :=
  VisibleAt text i x.position ∧ text[x.position]? = some x.symbol ∧
    ∃ y : Sign, x.symbol = y.symbol ∧ x.kind = y.kind

theorem Text.visibleAt_of_marks {text : List Char} {before after : List Mark} {m : Mark}
    (h : marks 0 text = before ++ m :: after) :
    VisibleAt text before.length m.position ∧ text[m.position]? = some m.symbol := by
  have hb : isBlank m.symbol = false := isBlank_of_mem_marks (h ▸ List.mem_append_cons_self)
  obtain ⟨front, back, rfl, hp, rfl, -⟩ := marks_eq_append_cons h
  rw [Nat.zero_add] at hp
  have hl : (visible front).length = (marks 0 front).length := by
    rw [← map_symbol_marks 0 front, List.length_map]
  refine ⟨⟨front, m.symbol, back, rfl, hb, hl, hp.symm⟩, ?_⟩
  rw [hp, List.getElem?_append_right (Nat.le_refl _), Nat.sub_self]
  rfl

open LexemeStream

/-- The lexemes of a text are its characters, blanks apart, each with its place and its kind. They
go on to the end of the text just if the text is a chain with no more than 256 groups open at once;
else one error follows. -/
theorem LexemeStream.draw_ofText (text : String) :
    ∃ (xs : List Lexeme) (fault : Option LexicalError),
      (∀ n, (ofText text).draw n =
        (List.range n).map fun i ↦ (xs.map .ok ++ fault.toList.map .error)[i]?) ∧
      (∀ i x, xs[i]? = some x → IsLexemeAt text.toList i x) ∧
      (fault = none ↔
        (∃ t : Chain, t.symbols = visible text.toList) ∧ nesting 0 (visible text.toList) ≤ 256) ∧
      (fault = none → xs.length = (visible text.toList).length) ∧
      ∀ e, fault = some e →
        (∀ n, e.position? = some n → VisibleAt text.toList xs.length n) ∧
        (e.position? = none → (∃ expected openGroups, e = .unexpectedEnd expected openGroups) ∧
          xs.length = (visible text.toList).length) := by
  obtain ⟨xs, fault, rest, hys, hm, hx, he, ha⟩ := exists_yields_ends {} (marks 0 text.toList)
  have hv : (visible text.toList).length = xs.length + rest.length := by
    rw [← map_symbol_marks 0, hm, List.length_map, List.length_append, List.length_map]
  rw [map_symbol_marks, accepts_iff] at ha
  refine ⟨xs, fault, ?_, ?_, ha, ?_, ?_⟩
  · intro n
    rw [draw_eq]
    have hr : (ofText text).results.map Logged.value = _ := hys.results_eq
    rw [hr]
  · intro i x hi
    obtain ⟨hl, rfl⟩ := List.getElem?_eq_some_iff.1 hi
    have hs : xs = xs.take i ++ xs[i] :: xs.drop (i + 1) := by
      rw [← List.drop_eq_getElem_cons hl, List.take_append_drop]
    rw [hs, List.map_append, List.map_cons, List.append_assoc] at hm
    obtain ⟨ha, hc⟩ := visibleAt_of_marks hm
    rw [List.length_map, List.length_take_of_le (Nat.le_of_lt hl)] at ha
    exact ⟨ha, hc, hx xs[i] (List.getElem_mem hl)⟩
  · rintro rfl
    cases he
    exact hv.symm
  · rintro e rfl
    cases he with
    | early expected openGroups =>
      exact ⟨nofun, fun _ ↦ ⟨⟨expected, openGroups, rfl⟩, hv.symm⟩⟩
    | wrong hp =>
      constructor
      · intro n hn
        rw [hp] at hn
        cases hn
        have h := (visibleAt_of_marks hm).1
        rwa [List.length_map] at h
      · intro hn
        rw [hp] at hn
        cases hn

end Sentential
