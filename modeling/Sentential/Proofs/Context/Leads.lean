import Sentential.Proofs.Context
import Sentential.Proofs.Sketch.Stream

namespace Sentential

open Text Grammar

theorem Text.count_visible {c : Char} (hc : isBlank c = false) (text : List Char) :
    (visible text).count c = text.count c :=
  List.count_filter (by rw [hc]; rfl)

namespace Context

/-- The visible characters that lead from one context to another. -/
inductive Leads : Context → List Char → Context → Prop
  | nil (k : Context) : Leads k [] k
  | cons {k k' k'' : Context} {x : Sign} {text : List Char} (h : Step k x k')
      (ht : Leads k' text k'') : Leads k (x.symbol :: text) k''

variable {k k' : Context} {x : Sign} {text : List Char}

theorem Step.count_eq (h : Step k x k') :
    [x.symbol].count '(' + k.depth = [x.symbol].count ')' + k'.depth := by
  simp only [List.count_singleton, beq_iff_eq, Sign.symbol_eq_opening, Sign.symbol_eq_closing]
  cases h with
  | opening d | closing d => simp [Nat.add_comm]
  | _ => simp

namespace Leads

theorem count_eq (h : Leads k text k') : text.count '(' + k.depth = text.count ')' + k'.depth := by
  induction h with
  | nil => rfl
  | @cons k k₁ k' x text h _ ih =>
    have hx := h.count_eq
    rw [← List.singleton_append, List.count_append, List.count_append]
    omega

theorem count_eq_of_start (h : Leads {} (visible text) k) :
    text.count '(' = text.count ')' + k.depth := by
  rw [← count_visible (c := '(') (by decide) text, ← count_visible (c := ')') (by decide) text]
  exact h.count_eq

theorem depth_le (h : Leads k text k') (hk : k.depth ≤ maxDepth) : k'.depth ≤ maxDepth := by
  induction h with
  | nil => exact hk
  | cons h _ ih => exact ih (h.depth_le hk)

end Leads

end Context

namespace LexemeStream

variable {k k' : Context} {ms before : List Mark} {xs : List Lexeme} {e : LexicalError} {n : Nat}

/-- An error with a place comes from the character that stands there, in the context that the
characters before it lead to. -/
theorem Yields.exists_leads (h : Yields ⟨ms, k, false⟩ xs (some e)) (hn : e.position? = some n) :
    ∃ before m after k', ms = before ++ m :: after ∧ k.Leads (before.map Mark.symbol) k' ∧
      k'.read m = .error e := by
  induction ms generalizing k xs with
  | nil =>
    obtain ⟨-, he⟩ := (yields_of_ending k).unique h
    rw [Context.ending] at he
    split at he <;> cases he
    cases hn
  | cons m ms ih =>
    cases hm : k.read m with
    | error e' =>
      obtain ⟨-, he⟩ := (yields_of_read_error hm).unique h
      cases he
      exact ⟨[], m, ms, k, rfl, .nil k, hm⟩
    | ok p =>
      obtain ⟨ys, fault, hys⟩ := exists_yields p.2 ms
      obtain ⟨-, rfl⟩ := (yields_of_read_ok hm hys).unique h
      obtain ⟨before, m', after, k', rfl, hl, he⟩ := ih hys
      obtain ⟨x, hx, -, hs⟩ := Context.exists_step_of_read hm
      refine ⟨m :: before, m', after, k', rfl, ?_, he⟩
      rw [List.map_cons, hx]
      exact .cons hs hl

/-- Characters that lead to a context yield their lexemes, and then what follows there. -/
theorem exists_yields_of_leads (h : k.Leads (before.map Mark.symbol) k') :
    ∃ xs, xs.map Lexeme.toMark = before ∧ ∀ ms ys fault, Yields ⟨ms, k', false⟩ ys fault →
      Yields ⟨before ++ ms, k, false⟩ (xs ++ ys) fault := by
  induction before generalizing k with
  | nil =>
    cases h
    exact ⟨[], rfl, fun _ _ _ hy ↦ hy⟩
  | cons m before ih =>
    generalize ht : (m :: before).map Mark.symbol = text at h
    cases h with
    | nil => cases ht
    | cons hs hl =>
      obtain ⟨hm, rfl⟩ := List.cons.inj ht
      obtain ⟨xs, rfl, hy⟩ := ih hl
      exact ⟨_ :: xs, rfl, fun ms ys fault h ↦
        yields_of_read_ok (Context.read_of_step hm hs) (hy ms ys fault h)⟩

end LexemeStream

namespace Grammar.Sketch

variable {s s' : Sketch} {ms : List Mark} {text : List Char}

theorem leads_of_run (h : s.run Context.maxDepth ms = .ok s') :
    s.reader.context.Leads (ms.map Mark.symbol) s'.reader.context := by
  induction ms generalizing s with
  | nil =>
    cases h
    exact .nil _
  | cons m ms ih =>
    obtain ⟨x, s₁, hm, hx, h⟩ := exists_step_of_run h
    obtain ⟨y, hy, -, hk⟩ := Context.exists_step_of_read (hx.read hm)
    rw [List.map_cons, hy]
    exact .cons hk (ih h)

theorem count_eq_of_ofChars (hs : ofChars text = .ok s) :
    text.count '(' = text.count ')' + s.outer.length := by
  have h := leads_of_run hs
  rw [map_symbol_marks] at h
  exact h.count_eq_of_start

end Grammar.Sketch

end Sentential
