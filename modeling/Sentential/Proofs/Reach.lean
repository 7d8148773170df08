import Sentential.Proofs.Sketch.Stream

namespace Sentential

open Grammar

/-- The groups that are being read, inside out. The last one is the whole text. -/
def Nest.groups (n : Nest) : List Group := n.group :: n.outer

namespace Parsed

/-- The states that reading a text goes through, each before the next lexeme is drawn. -/
inductive Reaches (text : String) : LexemeStream → Nest → Prop
  | start : Reaches text (.ofText text) {}
  | step {s s' : LexemeStream} {n n' : Nest} {x : Lexeme} (h : Reaches text s n)
      (hx : s.next.value = (some (.ok x), s')) (hn : n.step x = .ok n') : Reaches text s' n'

namespace Reaches

variable {text : String} {s : LexemeStream} {n : Nest}

/-- What becomes of a text can be told from each of its states. -/
theorem value_run (h : Reaches text s n) :
    (Nest.run {} (LexemeStream.ofText text).results).value = (n.run s.results).value := by
  induction h with
  | start => rfl
  | step _ hx hn ih =>
    rw [ih, LexemeStream.results_eq, hx, Nest.value_run_cons, hn]
    rfl

theorem exists_sketch (h : Reaches text s n) :
    ∃ (before : List Mark) (k : Sketch), marks 0 text.toList = before ++ s.rest ∧
      Sketch.run Context.maxDepth {} before = .ok k ∧ k.reader = ⟨s.context, n⟩ ∧
      s.exhausted = false := by
  induction h with
  | start => exact ⟨[], {}, rfl, rfl, rfl, rfl⟩
  | @step s s' n n' x _ hx hn ih =>
    obtain ⟨before, k, hm, hr, hk, -⟩ := ih
    obtain ⟨m, ms, c, hs, hread, rfl⟩ := LexemeStream.exists_mark_of_next hx
    have hstep : k.reader.step m = .ok ⟨c, n'⟩ := by
      rw [hk, Reader.step]
      simp only [hread, hn]
      rfl
    rw [k.step_reader] at hstep
    cases hk' : k.step Context.maxDepth m with
    | error e => rw [hk'] at hstep; cases hstep
    | ok k' =>
      rw [hk'] at hstep
      refine ⟨before ++ [m], k', ?_, ?_, Except.ok.inj hstep, rfl⟩
      · rw [hm, hs, List.append_assoc]
        rfl
      · rw [Sketch.run_append, hr]
        simp only [Except.bind, Sketch.run, hk']

theorem length_outer_le (h : Reaches text s n) : n.outer.length ≤ Context.maxDepth := by
  obtain ⟨before, k, -, hr, hk, -⟩ := h.exists_sketch
  obtain ⟨hl, hn⟩ := Sketch.run_level hr (Nat.zero_le _)
  have ho : n.outer.length = k.outer.length := by
    rw [← congrArg (·.nest.outer.length) hk]
    exact List.length_map _
  rw [ho, ← hl]
  exact Nat.le_trans (Text.level_le_nesting ..) hn

end Reaches

end Parsed

end Sentential
