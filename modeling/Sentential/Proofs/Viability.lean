import Sentential.Proofs.Sketch.Refusal

namespace Sentential

open Text Grammar

theorem map_symbol_marks_symbols (position : Nat) (xs : List Sign) :
    (marks position (xs.map Sign.symbol)).map Mark.symbol = xs.map Sign.symbol := by
  rw [map_symbol_marks]
  refine List.filter_eq_self.2 fun c hc ↦ ?_
  obtain ⟨x, -, rfl⟩ := List.mem_map.1 hc
  rw [x.isBlank_symbol]
  rfl

namespace Grammar.Sketch

variable {s : Sketch} {text : List Char} {e : SyntaxError} {n : Nat}

theorem run_closings (limit : Nat) (t : Sentence) (outer : List Pending) {ms : List Mark}
    (h : ∀ m ∈ ms, m.symbol = Sign.closing.symbol) (hl : ms.length ≤ outer.length) :
    ∃ t', run limit ⟨.complete t, outer⟩ ms = .ok ⟨.complete t', outer.drop ms.length⟩ := by
  induction ms generalizing t outer with
  | nil => exact ⟨t, rfl⟩
  | cons m ms ih =>
    cases outer with
    | nil => cases hl
    | cons p outer =>
      have hm : m.symbol = Sign.closing.symbol := h m List.mem_cons_self
      have hms : ∀ m' ∈ ms, m'.symbol = Sign.closing.symbol :=
        fun m' hm' ↦ h m' (List.mem_cons_of_mem m hm')
      obtain ⟨t', ht⟩ := ih (p.fill t.enclose) outer hms (Nat.le_of_succ_le_succ hl)
      refine ⟨t', ?_⟩
      rw [run, step_of hm (.closing t p outer)]
      exact ht

theorem run_all_closings (limit : Nat) (t : Sentence) (outer : List Pending) {ms : List Mark}
    (h : ms.map Mark.symbol = List.replicate outer.length Sign.closing.symbol) :
    ∃ t', run limit ⟨.complete t, outer⟩ ms = .ok ⟨.complete t', []⟩ := by
  obtain ⟨hl, hm⟩ := List.eq_replicate_iff.1 h
  rw [List.length_map] at hl
  obtain ⟨t', ht⟩ := run_closings limit t outer
    (fun m hm' ↦ hm m.symbol (List.mem_map_of_mem hm')) (Nat.le_of_eq hl)
  rw [hl, List.drop_length] at ht
  exact ⟨t', ht⟩

/-- What completes a text: a letter, if an operand is missing, and parentheses for all groups. -/
def completion (v : Variable) (s : Sketch) : List Sign :=
  match s.draft with
  | .pending _ => .letter v :: List.replicate s.outer.length .closing
  | .complete _ => List.replicate s.outer.length .closing

theorem run_completion (limit : Nat) (v : Variable) (s : Sketch) {ms : List Mark}
    (h : ms.map Mark.symbol = (s.completion v).map Sign.symbol) :
    ∃ t, s.run limit ms = .ok ⟨.complete t, []⟩ := by
  obtain ⟨draft, outer⟩ := s
  cases draft with
  | pending p =>
    obtain ⟨m, xs, rfl, hm, hx⟩ := List.map_eq_cons_iff.1 h
    rw [List.map_replicate] at hx
    obtain ⟨t, ht⟩ := run_all_closings limit (p.fill (.letter v)) outer hx
    refine ⟨t, ?_⟩
    rw [run, step_of hm (.letter p v outer)]
    exact ht
  | complete t =>
    rw [completion, List.map_replicate] at h
    exact run_all_closings limit t outer h

theorem ofChars_append_completion (v : Variable) (hs : ofChars text = .ok s) :
    ∃ t, ofChars (text ++ (s.completion v).map Sign.symbol) = .ok ⟨.complete t, []⟩ := by
  obtain ⟨t, ht⟩ := s.run_completion Context.maxDepth v (map_symbol_marks_symbols text.length _)
  refine ⟨t, ?_⟩
  rw [ofChars_append, hs]
  exact ht

theorem Fails.exists_refused (h : Fails text e) (hn : e.position? = some n) :
    ∃ front c back s, text = front ++ c :: back ∧ front.length = n ∧ isBlank c = false ∧
      ofChars front = .ok s ∧ Refuses Context.maxDepth s ⟨c, front.length⟩ e := by
  cases h with
  | refused ht hc hs he =>
    rw [he.position?_eq] at hn
    exact ⟨_, _, _, _, ht, Option.some.inj hn, hc, hs, he⟩
  | ended hs he =>
    rw [error_of_finish he] at hn
    cases hn

theorem Fails.exists_ended (h : Fails text e) (hn : e.position? = none) :
    ∃ s, ofChars text = .ok s ∧ s.finish = .error e := by
  cases h with
  | refused ht hc hs he =>
    rw [he.position?_eq] at hn
    cases hn
  | ended hs he => exact ⟨_, hs, he⟩

end Grammar.Sketch

/-- Some continuation of the text can be read. -/
def Text.Viable (text : List Char) : Prop :=
  ∃ rest p, Parsed.ofText (String.ofList (text ++ rest)) = .ok p

theorem Text.viable_iff {text : List Char} : Viable text ↔ ∃ s, Sketch.ofChars text = .ok s := by
  constructor
  · rintro ⟨rest, p, hp⟩
    cases hs : Sketch.ofChars text with
    | ok s => exact ⟨s, rfl⟩
    | error e =>
      -- A wrong character is still the first wrong one, whatever follows.
      obtain ⟨front, c, back, s, rfl, hc, hf, he⟩ := Sketch.ofChars_eq_error_iff.1 hs
      have hfail : Sketch.Fails (front ++ c :: back ++ rest) e :=
        .refused (by rw [List.append_assoc, List.cons_append]) hc hf he
      rw [Parsed.ofText_eq_error_iff.2 (by rwa [String.toList_ofList])] at hp
      cases hp
  · rintro ⟨s, hs⟩
    obtain ⟨t, ht⟩ := Sketch.ofChars_append_completion ⟨0⟩ hs
    refine ⟨(s.completion ⟨0⟩).map Sign.symbol,
      ⟨t.reading.cancel, Signature.ofBits t.reading.occurrences⟩, ?_⟩
    rw [Parsed.ofText_eq_ofChars, String.toList_ofList, ht]
    rfl

theorem Text.not_viable_of_refuses {front : List Char} {c : Char} {s : Sketch} {e : SyntaxError}
    (hs : Sketch.ofChars front = .ok s) (hc : isBlank c = false)
    (h : Sketch.Refuses Context.maxDepth s ⟨c, front.length⟩ e) : ¬Viable (front ++ [c]) := by
  intro hv
  obtain ⟨s', hs'⟩ := viable_iff.1 hv
  rw [Sketch.ofChars_append_cons hs hc, Sketch.step_of_refuses h] at hs'
  cases hs'

theorem Text.exists_refuses {front : List Char} {c : Char} {s : Sketch}
    (hs : Sketch.ofChars front = .ok s) (h : ¬Viable (front ++ [c])) :
    isBlank c = false ∧ ∃ e, Sketch.Refuses Context.maxDepth s ⟨c, front.length⟩ e := by
  cases hc : isBlank c with
  | true =>
    refine absurd (viable_iff.2 ⟨s, ?_⟩) h
    rw [Sketch.ofChars_append, hs]
    simp [marks, hc, Except.bind, Sketch.run]
  | false =>
    refine ⟨rfl, ?_⟩
    cases hr : s.step Context.maxDepth ⟨c, front.length⟩ with
    | error e => exact ⟨e, Sketch.refuses_of_step hr⟩
    | ok s' =>
      refine absurd (viable_iff.2 ⟨s', ?_⟩) h
      rw [Sketch.ofChars_append_cons hs hc, hr]
      rfl

namespace Parsed

variable {text : String} {e : SyntaxError} {n : Nat}

theorem viable_take_of_error (he : ofText text = .error e) (hn : e.position? = some n) :
    n < text.toList.length ∧ Viable (text.toList.take n) ∧
      ¬Viable (text.toList.take (n + 1)) := by
  obtain ⟨front, c, back, s, ht, rfl, hc, hs, hr⟩ := (ofText_eq_error_iff.1 he).exists_refused hn
  have h₀ : text.toList.take front.length = front := by rw [ht, List.take_left]
  have h₁ : text.toList.take (front.length + 1) = front ++ [c] := by
    rw [ht, List.take_length_add_append, List.take_succ_cons, List.take_zero]
  rw [h₀, h₁]
  refine ⟨?_, viable_iff.2 ⟨s, hs⟩, not_viable_of_refuses hs hc hr⟩
  rw [ht, List.length_append, List.length_cons]
  omega

theorem exists_error_of_viable_take (hn : n < text.toList.length)
    (hv : Viable (text.toList.take n)) (hv' : ¬Viable (text.toList.take (n + 1))) :
    ∃ e, ofText text = .error e ∧ e.position? = some n := by
  have hl : (text.toList.take n).length = n := List.length_take_of_le (Nat.le_of_lt hn)
  have ht : text.toList = text.toList.take n ++ text.toList[n] :: text.toList.drop (n + 1) := by
    rw [← List.drop_eq_getElem_cons hn, List.take_append_drop]
  obtain ⟨s, hs⟩ := viable_iff.1 hv
  rw [List.take_add_one, List.getElem?_eq_getElem hn] at hv'
  obtain ⟨hc, e, he⟩ := exists_refuses hs hv'
  refine ⟨e, ofText_eq_error_iff.2 (.refused ht hc hs he), ?_⟩
  rw [he.position?_eq, hl]

theorem ofText_eq_error_of_isPrefix (he : ofText text = .error e) (hn : e.position? = some n)
    {text' : String} (h : text.toList.take (n + 1) <+: text'.toList) : ofText text' = .error e := by
  obtain ⟨front, c, back, s, ht, rfl, hc, hs, hr⟩ := (ofText_eq_error_iff.1 he).exists_refused hn
  obtain ⟨rest, h⟩ := h
  have ht' : text'.toList = front ++ c :: rest := by
    rw [← h, ht, List.take_length_add_append, List.take_succ_cons, List.take_zero,
      List.append_assoc, List.singleton_append]
  exact ofText_eq_error_iff.2 (.refused ht' hc hs hr)

theorem exists_error_without_position_iff :
    (∃ e, ofText text = .error e ∧ e.position? = none) ↔
      Viable text.toList ∧ ∀ p, ofText text ≠ .ok p := by
  constructor
  · rintro ⟨e, he, hn⟩
    obtain ⟨s, hs, -⟩ := (ofText_eq_error_iff.1 he).exists_ended hn
    refine ⟨viable_iff.2 ⟨s, hs⟩, fun p hp ↦ ?_⟩
    rw [he] at hp
    cases hp
  · rintro ⟨hv, hp⟩
    obtain ⟨s, hs⟩ := viable_iff.1 hv
    cases hf : s.finish with
    | error e =>
      refine ⟨e, ofText_eq_error_iff.2 (.ended hs hf), ?_⟩
      rw [Sketch.error_of_finish hf]
      rfl
    | ok t =>
      refine absurd ?_ (hp ⟨t.reading.cancel, Signature.ofBits t.reading.occurrences⟩)
      rw [ofText_eq_ofChars, hs]
      simp only [Except.bind, hf, Except.map]

/-- The correct prefix property. An error has the place of the first character that no continuation
can follow; an error without a place says that only a continuation can be read. -/
theorem ofText_viable_prefix (text : String) :
    (∀ n, (∃ e, ofText text = .error e ∧ e.position? = some n) ↔
      n < text.toList.length ∧ Viable (text.toList.take n) ∧
        ¬Viable (text.toList.take (n + 1))) ∧
    (∀ e n, ofText text = .error e → e.position? = some n →
      ∀ text' : String, text.toList.take (n + 1) <+: text'.toList → ofText text' = .error e) ∧
    ((∃ e, ofText text = .error e ∧ e.position? = none) ↔
      Viable text.toList ∧ ∀ p, ofText text ≠ .ok p) := by
  refine ⟨fun n ↦ ⟨?_, ?_⟩, ?_, exists_error_without_position_iff⟩
  · rintro ⟨e, he, hn⟩
    exact viable_take_of_error he hn
  · rintro ⟨hn, hv, hv'⟩
    exact exists_error_of_viable_take hn hv hv'
  · intro e n he hn text' h
    exact ofText_eq_error_of_isPrefix he hn h

end Parsed

end Sentential
