import Sentential.Proofs.Classification
import Sentential.Proofs.Lockstep

namespace Sentential

open Text Grammar

/-- What is logged about a lexeme that is handed on. -/
def Lexeme.entries (x : Lexeme) : List Entry :=
  if x.kind = .opening then [.lexeme x, .entering x.position] else [.lexeme x]

/-- What is logged about a text once it has been read and, where there is one, its table is made. -/
def Parsed.entries : Except SyntaxError Parsed → List Entry
  | .error _ => []
  | .ok p =>
    .parsed p.statement p.signature.size ::
      if p.signature.isEmpty then [] else [.evaluated (2 ^ p.signature.size) p.statement]

/-- What is written of an entry. -/
def Entry.line (a : Entry) : Level × String := (a.level, a.message)

/-- What the log calls a character. -/
def kindName : Char → String
  | '0' => "False"
  | '1' => "True"
  | '!' => "Negate"
  | '(' => "OpenGroup"
  | ')' => "CloseGroup"
  | '&' | '|' | '^' | '>' | '=' => "Operator"
  | _ => "Variable"

/-- The lines about a character that is handed on as a lexeme. -/
def Mark.logLines (m : Mark) : List (Level × String) :=
  let lexeme := "lexeme " ++ kindName m.symbol ++ " '" ++ String.singleton m.symbol ++ "' at " ++
    toString m.position
  if m.symbol = '(' then [(.trace, lexeme), (.trace, "entering group at " ++ toString m.position)]
  else [(.trace, lexeme)]

/-- The lines about what has come of a text. -/
def Parsed.logLines : Except SyntaxError Parsed → List (Level × String)
  | .error _ => []
  | .ok p =>
    let parsed := "parsed " ++ p.statement.render ++ " with " ++ toString p.signature.size ++
      " variable(s)"
    let evaluated := "evaluated " ++ toString (2 ^ p.signature.size) ++ " rows of " ++
      p.statement.render
    if p.signature.size = 0 then [(.debug, parsed)] else [(.debug, parsed), (.debug, evaluated)]

theorem kindName_symbol (x : Sign) : kindName x.symbol = x.kind.name := by
  cases x with
  | operator op => cases op <;> rfl
  | letter v =>
    obtain ⟨i⟩ := v
    revert i
    decide
  | _ => rfl

theorem Lexeme.map_line_entries {x : Lexeme} (h : LexemeKind.ofChar? x.symbol = some x.kind) :
    x.entries.map Entry.line = x.toMark.logLines := by
  obtain ⟨⟨c, position⟩, kind⟩ := x
  rw [← Sign.map_kind_ofChar?] at h
  obtain ⟨y, hy, rfl⟩ := Option.map_eq_some_iff.1 h
  obtain rfl := Sign.symbol_of_ofChar? hy
  have hm : Entry.message (.lexeme ⟨⟨y.symbol, position⟩, y.kind⟩) =
      "lexeme " ++ kindName y.symbol ++ " '" ++ String.singleton y.symbol ++ "' at " ++
        toString position := by
    rw [kindName_symbol]
    rfl
  have ho : y.kind = .opening ↔ y.symbol = '(' := by
    change _ ↔ y.symbol = Sign.opening.symbol
    rw [Sign.symbol_inj]
    cases y <;> simp [Sign.kind]
  simp only [entries, Mark.logLines, ho, ← hm]
  split <;> rfl

theorem Parsed.map_line_entries (r : Except SyntaxError Parsed) :
    (entries r).map Entry.line = logLines r := by
  cases r with
  | error e => rfl
  | ok p =>
    have hs : p.signature.isEmpty = true ↔ p.signature.size = 0 := by
      simp [Signature.isEmpty, Signature.size]
    simp only [entries, hs, logLines]
    split <;> rfl

theorem Lexeme.level_of_mem_entries {x : Lexeme} {a : Entry} (h : a ∈ x.entries) :
    a.level = .trace := by
  by_cases hx : x.kind = .opening
  · rw [entries, if_pos hx, List.mem_cons, List.mem_singleton] at h
    rcases h with rfl | rfl <;> rfl
  · rw [entries, if_neg hx, List.mem_singleton] at h
    rw [h]
    rfl

theorem Parsed.level_of_mem_entries {r : Except SyntaxError Parsed} {a : Entry}
    (h : a ∈ entries r) : a.level = .debug := by
  cases r with
  | error e => cases h
  | ok p =>
    rcases List.mem_cons.1 h with rfl | h
    · rfl
    · split at h
      · cases h
      · cases List.mem_singleton.1 h
        rfl

namespace Nest

variable {n : Nest} {x : Lexeme}

/-- A group takes an opening parenthesis only where it waits for an operand, so each that is handed
on is logged as the start of a group. -/
theorem cons_notes {xs : List Lexeme} {k k' : Context} {m : Mark} (h : InStep xs k n)
    (hk : k.read m = .ok (x, k')) : .lexeme x :: n.notes x = x.entries := by
  by_cases hx : x.kind = .opening
  · have hp : n.group.phase = .operand := by
      obtain ⟨y, -, rfl, hs⟩ := Context.exists_step_of_read hk
      cases hs with
      | opening d hd => exact h.value_iff.1 rfl
      | _ => cases hx
    rw [notes, Lexeme.entries, if_pos ⟨hp, hx⟩, if_pos hx]
  · rw [notes, Lexeme.entries, if_neg fun h ↦ hx h.2, if_neg hx]

theorem entries_run_cons (n : Nest) (entries : List Entry) (x : Lexeme)
    (rs : List (Logged (Except LexicalError Lexeme))) :
    (n.run (⟨entries, .ok x⟩ :: rs)).entries = entries ++ (n.notes x ++
      match n.step x with
      | .error _ => []
      | .ok n' => (n'.run rs).entries) := by
  simp only [run, Logged.entries_bind, Logged.entries_write]
  cases n.step x <;> rfl

end Nest

namespace LexemeStream

variable {s s' : LexemeStream}

theorem eq_told_of_mem_results {y : Logged (Except LexicalError Lexeme)} (h : y ∈ s.results) :
    y = told y.value := by
  unfold results at h
  split at h
  · cases h
  · obtain ⟨r, -, rfl⟩ := List.mem_map.1 h
    cases r <;> rfl

theorem entries_next {r : Except LexicalError Lexeme} (h : s.next.value = (some r, s')) :
    s.next.entries = (told r).entries := by
  have hm : ⟨s.next.entries, r⟩ ∈ s.results := by
    rw [s.results_eq, h]
    exact List.mem_cons_self
  exact congrArg Logged.entries (eq_told_of_mem_results hm)

theorem rest_of_next_ok {x : Lexeme} (h : s.next.value = (some (.ok x), s')) :
    s.rest = x.toMark :: s'.rest := by
  obtain ⟨m, ms, k, hs, hk, rfl⟩ := exists_mark_of_next h
  obtain ⟨y, -, rfl, -⟩ := Context.exists_step_of_read hk
  rw [hs]

theorem ofChar?_of_next {x : Lexeme} (h : s.next.value = (some (.ok x), s')) :
    LexemeKind.ofChar? x.symbol = some x.kind := by
  obtain ⟨m, ms, k, -, hk, -⟩ := exists_mark_of_next h
  obtain ⟨y, hy, rfl, -⟩ := Context.exists_step_of_read hk
  rw [hy, ← Sign.map_kind_ofChar?, Sign.ofChar?_symbol]
  rfl

theorem rest_of_next_none (h : s.next.value = (none, s')) (hs : s.exhausted = false) :
    s.rest = [] ∧ s.context.ending = none := by
  obtain ⟨rest, k, exhausted⟩ := s
  obtain rfl : exhausted = false := hs
  cases rest with
  | nil =>
    cases hk : k.ending with
    | none => exact ⟨rfl, rfl⟩
    | some e => simp [next, hk] at h
  | cons m ms => cases hk : k.read m <;> simp [next, hk] at h

theorem rest_of_next_error {e : LexicalError} (h : s.next.value = (some (.error e), s')) :
    (s.rest = [] ∧ e.position? = none) ∨
      ∃ m ms, s.rest = m :: ms ∧ e.position? = some m.position := by
  obtain ⟨rest, k, exhausted⟩ := s
  cases exhausted with
  | true => cases h
  | false =>
    cases rest with
    | nil =>
      cases hk : k.ending with
      | none => simp [next, hk] at h
      | some e' =>
        simp only [next, hk] at h
        cases h
        rw [Context.ending] at hk
        split at hk <;> cases hk
        exact .inl ⟨rfl, rfl⟩
    | cons m ms =>
      cases hk : k.read m with
      | ok p => simp [next, hk] at h
      | error e' =>
        simp only [next, hk, Bool.false_eq_true, if_false] at h
        cases h
        exact .inr ⟨m, ms, rfl, Context.position?_of_read hk⟩

end LexemeStream

namespace Parsed

variable {text : String} {xs : List Lexeme} {s s' : LexemeStream} {n : Nest} {x : Lexeme}
variable {r : Except SyntaxError (Statement × Nat)}

namespace Draws

theorem marks_eq (h : Draws text xs s n) :
    marks 0 text.toList = xs.map Lexeme.toMark ++ s.rest := by
  induction h with
  | start => rfl
  | step _ hx _ ih =>
    rw [ih, LexemeStream.rest_of_next_ok hx, List.map_append, List.append_assoc]
    rfl

theorem ofChar?_symbol (h : Draws text xs s n) :
    ∀ x ∈ xs, LexemeKind.ofChar? x.symbol = some x.kind := by
  induction h with
  | start => simp
  | @step xs s s' n n' x _ hx _ ih =>
    exact List.forall_mem_append.2
      ⟨ih, List.forall_mem_singleton.2 (LexemeStream.ofChar?_of_next hx)⟩

/-- The stream and the groups together log a lexeme in full, whether or not it is taken. -/
theorem entries_run_results (h : Draws text xs s n) (hx : s.next.value = (some (.ok x), s')) :
    (n.run s.results).entries = x.entries ++
      match n.step x with
      | .error _ => []
      | .ok n' => (n'.run s'.results).entries := by
  obtain ⟨m, ms, k, -, hk, -⟩ := LexemeStream.exists_mark_of_next hx
  rw [s.results_eq, hx, Nest.entries_run_cons, LexemeStream.entries_next hx,
    ← Nest.cons_notes h.inStep hk]
  rfl

theorem entries_run (h : Draws text xs s n) :
    (Nest.run {} (LexemeStream.ofText text).results).entries =
      xs.flatMap Lexeme.entries ++ (n.run s.results).entries := by
  induction h with
  | start => rfl
  | step h hx hn ih =>
    rw [ih, h.entries_run_results hx, hn, List.flatMap_append, List.append_assoc,
      List.flatMap_singleton]

/-- A group refuses a lexeme that is handed on only for being a second operator. -/
theorem refusal_eq {e : SyntaxError} (h : Draws text xs s n)
    (hx : s.next.value = (some (.ok x), s')) (hn : n.step x = .error e) :
    e = .chainedOperator x.symbol x.position ∧ x.kind = .operator := by
  obtain ⟨m, ms, k, -, hk, -⟩ := LexemeStream.exists_mark_of_next hx
  obtain ⟨before, t, -, -, ht, -⟩ := h.reaches.exists_sketch
  have hr : t.reader.step m = .error e := by
    rw [ht, Reader.step]
    simp only [hk, hn]
    rfl
  rw [t.step_reader] at hr
  cases hs : t.step Context.maxDepth m with
  | ok t' => rw [hs] at hr; cases hr
  | error e' =>
    rw [hs] at hr
    obtain rfl := Except.error.inj hr
    have hf := Sketch.refuses_of_step hs
    -- What is wrong with a character alone keeps its lexeme from being drawn.
    have hl (e : LexicalError) : e' ≠ .lexical e := by
      rintro rfl
      have he := hf.read
      rw [ht, hk] at he
      cases he
    cases hf with
    | chained l op r outer _ op' hm =>
      obtain ⟨y, hy, rfl, -⟩ := Context.exists_step_of_read hk
      obtain rfl := Sign.symbol_injective (hy.symm.trans hm)
      exact ⟨rfl, rfl⟩
    | _ => exact absurd rfl (hl _)

theorem finish_ne_error {e : SyntaxError} (h : Draws text xs s n) (hx : s.next.value = (none, s')) :
    n.finish ≠ .error e := by
  intro hn
  obtain ⟨before, t, -, -, ht, he⟩ := h.reaches.exists_sketch
  obtain ⟨-, hs⟩ := LexemeStream.rest_of_next_none hx he
  have hr : t.reader.finish = .error e := by
    rw [ht, Reader.finish]
    simp only [hs, hn]
  rw [t.finish_reader] at hr
  cases hf : t.finish with
  | ok u => rw [hf] at hr; cases hr
  | error e' =>
    obtain ⟨e'', -, hk⟩ := Sketch.ending_of_finish_error hf
    rw [ht, hs] at hk
    cases hk

end Draws

/-- A reading as a whole: the lexemes that are handed on and what is made of them. -/
inductive Hands (text : String) : List Lexeme → Except SyntaxError (Statement × Nat) → Prop
  | ended {xs : List Lexeme} {s s' : LexemeStream} {n : Nest}
      {r : Except SyntaxError (Statement × Nat)} (h : Draws text xs s n)
      (hx : s.next.value = (none, s')) (hr : n.finish = r) : Hands text xs r
  | wrong {xs : List Lexeme} {s s' : LexemeStream} {n : Nest} {e : LexicalError}
      (h : Draws text xs s n) (hx : s.next.value = (some (.error e), s')) :
      Hands text xs (.error (.lexical e))
  | refused {xs : List Lexeme} {s s' : LexemeStream} {n : Nest} {x : Lexeme} {e : SyntaxError}
      (h : Draws text xs s n) (hx : s.next.value = (some (.ok x), s')) (hn : n.step x = .error e) :
      Hands text (xs ++ [x]) (.error e)

theorem Draws.exists_hands {xs : List Lexeme} {s : LexemeStream} {n : Nest}
    (h : Draws text xs s n) : ∃ ys r, Hands text ys r := by
  cases hs : s.next.value with
  | mk y s' =>
    cases y with
    | none => exact ⟨xs, _, .ended h hs rfl⟩
    | some y =>
      cases y with
      | error e => exact ⟨xs, _, .wrong h hs⟩
      | ok x =>
        cases hn : n.step x with
        | error e => exact ⟨_, _, .refused h hs hn⟩
        | ok n' =>
          have hl : s'.rest.length < s.rest.length := by
            rw [LexemeStream.rest_of_next_ok hs]
            exact Nat.lt_succ_self _
          exact (h.step hs hn).exists_hands
termination_by s.rest.length

theorem exists_hands (text : String) : ∃ xs r, Hands text xs r :=
  (@Draws.start text).exists_hands

namespace Hands

theorem value_run (h : Hands text xs r) :
    (Nest.run {} (LexemeStream.ofText text).results).value = r := by
  cases h with
  | ended h hx hr =>
    rw [h.reaches.value_run, LexemeStream.results_eq, hx]
    exact hr
  | wrong h hx =>
    rw [h.reaches.value_run, LexemeStream.results_eq, hx]
    rfl
  | refused h hx hn =>
    rw [h.reaches.value_run, LexemeStream.results_eq, hx, Nest.value_run_cons, hn]
    rfl

theorem ofText_eq (h : Hands text xs r) :
    ofText text = r.map fun p ↦ ⟨p.1, Signature.ofBits p.2⟩ := by
  rw [ofText, read, Logged.value_bind, Logged.value_bind, h.value_run]
  cases r <;> rfl

theorem exists_eq_ok {p : Parsed} (h : Hands text xs r) (hp : ofText text = .ok p) :
    ∃ q, r = .ok q := by
  rw [h.ofText_eq] at hp
  cases r with
  | error e => cases hp
  | ok q => exact ⟨q, rfl⟩

theorem eq_error {e : SyntaxError} (h : Hands text xs r) (he : ofText text = .error e) :
    r = .error e := by
  rw [h.ofText_eq] at he
  cases r with
  | error e' => cases he; rfl
  | ok q => cases he

theorem entries_run (h : Hands text xs r) :
    (Nest.run {} (LexemeStream.ofText text).results).entries = xs.flatMap Lexeme.entries := by
  cases h with
  | ended h hx =>
    rw [h.entries_run, LexemeStream.results_eq, hx]
    exact List.append_nil _
  | wrong h hx =>
    rw [h.entries_run, LexemeStream.results_eq, hx, LexemeStream.entries_next hx]
    exact List.append_nil _
  | refused h hx hn =>
    rw [h.entries_run, h.entries_run_results hx, hn, List.append_nil, List.flatMap_append,
      List.flatMap_singleton]

theorem entries_read (h : Hands text xs r) : (read text).entries =
    .parsing text :: (xs.flatMap Lexeme.entries ++
      match ofText text with
      | .error _ => []
      | .ok p => [.parsed p.statement p.signature.size]) := by
  rw [ofText, read, Logged.entries_bind, Logged.entries_bind, Logged.value_bind, Logged.value_bind,
    h.entries_run]
  cases (Nest.run {} (LexemeStream.ofText text).results).value <;> rfl

theorem ofChar?_symbol (h : Hands text xs r) :
    ∀ x ∈ xs, LexemeKind.ofChar? x.symbol = some x.kind := by
  cases h with
  | ended h | wrong h => exact h.ofChar?_symbol
  | refused h hx =>
    exact List.forall_mem_append.2
      ⟨h.ofChar?_symbol, List.forall_mem_singleton.2 (LexemeStream.ofChar?_of_next hx)⟩

theorem marks_eq_of_ok {p : Statement × Nat} (h : Hands text xs (.ok p)) :
    xs.map Lexeme.toMark = marks 0 text.toList := by
  cases h with
  | ended h hx hr =>
    obtain ⟨-, -, -, -, -, he⟩ := h.reaches.exists_sketch
    obtain ⟨hs, -⟩ := LexemeStream.rest_of_next_none hx he
    rw [h.marks_eq, hs, List.append_nil]

theorem marks_eq_of_lexical {e : LexicalError} (h : Hands text xs (.error (.lexical e))) :
    xs.map Lexeme.toMark = marks 0 (text.toList.take (e.position?.getD text.length)) := by
  cases h with
  | ended h hx hr => exact absurd hr (h.finish_ne_error hx)
  | wrong h hx =>
    have hm := h.marks_eq
    obtain ⟨hs, he⟩ | ⟨m, ms, hs, he⟩ := LexemeStream.rest_of_next_error hx
    · rw [he, Option.getD_none, ← String.length_toList, List.take_length, hm, hs, List.append_nil]
    · rw [hs] at hm
      rw [he, Option.getD_some, (marks_take hm).1]
  | refused h hx hn => cases (h.refusal_eq hx hn).1

theorem marks_eq_of_chained {c : Char} {p : Nat}
    (h : Hands text xs (.error (.chainedOperator c p))) :
    xs.map Lexeme.toMark = marks 0 (text.toList.take (p + 1)) ∧
      xs.getLast? = some ⟨⟨c, p⟩, .operator⟩ := by
  cases h with
  | ended h hx hr => exact absurd hr (h.finish_ne_error hx)
  | @refused xs s s' n x e h hx hn =>
    obtain ⟨he, hk⟩ := h.refusal_eq hx hn
    obtain ⟨⟨c, p⟩, kind⟩ := x
    cases he
    obtain rfl : kind = .operator := hk
    have hm := h.marks_eq
    rw [LexemeStream.rest_of_next_ok hx] at hm
    refine ⟨?_, List.getLast?_concat⟩
    rw [List.map_append]
    exact (marks_take hm).2.symm

end Hands

end Parsed

namespace TruthTable

theorem entries_tabulate (plan : Partition) (p : Parsed) : (tabulate plan p).entries =
    if p.signature.isEmpty then [] else [.evaluated (2 ^ p.signature.size) p.statement] := by
  rw [tabulate, Signature.mapAssignments]
  cases p.signature.isEmpty with
  | true => rfl
  | false =>
    have hl : (plan.map (fun value ↦ p.statement.evaluate ⟨p.signature, value⟩) 0
        p.signature.assignmentCount).length = 2 ^ p.signature.size := by
      rw [plan.map_eq, List.length_map, List.length_range', p.signature.assignmentCount_eq]
      rfl
    exact congrArg (fun rows ↦ [Entry.evaluated rows p.statement]) hl

theorem entries_read (plan : Partition) {text : String} {xs : List Lexeme}
    {r : Except SyntaxError (Statement × Nat)} (h : Parsed.Hands text xs r) :
    (read plan text).entries =
      .parsing text :: (xs.flatMap Lexeme.entries ++ Parsed.entries (Parsed.ofText text)) := by
  rw [read, Logged.entries_bind, h.entries_read, ← Parsed.ofText]
  cases Parsed.ofText text with
  | error e => simp [Parsed.entries]
  | ok p => simp [Parsed.entries, entries_tabulate]

theorem trace_read (plan : Partition) {text : String} {xs : List Lexeme}
    {r : Except SyntaxError (Statement × Nat)} (h : Parsed.Hands text xs r) :
    (read plan text).upTo .trace =
      .parsing text :: (xs.flatMap Lexeme.entries ++ Parsed.entries (Parsed.ofText text)) :=
  (read plan text).upTo_trace.trans (entries_read plan h)

theorem debug_read (plan : Partition) (text : String) :
    (read plan text).upTo .debug = .parsing text :: Parsed.entries (Parsed.ofText text) := by
  obtain ⟨xs, r, h⟩ := Parsed.exists_hands text
  have hl : ∀ a ∈ xs.flatMap Lexeme.entries, ¬decide (a.level ≠ .trace) = true := by
    intro a ha
    obtain ⟨x, -, ha⟩ := List.mem_flatMap.1 ha
    simp [Lexeme.level_of_mem_entries ha]
  have hd : ∀ a ∈ Parsed.entries (Parsed.ofText text), decide (a.level ≠ .trace) = true := by
    intro a ha
    rw [Parsed.level_of_mem_entries ha]
    rfl
  rw [Logged.upTo_debug, trace_read plan h, List.filter_cons_of_pos rfl, List.filter_append,
    List.filter_eq_nil_iff.2 hl, List.filter_eq_self.2 hd, List.nil_append]

theorem info_read (plan : Partition) (text : String) : (read plan text).upTo .info = [] := by
  have hd : ∀ a ∈ (read plan text).upTo .debug, ¬a.level.rank ≤ Level.info.rank := by
    intro a ha
    rw [debug_read] at ha
    rcases List.mem_cons.1 ha with rfl | ha
    · exact of_decide_eq_false rfl
    · rw [Parsed.level_of_mem_entries ha]
      exact of_decide_eq_false rfl
  rw [Logged.upTo_info]
  exact List.filter_eq_nil_iff.2 fun a ha hc ↦ hd a ha (of_decide_eq_true hc)

theorem lines_trace_read (plan : Partition) {text : String} {xs : List Lexeme}
    {r : Except SyntaxError (Statement × Nat)} (h : Parsed.Hands text xs r) :
    ((read plan text).upTo .trace).map Entry.line = (.debug, "parsing " ++ quoted text) ::
      ((xs.map Lexeme.toMark).flatMap Mark.logLines ++
        Parsed.logLines (Parsed.ofText text)) := by
  have hx : (xs.flatMap Lexeme.entries).map Entry.line =
      (xs.map Lexeme.toMark).flatMap Mark.logLines := by
    rw [List.map_flatMap, List.flatMap_map, List.flatMap_def, List.flatMap_def]
    exact congrArg List.flatten
      (List.map_congr_left fun x hx ↦ Lexeme.map_line_entries (h.ofChar?_symbol x hx))
  rw [trace_read plan h, List.map_cons, List.map_append, hx, Parsed.map_line_entries]
  rfl

theorem lines_debug_read (plan : Partition) (text : String) :
    ((read plan text).upTo .debug).map Entry.line =
      (.debug, "parsing " ++ quoted text) :: Parsed.logLines (Parsed.ofText text) := by
  rw [debug_read, List.map_cons, Parsed.map_line_entries]
  rfl

/-- What is logged while a text is read and tabulated: the text, each lexeme that is handed on, with
the group that it opens, and in the end what has come of the text. The lexemes are all of the text
if it can be read, those in front of a wrong character, and those up to a second operator. -/
theorem log_read (plan : Partition) (text : String) :
    ∃ xs r, Parsed.Hands text xs r ∧
      (∀ x ∈ xs, LexemeKind.ofChar? x.symbol = some x.kind) ∧
      (read plan text).upTo .trace =
        .parsing text :: (xs.flatMap Lexeme.entries ++ Parsed.entries (Parsed.ofText text)) ∧
      ((read plan text).upTo .trace).map Entry.line = (.debug, "parsing " ++ quoted text) ::
        ((xs.map Lexeme.toMark).flatMap Mark.logLines ++
          Parsed.logLines (Parsed.ofText text)) ∧
      (read plan text).upTo .debug =
        ((read plan text).upTo .trace).filter (fun a ↦ a.level ≠ .trace) ∧
      (read plan text).upTo .debug = .parsing text :: Parsed.entries (Parsed.ofText text) ∧
      ((read plan text).upTo .debug).map Entry.line =
        (.debug, "parsing " ++ quoted text) :: Parsed.logLines (Parsed.ofText text) ∧
      (read plan text).upTo .info = [] ∧
      (∀ p, Parsed.ofText text = .ok p → xs.map Lexeme.toMark = marks 0 text.toList) ∧
      (∀ e, Parsed.ofText text = .error (.lexical e) →
        xs.map Lexeme.toMark = marks 0 (text.toList.take (e.position?.getD text.length))) ∧
      ∀ c p, Parsed.ofText text = .error (.chainedOperator c p) →
        xs.map Lexeme.toMark = marks 0 (text.toList.take (p + 1)) ∧
        ((read plan text).upTo .trace).getLast? = some (.lexeme ⟨⟨c, p⟩, .operator⟩) ∧
        (((read plan text).upTo .trace).map Entry.line).getLast? = some (.trace,
          "lexeme Operator '" ++ String.singleton c ++ "' at " ++ toString p) := by
  obtain ⟨xs, r, h⟩ := Parsed.exists_hands text
  refine ⟨xs, r, h, h.ofChar?_symbol, trace_read plan h, lines_trace_read plan h,
    Logged.upTo_debug _, debug_read plan text, lines_debug_read plan text, info_read plan text,
    ?_, ?_, ?_⟩
  · intro p hp
    obtain ⟨q, rfl⟩ := h.exists_eq_ok hp
    exact h.marks_eq_of_ok
  · intro e he
    obtain rfl := h.eq_error he
    exact h.marks_eq_of_lexical
  · intro c p he
    obtain rfl := h.eq_error he
    obtain ⟨hm, hx⟩ := h.marks_eq_of_chained
    obtain ⟨ys, rfl⟩ := List.getLast?_eq_some_iff.1 hx
    have hl : ((read plan text).upTo .trace).getLast? = some (.lexeme ⟨⟨c, p⟩, .operator⟩) := by
      rw [trace_read plan h, he, List.flatMap_append, Parsed.entries, List.append_nil,
        ← List.cons_append]
      exact List.getLast?_concat
    refine ⟨hm, hl, ?_⟩
    rw [List.getLast?_map, hl]
    rfl

example : ((read .whole "(a) &&").upTo .trace).map Entry.message =
    ["parsing \"(a) &&\"", "lexeme OpenGroup '(' at 0", "entering group at 0",
      "lexeme Variable 'a' at 1", "lexeme CloseGroup ')' at 2", "lexeme Operator '&' at 4"] := rfl

end TruthTable

end Sentential
