import Mathlib.Data.List.Infix
import Sentential.Proofs.Sketch.Stream

namespace Sentential

namespace Lexeme

/-- The places of the parentheses that are open behind a lexeme, inside out, if those in `g` are
open in front of it. -/
def enclose (g : List Nat) (x : Lexeme) : List Nat :=
  match x.kind with
  | .opening => x.position :: g
  | .closing => g.tail
  | _ => g

/-- The parentheses that are open behind some lexemes tell in which group the next one stands. -/
def address (before : List Lexeme) : List Nat := before.foldl enclose []

def addressed (g : List Nat) : List Lexeme → List (List Nat × Lexeme)
  | [] => []
  | x :: xs => (g, x) :: addressed (enclose g x) xs

/-- The number of operators directly in the group at the address `g`. -/
def operatorsAt (g : List Nat) (xs : List Lexeme) : Nat :=
  (addressed [] xs).countP fun y ↦ y.1 = g ∧ y.2.kind = .operator

/-- Behind the lexemes `before`, this one is the second operator directly in its group. -/
def IsSecondOperator (before : List Lexeme) (x : Lexeme) : Prop :=
  x.kind = .operator ∧ operatorsAt (address before) before = 1

instance (before : List Lexeme) (x : Lexeme) : Decidable (IsSecondOperator before x) :=
  inferInstanceAs (Decidable (_ ∧ _))

/-- The first of some lexemes behind `before` that is the second operator directly in its group. -/
def secondOperator? (before : List Lexeme) : List Lexeme → Option Lexeme
  | [] => none
  | x :: xs => if IsSecondOperator before x then some x else secondOperator? (before ++ [x]) xs

variable {before : List Lexeme} {x : Lexeme} {g : List Nat}

theorem address_concat (before : List Lexeme) (x : Lexeme) :
    address (before ++ [x]) = enclose (address before) x := by
  simp only [address, List.foldl_append, List.foldl_cons, List.foldl_nil]

theorem addressed_append (g : List Nat) (xs ys : List Lexeme) :
    addressed g (xs ++ ys) = addressed g xs ++ addressed (xs.foldl enclose g) ys := by
  induction xs generalizing g with
  | nil => rfl
  | cons x xs ih => rw [List.cons_append, addressed, ih]; rfl

theorem operatorsAt_concat (g : List Nat) (before : List Lexeme) (x : Lexeme) :
    operatorsAt g (before ++ [x]) =
      operatorsAt g before + if address before = g ∧ x.kind = .operator then 1 else 0 := by
  have ha : addressed (before.foldl enclose []) [x] = [(address before, x)] := rfl
  rw [operatorsAt, addressed_append, ha, List.countP_append, List.countP_singleton]
  simp only [decide_eq_true_eq]
  rfl

theorem operatorsAt_concat_of_ne (hx : x.kind ≠ .operator) (g : List Nat) :
    operatorsAt g (before ++ [x]) = operatorsAt g before := by
  rw [operatorsAt_concat, if_neg fun h ↦ hx h.2, Nat.add_zero]

theorem mem_of_mem_addressed {h g : List Nat} {xs : List Lexeme} {y : Lexeme} {q : Nat}
    (hy : (h, y) ∈ addressed g xs) (hq : q ∈ h) : q ∈ g ∨ ∃ x ∈ xs, x.position = q := by
  induction xs generalizing g with
  | nil => cases hy
  | cons x xs ih =>
    rcases List.mem_cons.1 hy with he | hy
    · cases he
      exact .inl hq
    · rcases ih hy with hg | ⟨x', hx', rfl⟩
      · unfold enclose at hg
        split at hg
        · rcases List.mem_cons.1 hg with rfl | hg
          · exact .inr ⟨x, List.mem_cons_self, rfl⟩
          · exact .inl hg
        · exact .inl (List.mem_of_mem_tail hg)
        · exact .inl hg
      · exact .inr ⟨x', List.mem_cons_of_mem x hx', rfl⟩

theorem operatorsAt_of_lt {q : Nat} (h : ∀ y ∈ before, y.position < q) (g : List Nat) :
    operatorsAt (q :: g) before = 0 := by
  rw [operatorsAt, List.countP_eq_zero]
  rintro ⟨g', y⟩ hy hc
  obtain ⟨rfl, -⟩ := of_decide_eq_true hc
  rcases mem_of_mem_addressed hy List.mem_cons_self with hg | ⟨x, hx, hq⟩
  · cases hg
  · exact absurd hq (Nat.ne_of_lt (h x hx))

theorem cons_notMem_tails (q : Nat) (g : List Nat) : q :: g ∉ g.tails := by
  intro hm
  have hl := ((List.mem_tails _ _).1 hm).length_le
  rw [List.length_cons] at hl
  omega

theorem map_operatorsAt_concat (before : List Lexeme) (hx : x.kind = .operator) :
    (address before).tails.map (operatorsAt · (before ++ [x])) =
      (operatorsAt (address before) before + 1) ::
        (address before).tails.tail.map (operatorsAt · before) := by
  have hc (g : List Nat) (hg : address before ≠ g) :
      operatorsAt g (before ++ [x]) = operatorsAt g before := by
    rw [operatorsAt_concat, if_neg fun h ↦ hg h.1, Nat.add_zero]
  have hs : operatorsAt (address before) (before ++ [x]) =
      operatorsAt (address before) before + 1 := by
    rw [operatorsAt_concat, if_pos ⟨rfl, hx⟩]
  cases ha : address before with
  | nil =>
    rw [ha] at hs
    exact congrArg (· :: []) hs
  | cons q g =>
    rw [ha] at hs
    rw [List.tails_cons, List.map_cons, hs, List.tail_cons]
    congr 1
    refine List.map_congr_left fun h hh ↦ hc h ?_
    rintro rfl
    rw [ha] at hh
    exact cons_notMem_tails q g hh

end Lexeme

namespace Grammar

open Lexeme

def Draft.connected : Draft → Bool
  | pending p => p.before.isSome
  | complete (.term _) => false
  | complete (.pair _ _ _) => true

namespace Sketch

/-- Whether there is an operator in a group that is open, inside out. -/
def connected (s : Sketch) : List Bool := s.draft.connected :: s.outer.map (·.before.isSome)

/-- Each open group holds as many operators as the sketch shows, one at most. -/
def Counts (s : Sketch) (before : List Lexeme) : Prop :=
  (address before).tails.map (operatorsAt · before) = s.connected.map Bool.toNat

variable {s s' : Sketch} {before : List Lexeme} {m : Mark}

theorem counts_nil : Counts {} [] := rfl

theorem connected_fill (p : Pending) (t : Term) (outer : List Pending) :
    (fill p t outer).connected = p.before.isSome :: outer.map (·.before.isSome) := by
  obtain ⟨before, n⟩ := p
  cases before <;> rfl

theorem Counts.operatorsAt_address (h : s.Counts before) :
    operatorsAt (address before) before = s.draft.connected.toNat := by
  have hh := congrArg List.head? h
  cases ha : address before <;> simpa [ha, connected] using hh

theorem Counts.of_enclose_eq {x : Lexeme} (h : s.Counts before) (hx : x.kind ≠ .operator)
    (he : enclose (address before) x = address before) (hc : s'.connected = s.connected) :
    s'.Counts (before ++ [x]) := by
  rw [Counts, address_concat, he, hc, ← h]
  exact List.map_congr_left fun g _ ↦ operatorsAt_concat_of_ne hx g

theorem Counts.step {x : Sign} (h : s.Counts before) (hs : Step Context.maxDepth s x s')
    (hp : ∀ y ∈ before, y.position < m.position) : s'.Counts (before ++ [⟨m, x.kind⟩]) := by
  cases hs with
  | falsum p outer | verum p outer | letter p v outer =>
    exact h.of_enclose_eq (by simp [Sign.kind]) rfl (connected_fill ..)
  | negation p outer => exact h.of_enclose_eq (by simp [Sign.kind]) rfl rfl
  | opening p outer hl =>
    -- The place of the parenthesis is new, so nothing has been counted for its group.
    rw [Counts, address_concat]
    change (m.position :: address before).tails.map _ = _
    rw [List.tails_cons, List.map_cons]
    simp only [operatorsAt_concat_of_ne (x := ⟨m, .opening⟩) (by simp), Sign.kind]
    rw [operatorsAt_of_lt hp, h]
    rfl
  | closing t p outer =>
    rw [Counts, address_concat, connected_fill]
    simp only [operatorsAt_concat_of_ne (x := ⟨m, .closing⟩) (by simp), Sign.kind]
    change (address before).tail.tails.map _ = _
    have ht := congrArg List.tail h
    cases ha : address before with
    | nil => rw [ha] at ht; cases ht
    | cons q g =>
      rw [ha] at ht
      simpa [connected] using ht
  | operator t op outer =>
    have hx : (⟨m, (Sign.operator op).kind⟩ : Lexeme).kind = .operator := rfl
    have ht := congrArg List.tail h
    rw [Counts, address_concat]
    change (address before).tails.map _ = _
    rw [map_operatorsAt_concat before hx, h.operatorsAt_address]
    simpa [connected, Draft.connected] using ht

theorem Counts.not_isSecondOperator {x : Sign} (h : s.Counts before)
    (hs : Step Context.maxDepth s x s') : ¬IsSecondOperator before ⟨m, x.kind⟩ := by
  rintro ⟨hk, hc⟩
  rw [h.operatorsAt_address] at hc
  cases hs with
  | operator t op outer => cases hc
  | _ => cases hk

end Sketch

end Grammar

/-- What becomes of a text whose lexemes end with a fault or without one: a second operator in a
group is found before it. -/
def Outcome {α : Type} (second : Option Lexeme) (fault : Option LexicalError)
    (r : Except SyntaxError α) : Prop :=
  match second, fault with
  | some c, _ => r = .error (.chainedOperator c.symbol c.position)
  | none, some e => r = .error (.lexical e)
  | none, none => ∃ a, r = .ok a

theorem Outcome.map {α β : Type} {second : Option Lexeme} {fault : Option LexicalError}
    {r : Except SyntaxError α} (h : Outcome second fault r) (f : α → β) :
    Outcome second fault (r.map f) := by
  cases second with
  | some c =>
    have hr : r = .error (.chainedOperator c.symbol c.position) := h
    rw [hr]
    rfl
  | none =>
    cases fault with
    | some e =>
      have hr : r = .error (.lexical e) := h
      rw [hr]
      rfl
    | none =>
      obtain ⟨a, rfl⟩ := h
      exact ⟨f a, rfl⟩

namespace Grammar.Sketch

open Lexeme LexemeStream

/-- The sketch and the stream go on side by side until one of them ends; what lies `before` is in
both. -/
theorem exists_yields_outcome {s : Sketch} {before : List Lexeme} {ms : List Mark}
    (h : s.Counts before) (hm : ms.Pairwise (·.position < ·.position))
    (hb : ∀ y ∈ before, ∀ m ∈ ms, y.position < m.position) :
    ∃ xs fault, Yields ⟨ms, s.reader.context, false⟩ xs fault ∧
      Outcome (secondOperator? before xs) fault ((s.run Context.maxDepth ms).bind finish) := by
  induction ms generalizing s before with
  | nil =>
    refine ⟨[], s.reader.context.ending, yields_of_ending _, ?_⟩
    change Outcome none _ s.finish
    cases hf : s.finish with
    | ok t =>
      rw [ending_of_finish_ok hf]
      exact ⟨t, rfl⟩
    | error e =>
      obtain ⟨e', rfl, he⟩ := ending_of_finish_error hf
      rw [he]
      rfl
  | cons m ms ih =>
    rw [run]
    cases hs : s.step Context.maxDepth m with
    | ok s' =>
      obtain ⟨x, hx, hstep⟩ := exists_step hs
      have hp : ∀ y ∈ before, y.position < m.position := fun y hy ↦ hb y hy m List.mem_cons_self
      have hb' : ∀ y ∈ before ++ [⟨m, x.kind⟩], ∀ m' ∈ ms, y.position < m'.position := by
        intro y hy m' hm'
        rcases List.mem_append.1 hy with hy | hy
        · exact hb y hy m' (List.mem_cons_of_mem m hm')
        · rw [List.mem_singleton.1 hy]
          exact List.rel_of_pairwise_cons hm hm'
      obtain ⟨xs, fault, hy, ho⟩ := ih (h.step hstep hp) hm.of_cons hb'
      refine ⟨⟨m, x.kind⟩ :: xs, fault, yields_of_read_ok (hstep.read hx) hy, ?_⟩
      rw [secondOperator?, if_neg (h.not_isSecondOperator hstep)]
      exact ho
    | error e =>
      have hr := refuses_of_step hs
      cases e with
      | lexical e => exact ⟨[], some e, yields_of_read_error hr.read, rfl⟩
      | chainedOperator c n =>
        cases hr with
        | chained l op r outer _ op' hm' =>
          -- Lexemes may follow all the same, but they are not read any more.
          obtain ⟨xs, fault, hy⟩ := exists_yields ⟨.value, outer.length⟩ ms
          have hc : IsSecondOperator before ⟨m, .operator⟩ := ⟨rfl, h.operatorsAt_address⟩
          refine ⟨⟨m, .operator⟩ :: xs, fault,
            yields_of_read_ok (read_operator _ outer hm') hy, ?_⟩
          rw [secondOperator?, if_pos hc]
          rfl
      | unexpectedLexeme k n | unexpectedEnd => cases hr

end Grammar.Sketch

open Lexeme Grammar

/-- Reading a text and drawing its lexemes come to the same, but that a second operator in a group
is found on the way. Nothing else is wrong with lexemes that are drawn. -/
theorem Parsed.ofText_outcome (text : String) :
    ∃ xs fault,
      (∀ ys fault', (LexemeStream.ofText text).Yields ys fault' ↔ ys = xs ∧ fault' = fault) ∧
      Outcome (secondOperator? [] xs) fault (ofText text) ∧
      (∀ kind n, ofText text ≠ .error (.unexpectedLexeme kind n)) ∧
      ofText text ≠ .error .unexpectedEnd := by
  obtain ⟨xs, fault, hy, ho⟩ := Sketch.exists_yields_outcome Sketch.counts_nil
    (pairwise_marks 0 text.toList) (fun y hy ↦ absurd hy List.not_mem_nil)
  refine ⟨xs, fault, fun ys fault' ↦ ⟨fun h ↦ h.unique hy, ?_⟩, ?_, fun kind n h ↦ ?_, fun h ↦ ?_⟩
  · rintro ⟨rfl, rfl⟩
    exact hy
  · rw [ofText_eq_ofChars]
    exact ho.map _
  · obtain ⟨e, he⟩ | ⟨c, n, he⟩ := (ofText_eq_error_iff.1 h).lexical_or_chained <;> cases he
  · obtain ⟨e, he⟩ | ⟨c, n, he⟩ := (ofText_eq_error_iff.1 h).lexical_or_chained <;> cases he

end Sentential
