import Sentential.Proofs.Sign
import Sentential.Statement.Rendering
import Sentential.Text.Digit
import Sentential.Text.Lines

namespace Sentential

theorem map_eq_self {α : Type} {f : α → α} {xs : List α} (h : ∀ x ∈ xs, f x = x) :
    xs.map f = xs :=
  (List.map_congr_left h).trans (List.map_id xs)

namespace Text

/-- A text that is one line, whatever comes before it or after it. -/
def IsLine (text : List Char) : Prop := ∀ c ∈ text, c ≠ '\n' ∧ c ≠ '\r'

instance (text : List Char) : Decidable (IsLine text) :=
  List.decidableBAll _ text

theorem IsLine.append {text rest : List Char} (h : IsLine text) (h' : IsLine rest) :
    IsLine (text ++ rest) :=
  List.forall_mem_append.2 ⟨h, h'⟩

theorem linesAfter_of_isLine {line rest : List Char} (h : IsLine line) (before : List Char) :
    linesAfter before (line ++ '\n' :: rest) =
      endedLine (line.reverse ++ before) :: linesAfter [] rest := by
  induction line generalizing before with
  | nil => rfl
  | cons c line ih =>
    obtain ⟨hc, hl⟩ := List.forall_mem_cons.1 h
    have hs : linesAfter before (c :: (line ++ '\n' :: rest)) =
        linesAfter (c :: before) (line ++ '\n' :: rest) := by
      rw [linesAfter]
      exact hc.1
    rw [List.cons_append, hs, ih hl, List.reverse_cons, List.append_assoc]
    rfl

theorem endedLine_reverse {line : List Char} (h : IsLine line) :
    endedLine line.reverse = String.ofList line := by
  unfold endedLine
  split
  · rename_i rest hr
    have hm : '\r' ∈ line := by
      rw [← List.mem_reverse, hr]
      exact List.mem_cons_self
    exact absurd rfl (h _ hm).2
  · rw [List.reverse_reverse]

theorem isDigit_of_mem_toString {n : Nat} {c : Char} (h : c ∈ (toString n).toList) :
    c.isDigit = true := by
  rw [Nat.toString_eq_ofList_toDigits, String.toList_ofList] at h
  exact Nat.isDigit_of_mem_toDigits (by decide) (by decide) h

theorem mem_intercalate {separator : String} {parts : List String} {c : Char}
    (h : c ∈ (separator.intercalate parts).toList) :
    c ∈ separator.toList ∨ ∃ part ∈ parts, c ∈ part.toList := by
  induction parts with
  | nil =>
    rw [String.intercalate_nil] at h
    cases h
  | cons part parts ih =>
    cases parts with
    | nil =>
      rw [String.intercalate_singleton] at h
      exact .inr ⟨part, List.mem_cons_self, h⟩
    | cons part' parts =>
      rw [String.intercalate_cons_cons, String.toList_append, String.toList_append, List.mem_append,
        List.mem_append] at h
      rcases h with (h | h) | h
      · exact .inr ⟨part, List.mem_cons_self, h⟩
      · exact .inl h
      · apply (ih h).imp_right
        rintro ⟨x, hx, hc⟩
        exact ⟨x, List.mem_cons_of_mem part hx, hc⟩

theorem isLine_intercalate {separator : String} {parts : List String}
    (hs : IsLine separator.toList) (hp : ∀ part ∈ parts, IsLine part.toList) :
    IsLine (separator.intercalate parts).toList := by
  intro c hc
  rcases mem_intercalate hc with hc | ⟨part, hpart, hc⟩
  · exact hs c hc
  · exact hp part hpart c hc

/-- Lines that are written one below the other are read as these lines. -/
theorem lines_join {ls : List String} (h : ∀ l ∈ ls, IsLine l.toList) :
    lines (String.join (ls.map (· ++ "\n"))) = ls := by
  rw [lines]
  induction ls with
  | nil => rfl
  | cons l ls ih =>
    obtain ⟨hl, hls⟩ := List.forall_mem_cons.1 h
    have ht : (String.join ((l :: ls).map (· ++ "\n"))).toList =
        l.toList ++ '\n' :: (String.join (ls.map (· ++ "\n"))).toList := by
      simp [String.toList_join]
    rw [ht, linesAfter_of_isLine hl, ih hls, List.append_nil, endedLine_reverse hl,
      String.ofList_toList]

/-- The characters that statements and tables are written with: the space and all that mean
something. -/
def isOrdinary (c : Char) : Bool := c = ' ' || (Sign.ofChar? c).isSome

theorem isOrdinary_symbol (x : Sign) : isOrdinary x.symbol = true := by
  rw [isOrdinary, x.ofChar?_symbol, Option.isSome_some, Bool.or_true]

theorem isOrdinary_name (v : Variable) : isOrdinary v.name = true := isOrdinary_symbol (.letter v)

theorem isOrdinary_digit (b : Bool) : isOrdinary (digit b) = true := by
  cases b <;> rfl

theorem isLine_of_isOrdinary {text : List Char} (h : ∀ c ∈ text, isOrdinary c = true) :
    IsLine text := by
  intro c hc
  have ho := h c hc
  constructor
  · rintro rfl
    cases ho
  · rintro rfl
    cases ho

end Text

open Text

namespace Statement

theorem isOrdinary_enclose {s : Statement} {symbols : List Char}
    (h : ∀ c ∈ symbols, isOrdinary c = true) : ∀ c ∈ s.enclose symbols, isOrdinary c = true := by
  unfold enclose
  split
  · have ho : ∀ c ∈ '(' :: symbols, isOrdinary c = true := List.forall_mem_cons.2 ⟨rfl, h⟩
    exact List.forall_mem_append.2 ⟨ho, List.forall_mem_singleton.2 rfl⟩
  · exact h

theorem isOrdinary_symbols (s : Statement) : ∀ c ∈ s.symbols, isOrdinary c = true := by
  induction s with
  | falsum | verum => exact List.forall_mem_singleton.2 rfl
  | var v => exact List.forall_mem_singleton.2 (isOrdinary_name v)
  | not s ih => exact List.forall_mem_cons.2 ⟨rfl, isOrdinary_enclose ih⟩
  | binary op l r ihl ihr =>
    refine List.forall_mem_append.2 ⟨isOrdinary_enclose ihl, ?_⟩
    refine List.forall_mem_cons.2 ⟨rfl, List.forall_mem_cons.2 ⟨?_, ?_⟩⟩
    · exact isOrdinary_symbol (.operator op)
    · exact List.forall_mem_cons.2 ⟨rfl, isOrdinary_enclose ihr⟩

theorem render_ne_empty (s : Statement) : s.render ≠ "" := by
  intro h
  have hs : s.symbols = [] := by
    rw [← String.toList_ofList (l := s.symbols), ← render, h]
    rfl
  cases s <;> simp [symbols] at hs

end Statement

end Sentential
