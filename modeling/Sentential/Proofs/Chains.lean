import Sentential.Grammar.Chain
import Sentential.Proofs.Acceptance
import Sentential.Proofs.Context

namespace Sentential.Grammar

open Text Context

mutual

/-- The greatest number of groups that are open at once. -/
def Link.depth : Link → Nat
  | .falsum | .verum | .letter _ => 0
  | .negation l => l.depth
  | .group t => t.depth + 1

def Chain.depth : Chain → Nat
  | .last l => l.depth
  | .more l _ t => max l.depth t.depth

end

mutual

theorem Link.balanced_symbols : (l : Link) → Balanced l.depth l.symbols
  | .falsum | .verum => .single (by decide) (by decide)
  | .letter v => Sign.balanced_symbol (x := .letter v) (by simp) (by simp)
  | .negation l => by
    have h := (Balanced.single (c := '!') (by decide) (by decide)).append l.balanced_symbols
    rwa [Nat.zero_max] at h
  | .group t => t.balanced_symbols.parentheses

theorem Chain.balanced_symbols : (t : Chain) → Balanced t.depth t.symbols
  | .last l => l.balanced_symbols
  | .more l op t => balanced_pair l.balanced_symbols t.balanced_symbols op

end

theorem Chain.nesting_symbols (t : Chain) : nesting 0 t.symbols = t.depth := by
  rw [(t.balanced_symbols 0).2, Nat.zero_add]

mutual

theorem Link.accepts {d : Nat} {text : List Char} (h : Accepts ⟨.operatorOrClose, d⟩ text) :
    (l : Link) → d + l.depth ≤ maxDepth → Accepts ⟨.value, d⟩ (l.symbols ++ text)
  | .falsum, _ => .cons (.falsum d) h
  | .verum, _ => .cons (.verum d) h
  | .letter v, _ => .cons (.letter v d) h
  | .negation l, hd => .cons (.negation d) (l.accepts h hd)
  | .group t, hd => by
    have hc : Accepts ⟨.operatorOrClose, d + 1⟩ (')' :: text) := .cons (.closing d) h
    have hl : d + 1 + t.depth ≤ maxDepth := by
      rw [Link.depth] at hd
      omega
    have ht := t.accepts hc hl
    rw [Link.symbols, List.cons_append, List.cons_append, List.append_assoc]
    exact .cons (.opening d (by omega)) ht

theorem Chain.accepts {d : Nat} {text : List Char} (h : Accepts ⟨.operatorOrClose, d⟩ text) :
    (t : Chain) → d + t.depth ≤ maxDepth → Accepts ⟨.value, d⟩ (t.symbols ++ text)
  | .last l, hd => l.accepts h hd
  | .more l op t, hd => by
    rw [Chain.depth] at hd
    have ht : Accepts ⟨.operatorOrClose, d⟩ (op.symbol :: (t.symbols ++ text)) :=
      .cons (.operator op d) (t.accepts h (by omega))
    rw [Chain.symbols, List.append_assoc]
    exact l.accepts ht (by omega)

end

/-- What can follow an operand while so many groups are open: more operands, and parentheses that
close all groups. -/
inductive Follows : Nat → List Char → Prop
  | nil : Follows 0 []
  | closing {d : Nat} {text : List Char} (h : Follows d text) : Follows (d + 1) (')' :: text)
  | operator {d : Nat} {text : List Char} (op : Connective) (l : Link) (h : Follows d text) :
      Follows d (op.symbol :: (l.symbols ++ text))

/-- An operand with what follows it is a chain up to the end of the group. -/
theorem Follows.exists_chain {d : Nat} {text : List Char} (h : Follows (d + 1) text) (l : Link) :
    ∃ (t : Chain) (rest : List Char), l.symbols ++ text = t.symbols ++ ')' :: rest ∧
      Follows d rest := by
  generalize hn : d + 1 = n at h
  induction h generalizing l with
  | nil => cases hn
  | closing h _ =>
    cases hn
    exact ⟨.last l, _, rfl, h⟩
  | operator op l' _ ih =>
    obtain ⟨t, rest, ht, hr⟩ := ih l' hn
    refine ⟨.more l op t, rest, ?_, hr⟩
    rw [ht, Chain.symbols, List.append_assoc, List.cons_append]

theorem Follows.exists_chain_of_zero {text : List Char} (h : Follows 0 text) (l : Link) :
    ∃ t : Chain, l.symbols ++ text = t.symbols := by
  generalize hn : 0 = n at h
  induction h generalizing l with
  | nil => exact ⟨.last l, List.append_nil _⟩
  | closing _ _ => cases hn
  | operator op l' _ ih =>
    obtain ⟨t, ht⟩ := ih l' hn
    refine ⟨.more l op t, ?_⟩
    rw [ht, Chain.symbols]

/-- From its end backwards, a text that is accepted falls into operands and what follows them. -/
theorem follows_of_accepts {k : Context} {text : List Char} (h : Accepts k text) :
    match k.expected with
    | .operatorOrClose => Follows k.depth text
    | .value => ∃ (l : Link) (rest : List Char), text = l.symbols ++ rest ∧
        Follows k.depth rest := by
  induction h with
  | nil => exact .nil
  | cons h _ ih =>
    cases h with
    | falsum d => exact ⟨.falsum, _, rfl, ih⟩
    | verum d => exact ⟨.verum, _, rfl, ih⟩
    | letter v d => exact ⟨.letter v, _, rfl, ih⟩
    | negation d =>
      obtain ⟨l, rest, rfl, hr⟩ := ih
      exact ⟨.negation l, rest, rfl, hr⟩
    | opening d h =>
      obtain ⟨l, rest, rfl, hr⟩ := ih
      obtain ⟨t, rest', ht, hr'⟩ := hr.exists_chain l
      refine ⟨.group t, rest', ?_, hr'⟩
      rw [ht, Link.symbols]
      simp [Sign.symbol]
    | closing d => exact .closing ih
    | operator op d =>
      obtain ⟨l, rest, rfl, hr⟩ := ih
      exact .operator op l hr

theorem accepts_iff {text : List Char} :
    Accepts {} text ↔ (∃ t : Chain, t.symbols = text) ∧ nesting 0 text ≤ 256 := by
  constructor
  · intro h
    refine ⟨?_, h.nesting_le (Nat.zero_le _)⟩
    obtain ⟨l, rest, rfl, hr⟩ := follows_of_accepts h
    obtain ⟨t, ht⟩ := hr.exists_chain_of_zero l
    exact ⟨t, ht.symm⟩
  · rintro ⟨⟨t, rfl⟩, hn⟩
    rw [t.nesting_symbols] at hn
    have ht := t.accepts (d := 0) .nil (by rwa [Nat.zero_add])
    rwa [List.append_nil] at ht

end Sentential.Grammar
