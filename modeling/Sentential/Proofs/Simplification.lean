import Mathlib.Algebra.Group.Nat.Even
import Mathlib.Data.List.Basic
import Sentential.Proofs.CanonicalText
import Sentential.Proofs.Lines

namespace Sentential

namespace Text

/-- A text made of two others, each of them in its own order: what is kept of the text and what is
dropped from it. -/
inductive Interleaves : List Char → List Char → List Char → Prop
  | nil : Interleaves [] [] []
  | keep (c : Char) {kept dropped text : List Char} :
      Interleaves kept dropped text → Interleaves (c :: kept) dropped (c :: text)
  | drop (c : Char) {kept dropped text : List Char} :
      Interleaves kept dropped text → Interleaves kept (c :: dropped) (c :: text)

namespace Interleaves

variable {kept kept' dropped dropped' text text' : List Char}

theorem refl (text : List Char) : Interleaves text [] text := by
  induction text with
  | nil => exact .nil
  | cons c text ih => exact .keep c ih

theorem append (h : Interleaves kept dropped text) (h' : Interleaves kept' dropped' text') :
    Interleaves (kept ++ kept') (dropped ++ dropped') (text ++ text') := by
  induction h with
  | nil => exact h'
  | keep c _ ih => exact .keep c ih
  | drop c _ ih => exact .drop c ih

theorem parentheses (text : List Char) :
    Interleaves text ['(', ')'] ('(' :: text ++ [')']) := by
  have h : Interleaves (text ++ []) ([] ++ [')']) (text ++ [')']) :=
    (refl text).append (.drop ')' .nil)
  rw [List.append_nil] at h
  exact .drop '(' h

theorem trans (h : Interleaves kept dropped text) (h' : Interleaves text dropped' text') :
    ∃ dropped'', dropped''.Perm (dropped ++ dropped') ∧ Interleaves kept dropped'' text' := by
  -- The induction is on the longer text: a character of it is dropped at once, or it is left for
  -- the first text, which drops it or keeps it.
  induction h' generalizing kept dropped with
  | nil =>
    cases h with
    | nil => exact ⟨[], .nil, .nil⟩
  | keep c _ ih =>
    cases h with
    | keep _ h =>
      obtain ⟨dropped'', hp, hi⟩ := ih h
      exact ⟨dropped'', hp, .keep c hi⟩
    | drop _ h =>
      obtain ⟨dropped'', hp, hi⟩ := ih h
      exact ⟨c :: dropped'', hp.cons c, .drop c hi⟩
  | drop c _ ih =>
    obtain ⟨dropped'', hp, hi⟩ := ih h
    exact ⟨c :: dropped'', (hp.cons c).trans List.perm_middle.symm, .drop c hi⟩

theorem sublist (h : Interleaves kept dropped text) : kept.Sublist text := by
  induction h with
  | nil => exact .slnil
  | keep c _ ih => exact ih.cons_cons c
  | drop c _ ih => exact ih.cons c

theorem perm (h : Interleaves kept dropped text) : text.Perm (kept ++ dropped) := by
  induction h with
  | nil => exact .nil
  | keep c _ ih => exact ih.cons c
  | drop c _ ih => exact (ih.cons c).trans List.perm_middle.symm

theorem filter_eq (h : Interleaves kept dropped text) {p : Char → Bool}
    (hp : ∀ c ∈ dropped, p c = false) : text.filter p = kept.filter p := by
  induction h with
  | nil => rfl
  | keep c _ ih => rw [List.filter_cons, List.filter_cons, ih hp]
  | drop c _ ih =>
    obtain ⟨hc, hd⟩ := List.forall_mem_cons.1 hp
    rw [List.filter_cons_of_neg (by simp [hc]), ih hd]

end Interleaves

/-- Nothing but negations, an even number of them, and parentheses, as many that open as close. -/
structure IsRedundant (dropped : List Char) : Prop where
  negation_or_parenthesis : ∀ c ∈ dropped, c = '!' ∨ c = '(' ∨ c = ')'
  negations : Even (dropped.count '!')
  parentheses : dropped.count '(' = dropped.count ')'

namespace IsRedundant

variable {dropped dropped' : List Char}

theorem nil : IsRedundant [] := ⟨nofun, ⟨0, rfl⟩, rfl⟩

theorem append (h : IsRedundant dropped) (h' : IsRedundant dropped') :
    IsRedundant (dropped ++ dropped') where
  negation_or_parenthesis :=
    List.forall_mem_append.2 ⟨h.negation_or_parenthesis, h'.negation_or_parenthesis⟩
  negations := by
    rw [List.count_append]
    exact h.negations.add h'.negations
  parentheses := by rw [List.count_append, List.count_append, h.parentheses, h'.parentheses]

theorem perm (h : IsRedundant dropped) (hp : dropped'.Perm dropped) : IsRedundant dropped' where
  negation_or_parenthesis := fun c hc ↦ h.negation_or_parenthesis c (hp.subset hc)
  negations := by
    rw [hp.count_eq]
    exact h.negations
  parentheses := by rw [hp.count_eq, hp.count_eq, h.parentheses]

theorem two_negations : IsRedundant ['!', '!'] := by
  refine ⟨?_, ⟨1, rfl⟩, rfl⟩
  intro c hc
  simp at hc
  exact .inl hc

theorem two_parentheses : IsRedundant ['(', ')'] := by
  refine ⟨?_, ⟨0, rfl⟩, rfl⟩
  intro c hc
  simp at hc
  exact .inr hc

end IsRedundant

/-- The second text is the first one without what is redundant in it, or without some of that. -/
def Thins (text kept : List Char) : Prop :=
  ∃ dropped, Interleaves kept dropped text ∧ IsRedundant dropped

namespace Thins

variable {text text' kept kept' : List Char}

theorem refl (text : List Char) : Thins text text := ⟨[], .refl text, .nil⟩

theorem append (h : Thins text kept) (h' : Thins text' kept') :
    Thins (text ++ text') (kept ++ kept') := by
  obtain ⟨dropped, hi, hr⟩ := h
  obtain ⟨dropped', hi', hr'⟩ := h'
  exact ⟨dropped ++ dropped', hi.append hi', hr.append hr'⟩

theorem cons (c : Char) (h : Thins text kept) : Thins (c :: text) (c :: kept) :=
  (refl [c]).append h

theorem trans (h : Thins text text') (h' : Thins text' kept) : Thins text kept := by
  obtain ⟨dropped, hi, hr⟩ := h
  obtain ⟨dropped', hi', hr'⟩ := h'
  obtain ⟨dropped'', hp, hi''⟩ := hi'.trans hi
  exact ⟨dropped'', hi'', (hr'.append hr).perm hp⟩

theorem negations (text : List Char) : Thins ('!' :: '!' :: text) text :=
  ⟨['!', '!'], .drop '!' (.drop '!' (.refl text)), .two_negations⟩

theorem parentheses (text : List Char) : Thins ('(' :: text ++ [')']) text :=
  ⟨['(', ')'], .parentheses text, .two_parentheses⟩

end Thins

theorem visible_eq_filter {text : List Char} (h : ∀ c ∈ text, isOrdinary c = true) :
    visible text = text.filter (· ≠ ' ') := by
  apply List.filter_congr
  intro c hc
  have ho := h c hc
  rw [isOrdinary, Bool.or_eq_true, decide_eq_true_eq] at ho
  rcases ho with rfl | hs
  · rfl
  · obtain ⟨x, hx⟩ := Option.isSome_iff_exists.1 hs
    have hb : isBlank c = false := Sign.symbol_of_ofChar? hx ▸ x.isBlank_symbol
    have hn : c ≠ ' ' := by
      rintro rfl
      cases hb
    simp [hb, hn]

/-- Whether a character is a letter, a constant or a connective. -/
def isEssential (c : Char) : Bool :=
  match Sign.ofChar? c with
  | some .falsum | some .verum | some (.operator _) | some (.letter _) => true
  | _ => false

theorem isEssential_of_isBlank {c : Char} (h : isBlank c = true) : isEssential c = false := by
  cases hx : Sign.ofChar? c with
  | none => rw [isEssential, hx]
  | some x =>
    have hb : isBlank c = false := Sign.symbol_of_ofChar? hx ▸ x.isBlank_symbol
    rw [h] at hb
    cases hb

theorem filter_isEssential_visible (text : List Char) :
    (visible text).filter isEssential = text.filter isEssential := by
  rw [visible, List.filter_filter]
  apply List.filter_congr
  intro c _
  cases hb : isBlank c with
  | true => rw [isEssential_of_isBlank hb]; rfl
  | false => simp

theorem IsRedundant.isEssential_eq_false {dropped : List Char} (h : IsRedundant dropped) :
    ∀ c ∈ dropped, isEssential c = false := by
  intro c hc
  rcases h.negation_or_parenthesis c hc with rfl | rfl | rfl <;> rfl

end Text

open Text

namespace Grammar

/-- A negation is written before its statement or taken away from it, together with another. -/
theorem thins_negate (s : Statement) :
    Thins ('!' :: s.toTerm.symbols) s.negate.toTerm.symbols := by
  cases s with
  | not s => exact Thins.negations s.toTerm.symbols
  | _ => exact Thins.refl _

theorem thins_toSentence (s : Statement) : Thins s.toTerm.symbols s.toSentence.symbols := by
  cases s with
  | binary op l r => exact Thins.parentheses _
  | _ => exact Thins.refl _

theorem thins_pair {l l' r r' : List Char} (hl : Thins l l') (op : Connective) (hr : Thins r r') :
    Thins (l ++ op.symbol :: r) (l' ++ op.symbol :: r') :=
  hl.append (hr.cons op.symbol)

theorem Term.thins (t : Term) : Thins t.symbols t.reading.cancel.toTerm.symbols := by
  induction t with
  | falsum | verum | letter v => exact Thins.refl _
  | negation t ih => exact (ih.cons '!').trans (thins_negate t.reading.cancel)
  | group t ih => exact (Thins.parentheses t.symbols).trans ih
  | pair l op r ihl ihr => exact ((thins_pair ihl op ihr).cons '(').append (Thins.refl [')'])

theorem Sentence.thins (t : Sentence) : Thins t.symbols t.reading.cancel.toSentence.symbols := by
  cases t with
  | term t => exact t.thins.trans (thins_toSentence t.reading.cancel)
  | pair l op r => exact thins_pair l.thins op r.thins

end Grammar

/-- A statement as it is written in canonical form, blanks apart, can be found in any text that it
is read from. What is left over there is redundant, in whatever way it is found, so the letters, the
constants and the connectives of the text are all used and in their order. -/
theorem Parsed.render_sublist_text {text : String} {p : Parsed} (h : ofText text = .ok p) :
    (p.statement.render.toList.filter (· ≠ ' ')).Sublist (visible text.toList) ∧
    (∃ dropped, Interleaves (p.statement.render.toList.filter (· ≠ ' ')) dropped
      (visible text.toList)) ∧
    (∀ dropped, Interleaves (p.statement.render.toList.filter (· ≠ ' ')) dropped
      (visible text.toList) → IsRedundant dropped) ∧
    p.statement.render.toList.filter isEssential = text.toList.filter isEssential ∧
    (p.statement.render.toList.filter (· ≠ ' ')).length ≤ (visible text.toList).length := by
  obtain ⟨t, ht, -, rfl⟩ := ofText_eq_ok_iff.1 h
  have hs : t.symbols = visible text.toList := ht
  have hv : visible t.reading.cancel.render.toList =
      t.reading.cancel.render.toList.filter (· ≠ ' ') := by
    rw [Statement.render, String.toList_ofList]
    exact visible_eq_filter t.reading.cancel.isOrdinary_symbols
  obtain ⟨dropped, hi, hr⟩ := t.thins
  rw [t.reading.cancel.spells_render, hs] at hi
  have he := hi.filter_eq hr.isEssential_eq_false
  rw [filter_isEssential_visible, filter_isEssential_visible] at he
  rw [← hv]
  refine ⟨hi.sublist, ⟨dropped, hi⟩, ?_, he.symm, hi.sublist.length_le⟩
  intro dropped' hi'
  have hp := hi'.perm.symm.trans hi.perm
  exact hr.perm ((List.perm_append_left_iff _).1 hp)

theorem Parsed.render_sublist_text_of_groups :
    ∃ p, ofText "!(!((a))) > (b&!!!1)" = .ok p ∧ p.statement.render = "a > (b & !1)" ∧
      ['a', '>', '(', 'b', '&', '!', '1', ')'].Sublist (visible "!(!((a))) > (b&!!!1)".toList) := by
  have h : ofText "!(!((a))) > (b&!!!1)" =
      .ok ⟨.binary .implies (.var ⟨26⟩) (.binary .and (.var ⟨27⟩) (.not .verum)),
        .ofBits (2 ^ 26 + 2 ^ 27)⟩ := rfl
  have hr : (Statement.binary .implies (.var ⟨26⟩)
      (.binary .and (.var ⟨27⟩) (.not .verum))).render = "a > (b & !1)" := rfl
  obtain ⟨hs, -⟩ := render_sublist_text h
  rw [hr] at hs
  exact ⟨_, h, hr, hs⟩

end Sentential
