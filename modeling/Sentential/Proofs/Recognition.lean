import Sentential.Proofs.Sketch.Reader

namespace Sentential.Grammar

namespace Sketch

variable {limit : Nat} {a b : Prop} {s s' s'' : Sketch} {m : Mark} {xs ys : List Mark}

/-- All is in order up to a parenthesis that opens one group too many. -/
def Overflows (limit : Nat) (s : Sketch) (ms : List Mark) : Prop :=
  ∃ before m after p outer, ms = before ++ m :: after ∧ m.symbol = '(' ∧ outer.length = limit ∧
    s.run limit before = .ok ⟨.pending p, outer⟩

/-- The marks lead to `s'` if there is room for them and overflow if there is none. -/
def Reads (limit : Nat) (room : Prop) (s : Sketch) (ms : List Mark) (s' : Sketch) : Prop :=
  (room ∧ s.run limit ms = .ok s') ∨ (¬room ∧ Overflows limit s ms)

theorem Reads.congr (h : Reads limit a s xs s') (hab : a ↔ b) : Reads limit b s xs s' :=
  propext hab ▸ h

theorem Reads.of_step {x : Sign} (hm : m.symbol = x.symbol) (h : Step limit s x s') :
    Reads limit True s [m] s' := by
  refine .inl ⟨trivial, ?_⟩
  rw [run, step_of hm h]
  rfl

theorem Reads.opening (hm : m.symbol = '(') (p : Pending) {outer : List Pending}
    (ho : outer.length ≤ limit) :
    Reads limit (outer.length < limit) ⟨.pending p, outer⟩ [m] ⟨.pending {}, p :: outer⟩ := by
  by_cases hl : outer.length = limit
  · exact .inr ⟨by omega, [], m, [], p, outer, rfl, hm, hl, rfl⟩
  · exact (Reads.of_step (x := .opening) hm (.opening p outer hl)).congr (by simp; omega)

theorem Reads.append (h : Reads limit a s xs s') (h' : a → Reads limit b s' ys s'') :
    Reads limit (a ∧ b) s (xs ++ ys) s'' := by
  obtain ⟨ha, hx⟩ | ⟨ha, before, m, after, p, outer, rfl, hm, ho, hr⟩ := h
  · -- There is room in the first half, so the second half starts where the first one ends.
    obtain ⟨hb, hy⟩ | ⟨hb, before, m, after, p, outer, rfl, hm, ho, hr⟩ := h' ha
    · refine .inl ⟨⟨ha, hb⟩, ?_⟩
      rw [run_append, hx]
      exact hy
    · refine .inr ⟨fun h ↦ hb h.2, xs ++ before, m, after, p, outer, ?_, hm, ho, ?_⟩
      · rw [List.append_assoc]
      · rw [run_append, hx]
        exact hr
  · refine .inr ⟨fun h ↦ ha h.1, before, m, after ++ ys, p, outer, ?_, hm, ho, hr⟩
    rw [List.append_assoc, List.cons_append]

/-- Marks that spell the term are read as it, whatever is pending. -/
def ReadsTerm (limit : Nat) (outer : List Pending) (t : Term) : Prop :=
  ∀ ms p, ms.map Mark.symbol = t.symbols →
    Reads limit (outer.length + t.depth ≤ limit) ⟨.pending p, outer⟩ ms (fill p t outer)

def ReadsSentence (limit : Nat) (outer : List Pending) (t : Sentence) : Prop :=
  ∀ ms, ms.map Mark.symbol = t.symbols →
    Reads limit (outer.length + t.depth ≤ limit) ⟨.pending {}, outer⟩ ms ⟨.complete t, outer⟩

variable {outer : List Pending}

theorem reads_pair {l r : Term} (op : Connective) (hl : ReadsTerm limit outer l)
    (hr : ReadsTerm limit outer r) : ReadsSentence limit outer (.pair l op r) := by
  intro ms h
  obtain ⟨xs, ys, rfl, hx, hy⟩ := List.map_eq_append_iff.1 h
  obtain ⟨m, zs, rfl, hm, hz⟩ := List.map_eq_cons_iff.1 hy
  have ho : Reads limit True (fill {} l outer) [m] ⟨.pending ⟨some (l, op), 0⟩, outer⟩ :=
    .of_step (x := .operator op) hm (.operator l op outer)
  refine ((hl xs {} hx).append fun _ ↦ ho.append fun _ ↦ hr zs ⟨some (l, op), 0⟩ hz).congr ?_
  simp only [Sentence.depth, true_and]
  omega

theorem reads_enclose {t : Sentence} (ho : outer.length ≤ limit)
    (ht : ∀ p, outer.length < limit → ReadsSentence limit (p :: outer) t) :
    ReadsTerm limit outer t.enclose := by
  intro ms p h
  rw [Sentence.symbols_enclose] at h
  obtain ⟨m, xs, rfl, hm, hx⟩ := List.map_eq_cons_iff.1 h
  obtain ⟨ys, zs, rfl, hy, hz⟩ := List.map_eq_append_iff.1 hx
  obtain ⟨m', rfl, hm'⟩ := List.map_eq_singleton_iff.1 hz
  have hc : Reads limit True ⟨.complete t, p :: outer⟩ [m'] (fill p t.enclose outer) :=
    .of_step (x := .closing) hm' (.closing t p outer)
  have hd : t.enclose.depth = t.depth + 1 := by cases t <;> rfl
  refine ((Reads.opening hm p ho).append fun hl ↦
    (ht p hl ys hy).append fun _ ↦ hc).congr ?_
  simp only [List.length_cons, hd, and_true]
  omega

theorem reads_single {t : Term} {x : Sign} (hx : t.symbols = [x.symbol]) (hd : t.depth = 0)
    (h : ∀ p, Step limit ⟨.pending p, outer⟩ x (fill p t outer)) (ho : outer.length ≤ limit) :
    ReadsTerm limit outer t := by
  intro ms p hs
  rw [hx] at hs
  obtain ⟨m, rfl, hm⟩ := List.map_eq_singleton_iff.1 hs
  refine (Reads.of_step hm (h p)).congr ?_
  simpa [hd] using ho

theorem reads_term (t : Term) (ho : outer.length ≤ limit) : ReadsTerm limit outer t := by
  induction t generalizing outer with
  | falsum => exact reads_single (x := .falsum) rfl rfl (.falsum · outer) ho
  | verum => exact reads_single (x := .verum) rfl rfl (.verum · outer) ho
  | letter v => exact reads_single (x := .letter v) rfl rfl (.letter · v outer) ho
  | negation t ih =>
    intro ms p h
    obtain ⟨m, xs, rfl, hm, hx⟩ := List.map_eq_cons_iff.1 h
    have hn : Reads limit True ⟨.pending p, outer⟩ [m] ⟨.pending p.negate, outer⟩ :=
      .of_step (x := .negation) hm (.negation p outer)
    exact (hn.append fun _ ↦ ih ho xs p.negate hx).congr (iff_of_eq (true_and _))
  | group t ih =>
    refine reads_enclose (t := .term t) ho fun p hl ms hm ↦ ?_
    have ho' : (p :: outer).length ≤ limit := hl
    exact ih ho' ms {} hm
  | pair l op r ihl ihr =>
    exact reads_enclose (t := .pair l op r) ho fun p hl ↦ reads_pair op (ihl hl) (ihr hl)

theorem reads_sentence (t : Sentence) (ho : outer.length ≤ limit) :
    ReadsSentence limit outer t := by
  cases t with
  | term t => exact fun ms h ↦ reads_term t ho ms {} h
  | pair l op r => exact reads_pair op (reads_term l ho) (reads_term r ho)

theorem reads_text (limit : Nat) (t : Sentence) {ms : List Mark}
    (h : ms.map Mark.symbol = t.symbols) :
    Reads limit (t.depth ≤ limit) {} ms ⟨.complete t, []⟩ := by
  refine (reads_sentence t (Nat.zero_le limit) ms h).congr ?_
  rw [List.length_nil, Nat.zero_add]

end Sketch

variable {limit : Nat} {t u : Sentence} {ms : List Mark}

theorem derive_of_symbols (h : ms.map Mark.symbol = t.symbols) (hd : t.depth ≤ limit) :
    derive limit ms = .ok t := by
  obtain ⟨-, hr⟩ | ⟨hn, -⟩ := Sketch.reads_text limit t h
  · rw [derive, hr]
    rfl
  · exact absurd hd hn

/-- Where the nesting is too deep, the first parenthesis that makes it so is found. -/
theorem derive_of_depth_lt (h : ms.map Mark.symbol = t.symbols) (hd : limit < t.depth) :
    ∃ before m after, ms = before ++ m :: after ∧ m.symbol = '(' ∧
      Text.level 0 (before.map Mark.symbol) = limit ∧
      Text.nesting 0 (before.map Mark.symbol) ≤ limit ∧
      derive limit ms = .error (.lexical (.tooDeep m.position limit)) := by
  obtain ⟨hn, -⟩ | ⟨-, before, m, after, p, outer, rfl, hm, ho, hr⟩ :=
    Sketch.reads_text limit t h
  · omega
  · obtain ⟨hl, hn⟩ := Sketch.run_level hr (Nat.zero_le limit)
    refine ⟨before, m, after, rfl, hm, hl.trans ho, hn, ?_⟩
    have hs : Sketch.step limit ⟨.pending p, outer⟩ m =
        .error (.lexical (.tooDeep m.position limit)) := by
      rw [Sketch.step, hm]
      exact if_pos ho
    rw [derive, Sketch.run_append, hr]
    simp only [Except.bind, Sketch.run, hs]

theorem symbols_of_derive (h : derive limit ms = .ok t) : t.symbols = ms.map Mark.symbol := by
  rw [derive] at h
  cases hr : Sketch.run limit {} ms with
  | error e => rw [hr] at h; cases h
  | ok s =>
    rw [hr] at h
    have hs := Sketch.run_symbols hr
    obtain ⟨draft, outer⟩ := s
    cases draft with
    | pending p => cases h
    | complete u =>
      cases outer with
      | nil =>
        cases h
        exact hs
      | cons p outer => cases h

theorem derive_eq_ok_iff :
    derive limit ms = .ok t ↔ t.symbols = ms.map Mark.symbol ∧ t.depth ≤ limit := by
  constructor
  · intro h
    have hs := symbols_of_derive h
    refine ⟨hs, Nat.le_of_not_lt fun hd ↦ ?_⟩
    obtain ⟨before, m, after, -, -, -, -, he⟩ := derive_of_depth_lt hs.symm hd
    rw [h] at he
    cases he
  · rintro ⟨hs, hd⟩
    exact derive_of_symbols hs.symm hd

/-- A text has one derivation at most. -/
theorem Sentence.symbols_injective (h : t.symbols = u.symbols) : t = u := by
  -- Derivations are found one at a time, and some limit leaves room for both of these.
  let ms := t.symbols.map fun c ↦ (⟨c, 0⟩ : Mark)
  have hm : ms.map Mark.symbol = t.symbols := by simp [ms, Function.comp_def]
  have ht : derive (max t.depth u.depth) ms = .ok t := derive_of_symbols hm (Nat.le_max_left ..)
  have hu : derive (max t.depth u.depth) ms = .ok u :=
    derive_of_symbols (hm.trans h) (Nat.le_max_right ..)
  rw [ht] at hu
  exact Except.ok.inj hu

end Sentential.Grammar
