import Sentential.Proofs.Context
import Sentential.Proofs.Reach

namespace Sentential

/-- A group holds what its phase says. -/
structure Group.InPhase (g : Group) : Prop where
  ne_closed : g.phase ≠ .closed
  operator_eq_none : g.phase = .operatorOrClose → g.operator = none
  operator_isSome : g.phase = .close → g.operator.isSome = true
  left_isSome_iff : g.left.inner.isSome = true ↔ ¬(g.phase = .operand ∧ g.operator = none)
  right_isSome_iff : g.right.inner.isSome = true ↔ g.phase = .close

namespace Group.InPhase

variable {g : Group}

theorem new : InPhase {} where
  ne_closed := by decide
  operator_eq_none := by rintro ⟨⟩
  operator_isSome := by rintro ⟨⟩
  left_isSome_iff := by decide
  right_isSome_iff := by decide

theorem negate (h : g.InPhase) : g.negate.InPhase := by
  obtain ⟨phase, left, right, operator, occurrences⟩ := g
  cases operator with
  | none | some op =>
    exact ⟨h.ne_closed, h.operator_eq_none, h.operator_isSome, h.left_isSome_iff,
      h.right_isSome_iff⟩

theorem fill (h : g.InPhase) (hp : g.phase = .operand) (s : Statement) (occurrences : Nat) :
    (g.fill s occurrences).InPhase := by
  obtain ⟨phase, left, right, operator, _⟩ := g
  obtain rfl : phase = .operand := hp
  have hl : left.inner.isSome = true ↔ operator ≠ none := by simpa using h.left_isSome_iff
  have hr : ¬right.inner.isSome = true := by simpa using h.right_isSome_iff
  cases operator with
  | none =>
    refine ⟨by simp [Group.fill], fun _ ↦ rfl, by rintro ⟨⟩, ?_, ?_⟩
    · simp [Group.fill, modify, Operand.fill]
    · simpa [Group.fill, modify] using hr
  | some op =>
    refine ⟨by simp [Group.fill], by rintro ⟨⟩, fun _ ↦ rfl, ?_, ?_⟩
    · simpa [Group.fill, modify] using hl
    · simp [Group.fill, modify, Operand.fill]

theorem connect (h : g.InPhase) (hp : g.phase = .operatorOrClose) (op : Connective) :
    (g.connect op).InPhase := by
  obtain ⟨phase, left, right, operator, _⟩ := g
  obtain rfl : phase = .operatorOrClose := hp
  refine ⟨by rintro ⟨⟩, by rintro ⟨⟩, by rintro ⟨⟩, ?_, ?_⟩
  · simpa [Group.connect] using h.left_isSome_iff
  · simpa [Group.connect] using h.right_isSome_iff

end Group.InPhase

theorem Group.phase_negate (g : Group) : g.negate.phase = g.phase := by
  cases h : g.operator <;> simp [negate, modify, h]

theorem Group.phase_fill_ne (g : Group) (s : Statement) (occurrences : Nat) :
    (g.fill s occurrences).phase ≠ .operand := by
  cases h : g.operator <;> simp [fill, h]

/-- What a lexeme of some kind can do to the groups. -/
inductive Nest.Step : Nest → LexemeKind → Nest → Prop
  | falsum {g : Group} {outer : List Group} (hg : g.phase = .operand) :
      Step ⟨g, outer⟩ .falsum ⟨g.fill .falsum 0, outer⟩
  | verum {g : Group} {outer : List Group} (hg : g.phase = .operand) :
      Step ⟨g, outer⟩ .verum ⟨g.fill .verum 0, outer⟩
  | letter {g : Group} {outer : List Group} (hg : g.phase = .operand) (v : Variable) :
      Step ⟨g, outer⟩ .letter ⟨g.fill (.var v) v.bit, outer⟩
  | negation {g : Group} {outer : List Group} (hg : g.phase = .operand) :
      Step ⟨g, outer⟩ .negation ⟨g.negate, outer⟩
  | opening {g : Group} {outer : List Group} (hg : g.phase = .operand) :
      Step ⟨g, outer⟩ .opening ⟨{}, g :: outer⟩
  | operator {g : Group} {outer : List Group} (hg : g.phase = .operatorOrClose)
      (op : Connective) : Step ⟨g, outer⟩ .operator ⟨g.connect op, outer⟩
  | closing {g g' : Group} {outer : List Group} {s : Statement} (hg : g.phase ≠ .operand)
      (hs : g.build = .ok s) :
      Step ⟨g, g' :: outer⟩ .closing ⟨g'.fill s g.occurrences, outer⟩
  | closed {g : Group} {s : Statement} (hg : g.phase ≠ .operand) (hs : g.build = .ok s) :
      Step ⟨g, []⟩ .closing ⟨{ g with phase := .closed }, []⟩

theorem Nest.step_of_close {n n' : Nest} (hp : n.group.phase ≠ .operand)
    (h : n.close = .ok n') : Step n .closing n' := by
  obtain ⟨g, outer⟩ := n
  cases hb : g.build with
  | error e => simp [close, hb, bind, Except.bind] at h
  | ok s =>
    cases outer with
    | nil =>
      simp only [close, hb, bind, Except.bind] at h
      cases h
      exact .closed hp hb
    | cons g' outer =>
      simp only [close, hb, bind, Except.bind] at h
      cases h
      exact .closing hp hb

theorem Nest.step_of_step {n n' : Nest} {x : Lexeme} (h : n.step x = .ok n') :
    Step n x.kind n' := by
  obtain ⟨g, outer⟩ := n
  obtain ⟨m, kind⟩ := x
  cases hp : g.phase with
  | operand =>
    cases kind with
    | falsum => simp only [step, hp] at h; cases h; exact .falsum hp
    | verum => simp only [step, hp] at h; cases h; exact .verum hp
    | letter =>
      simp only [step, hp] at h
      cases hv : Variable.ofChar? m.symbol with
      | none => rw [hv] at h; cases h
      | some v => rw [hv] at h; cases h; exact .letter hp v
    | negation => simp only [step, hp] at h; cases h; exact .negation hp
    | opening => simp only [step, hp] at h; cases h; exact .opening hp
    | operator | closing => simp only [step, hp] at h; cases h
  | operatorOrClose =>
    cases kind with
    | operator =>
      simp only [step, hp] at h
      cases ho : Connective.ofSymbol? m.symbol with
      | none => rw [ho] at h; cases h
      | some op => rw [ho] at h; cases h; exact .operator hp op
    | closing =>
      simp only [step, hp] at h
      exact step_of_close (by simp [hp]) h
    | _ => simp only [step, hp] at h; cases h
  | close =>
    cases kind with
    | closing =>
      simp only [step, hp] at h
      exact step_of_close (by simp [hp]) h
    | _ => simp only [step, hp] at h; cases h
  | closed => simp only [step, hp] at h; cases h

/-- After the same lexemes, the context and the groups are at the same point of a text. The groups
around the innermost one wait for it as their operand. -/
structure InStep (xs : List Lexeme) (k : Context) (n : Nest) : Prop where
  depth_eq : k.depth = n.outer.length
  balanced : (xs.countP fun x ↦ x.kind = .opening) =
    (xs.countP fun x ↦ x.kind = .closing) + n.outer.length
  depth_le : k.depth ≤ Context.maxDepth
  value_iff : k.expected = .value ↔ n.group.phase = .operand
  inPhase : n.group.InPhase
  waiting : ∀ g ∈ n.outer, g.InPhase ∧ g.phase = .operand

namespace InStep

variable {xs : List Lexeme} {x : Lexeme} {g g' : Group} {outer : List Group} {d : Nat}
variable {expected : Expected}

theorem new : InStep [] {} {} where
  depth_eq := rfl
  balanced := rfl
  depth_le := Nat.zero_le _
  value_iff := by decide
  inPhase := .new
  waiting := by simp

/-- A lexeme that is no parenthesis changes the innermost group only. -/
theorem change (h : InStep xs ⟨expected, d⟩ ⟨g, outer⟩) {expected' : Expected}
    (hx : x.kind ≠ .opening ∧ x.kind ≠ .closing)
    (hv : expected' = .value ↔ g'.phase = .operand) (hg : g'.InPhase) :
    InStep (xs ++ [x]) ⟨expected', d⟩ ⟨g', outer⟩ where
  depth_eq := h.depth_eq
  balanced := by simpa [List.countP_append, hx] using h.balanced
  depth_le := h.depth_le
  value_iff := hv
  inPhase := hg
  waiting := h.waiting

theorem fill (h : InStep xs ⟨.value, d⟩ ⟨g, outer⟩) (hx : x.kind ≠ .opening ∧ x.kind ≠ .closing)
    (s : Statement) (occurrences : Nat) :
    InStep (xs ++ [x]) ⟨.operatorOrClose, d⟩ ⟨g.fill s occurrences, outer⟩ := by
  have hv : Expected.operatorOrClose = .value ↔ (g.fill s occurrences).phase = .operand := by
    simp [g.phase_fill_ne]
  exact h.change hx hv (h.inPhase.fill (h.value_iff.1 rfl) s occurrences)

theorem negate (h : InStep xs ⟨.value, d⟩ ⟨g, outer⟩)
    (hx : x.kind ≠ .opening ∧ x.kind ≠ .closing) :
    InStep (xs ++ [x]) ⟨.value, d⟩ ⟨g.negate, outer⟩ :=
  h.change hx (g.phase_negate ▸ h.value_iff) h.inPhase.negate

theorem connect (h : InStep xs ⟨expected, d⟩ ⟨g, outer⟩)
    (hx : x.kind ≠ .opening ∧ x.kind ≠ .closing) (hg : g.phase = .operatorOrClose)
    (op : Connective) : InStep (xs ++ [x]) ⟨.value, d⟩ ⟨g.connect op, outer⟩ :=
  h.change hx (iff_of_true rfl rfl) (h.inPhase.connect hg op)

theorem opening (h : InStep xs ⟨.value, d⟩ ⟨g, outer⟩) (hx : x.kind = .opening)
    (hd : d ≠ Context.maxDepth) : InStep (xs ++ [x]) ⟨.value, d + 1⟩ ⟨{}, g :: outer⟩ where
  depth_eq := congrArg (· + 1) h.depth_eq
  balanced := by
    have hb := h.balanced
    simp [List.countP_append, hx] at hb ⊢
    omega
  depth_le := Nat.lt_of_le_of_ne h.depth_le hd
  value_iff := iff_of_true rfl rfl
  inPhase := .new
  waiting := List.forall_mem_cons.2 ⟨⟨h.inPhase, h.value_iff.1 rfl⟩, h.waiting⟩

theorem closing (h : InStep xs ⟨.operatorOrClose, d + 1⟩ ⟨g, g' :: outer⟩)
    (hx : x.kind = .closing) (s : Statement) (occurrences : Nat) :
    InStep (xs ++ [x]) ⟨.operatorOrClose, d⟩ ⟨g'.fill s occurrences, outer⟩ := by
  obtain ⟨⟨hg, hp⟩, hw⟩ := List.forall_mem_cons.1 h.waiting
  refine ⟨Nat.succ.inj h.depth_eq, ?_, Nat.le_of_succ_le h.depth_le, ?_,
    hg.fill hp s occurrences, hw⟩
  · have hb := h.balanced
    simp [List.countP_append, hx] at hb ⊢
    omega
  · simp [g'.phase_fill_ne]

theorem step {k k' : Context} {n n' : Nest} {m : Mark} (h : InStep xs k n)
    (hk : k.read m = .ok (x, k')) (hn : n.step x = .ok n') : InStep (xs ++ [x]) k' n' := by
  obtain ⟨y, -, rfl, hs⟩ := Context.exists_step_of_read hk
  have hn := Nest.step_of_step hn
  cases hs with
  | falsum d | verum d | letter v d => cases hn; exact h.fill (by simp [Sign.kind]) _ _
  | negation d => cases hn; exact h.negate (by simp [Sign.kind])
  | opening d hd => cases hn; exact h.opening rfl hd
  | closing d =>
    cases hn with
    | closing hg hs => exact h.closing rfl _ _
    -- The lexer counts the groups, so it lets no parenthesis pass that would close the text.
    | closed hg hs => cases h.depth_eq
  | operator op d =>
    cases hn with
    | operator hg op' => exact h.connect (by simp [Sign.kind]) hg op'

end InStep

namespace Parsed

/-- The states that reading a text goes through, as `Reaches` has them, and the lexemes that have
been drawn on the way. -/
inductive Draws (text : String) : List Lexeme → LexemeStream → Nest → Prop
  | start : Draws text [] (.ofText text) {}
  | step {xs : List Lexeme} {s s' : LexemeStream} {n n' : Nest} {x : Lexeme} (h : Draws text xs s n)
      (hx : s.next.value = (some (.ok x), s')) (hn : n.step x = .ok n') :
      Draws text (xs ++ [x]) s' n'

variable {text : String} {xs : List Lexeme} {s : LexemeStream} {n : Nest}

theorem reaches_iff : Reaches text s n ↔ ∃ xs, Draws text xs s n := by
  constructor
  · intro h
    induction h with
    | start => exact ⟨[], .start⟩
    | step _ hx hn ih =>
      obtain ⟨xs, h⟩ := ih
      exact ⟨_, h.step hx hn⟩
  · rintro ⟨xs, h⟩
    induction h with
    | start => exact .start
    | step _ hx hn ih => exact ih.step hx hn

theorem Draws.reaches (h : Draws text xs s n) : Reaches text s n := reaches_iff.2 ⟨xs, h⟩

theorem Draws.inStep (h : Draws text xs s n) : InStep xs s.context n := by
  induction h with
  | start => exact .new
  | step _ hx hn ih =>
    obtain ⟨m, ms, k, -, hk, rfl⟩ := LexemeStream.exists_mark_of_next hx
    exact ih.step hk hn

/-- Whenever the next lexeme is about to be drawn, the depth of the lexer is the number of groups
around the innermost one, and it expects the start of an operand just if this group does. What the
group has so far can be told from its phase. -/
theorem draws_lockstep (h : Draws text xs s n) :
    s.context.depth = n.outer.length ∧
    (xs.countP fun x ↦ x.kind = .opening) =
      (xs.countP fun x ↦ x.kind = .closing) + n.outer.length ∧
    n.outer.length ≤ 256 ∧
    (s.context.expected = .value ↔ n.group.phase = .operand) ∧
    n.group.phase ≠ .closed ∧
    (n.group.phase = .operatorOrClose → n.group.operator = none) ∧
    (n.group.phase = .close → n.group.operator.isSome = true) ∧
    (n.group.left.inner.isSome = true ↔
      ¬(n.group.phase = .operand ∧ n.group.operator = none)) ∧
    (n.group.right.inner.isSome = true ↔ n.group.phase = .close) := by
  have hs := h.inStep
  have hg := hs.inPhase
  have hd : n.outer.length ≤ 256 := hs.depth_eq ▸ hs.depth_le
  exact ⟨hs.depth_eq, hs.balanced, hd, hs.value_iff, hg.ne_closed, hg.operator_eq_none,
    hg.operator_isSome, hg.left_isSome_iff, hg.right_isSome_iff⟩

theorem draws_lockstep_of_two_groups :
    ∃ xs s n, Draws "(a & !(" xs s n ∧ xs.map Lexeme.toMark = marks 0 "(a & !(".toList ∧
      n.outer.length = 2 ∧ s.context.depth = n.outer.length ∧
      (xs.countP fun x ↦ x.kind = .opening) =
        (xs.countP fun x ↦ x.kind = .closing) + n.outer.length := by
  have h := (((((@Draws.start "(a & !(").step rfl rfl).step rfl rfl).step rfl rfl).step rfl
    rfl).step rfl rfl
  obtain ⟨hd, hb, -⟩ := draws_lockstep h
  exact ⟨_, _, _, h, rfl, rfl, hd, hb⟩

end Parsed

end Sentential
