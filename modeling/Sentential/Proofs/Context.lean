import Sentential.Proofs.Nesting
import Sentential.Proofs.Sketch.Reader

namespace Sentential.Context

open Text

/-- What a character can do to a context. -/
inductive Step : Context → Sign → Context → Prop
  | falsum (d : Nat) : Step ⟨.value, d⟩ .falsum ⟨.operatorOrClose, d⟩
  | verum (d : Nat) : Step ⟨.value, d⟩ .verum ⟨.operatorOrClose, d⟩
  | letter (v : Variable) (d : Nat) : Step ⟨.value, d⟩ (.letter v) ⟨.operatorOrClose, d⟩
  | negation (d : Nat) : Step ⟨.value, d⟩ .negation ⟨.value, d⟩
  | opening (d : Nat) (h : d ≠ maxDepth) : Step ⟨.value, d⟩ .opening ⟨.value, d + 1⟩
  | closing (d : Nat) : Step ⟨.operatorOrClose, d + 1⟩ .closing ⟨.operatorOrClose, d⟩
  | operator (op : Connective) (d : Nat) :
      Step ⟨.operatorOrClose, d⟩ (.operator op) ⟨.value, d⟩

variable {k k' k'' : Context} {m : Mark} {x : Sign} {text : List Char}

theorem read_of_step (hm : m.symbol = x.symbol) (h : Step k x k') :
    k.read m = .ok (⟨m, x.kind⟩, k') := by
  rw [read_eq, hm, Sign.ofChar?_symbol]
  cases h with
  | opening d h =>
    have ha : advance ⟨.value, d⟩ m .opening = .ok ⟨.value, d + 1⟩ := if_neg h
    simp only [Sign.kind, Expected.admits, ha, if_true]
    rfl
  | _ => rfl

theorem exists_step_of_read {y : Lexeme} (h : k.read m = .ok (y, k')) :
    ∃ x : Sign, m.symbol = x.symbol ∧ y = ⟨m, x.kind⟩ ∧ Step k x k' := by
  obtain ⟨expected, d⟩ := k
  rw [read_eq] at h
  cases hx : Sign.ofChar? m.symbol with
  | none => rw [hx] at h; cases h
  | some x =>
    refine ⟨x, (Sign.symbol_of_ofChar? hx).symm, ?_⟩
    rw [hx] at h
    cases expected with
    | value =>
      cases x with
      | falsum => cases h; exact ⟨rfl, .falsum d⟩
      | verum => cases h; exact ⟨rfl, .verum d⟩
      | letter v => cases h; exact ⟨rfl, .letter v d⟩
      | negation => cases h; exact ⟨rfl, .negation d⟩
      | opening =>
        by_cases hd : d = maxDepth
        · have ha : advance ⟨.value, d⟩ m .opening = .error (.tooDeep m.position maxDepth) :=
            if_pos hd
          simp [Sign.kind, Expected.admits, ha, Except.map] at h
        · have ha : advance ⟨.value, d⟩ m .opening = .ok ⟨.value, d + 1⟩ := if_neg hd
          simp only [Sign.kind, Expected.admits, ha, if_true] at h
          cases h
          exact ⟨rfl, .opening d hd⟩
      | operator op | closing => cases h
    | operatorOrClose =>
      cases x with
      | operator op => cases h; exact ⟨rfl, .operator op d⟩
      | closing =>
        cases d with
        | zero => cases h
        | succ d => cases h; exact ⟨rfl, .closing d⟩
      | _ => cases h

theorem position?_of_advance {kind : LexemeKind} {e : LexicalError}
    (h : k.advance m kind = .error e) : e.position? = some m.position := by
  cases kind with
  | opening | closing =>
    rw [advance] at h
    split at h <;> cases h
    rfl
  | _ => cases h

theorem position?_of_read {e : LexicalError} (h : k.read m = .error e) :
    e.position? = some m.position := by
  rw [read] at h
  cases hk : LexemeKind.ofChar? m.symbol with
  | none =>
    rw [hk] at h
    cases h
    rfl
  | some kind =>
    rw [hk] at h
    by_cases hb : k.expected.admits kind = true
    · simp only [hb, if_true] at h
      cases ha : k.advance m kind with
      | error e' =>
        rw [ha] at h
        cases h
        exact position?_of_advance ha
      | ok k' => rw [ha] at h; cases h
    · simp only [hb] at h
      cases h
      rfl

theorem Step.unique (h : Step k x k') (h' : Step k x k'') : k' = k'' := by
  have hr := read_of_step (m := ⟨x.symbol, 0⟩) rfl h
  have hr' := read_of_step (m := ⟨x.symbol, 0⟩) rfl h'
  rw [hr] at hr'
  cases hr'
  rfl

theorem Step.depth_eq (h : Step k x k') : k'.depth = level k.depth [x.symbol] := by
  rw [level, level, level, level]
  simp only [Sign.symbol_eq_opening, Sign.symbol_eq_closing]
  cases h <;> simp

theorem Step.depth_le (h : Step k x k') (hk : k.depth ≤ maxDepth) : k'.depth ≤ maxDepth := by
  cases h with
  | opening d h => exact Nat.lt_of_le_of_ne hk h
  | closing d => exact Nat.le_of_succ_le hk
  | _ => exact hk

/-- The texts that are in order up to their end if they start in a context. -/
inductive Accepts : Context → List Char → Prop
  | nil : Accepts ⟨.operatorOrClose, 0⟩ []
  | cons {k k' : Context} {x : Sign} {text : List Char} (h : Step k x k') (ht : Accepts k' text) :
      Accepts k (x.symbol :: text)

theorem accepts_nil_iff : Accepts k [] ↔ k.ending = none := by
  obtain ⟨expected, d⟩ := k
  constructor
  · intro h
    cases h
    rfl
  · intro h
    cases expected with
    | value => cases h
    | operatorOrClose =>
      cases d with
      | zero => exact .nil
      | succ d => simp [ending] at h

theorem exists_step_of_accepts {c : Char} (h : Accepts k (c :: text)) :
    ∃ (x : Sign) (k' : Context), c = x.symbol ∧ Step k x k' ∧ Accepts k' text := by
  cases h with
  | cons h ht => exact ⟨_, _, rfl, h, ht⟩

theorem accepts_cons_iff (h : Step k x k') : Accepts k (x.symbol :: text) ↔ Accepts k' text := by
  constructor
  · intro ha
    obtain ⟨y, k'', hy, hs, ht⟩ := exists_step_of_accepts ha
    cases Sign.symbol_injective hy
    rw [h.unique hs]
    exact ht
  · exact .cons h

theorem Accepts.nesting_le (h : Accepts k text) (hk : k.depth ≤ maxDepth) :
    nesting k.depth text ≤ maxDepth := by
  induction h with
  | nil => exact hk
  | cons h _ ih =>
    rw [nesting_cons, ← h.depth_eq]
    exact Nat.max_le.2 ⟨hk, ih (h.depth_le hk)⟩

end Sentential.Context
