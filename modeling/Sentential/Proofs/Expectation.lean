import Sentential.Proofs.Classification
import Sentential.Proofs.Context.Leads

namespace Sentential

open Text

/-- The characters that stand between apostrophes. -/
def Text.quotedChars : List Char → List Char
  | '\'' :: c :: '\'' :: text => c :: quotedChars text
  | _ :: text => quotedChars text
  | [] => []

namespace Expected

/-- The characters that the description names. The letters are named by what they are the start
of. -/
def Lists (e : Expected) (c : Char) : Prop :=
  c ∈ quotedChars e.description.toList ∨ e = .value ∧ c.isAlpha = true

theorem quotedChars_description (e : Expected) :
    quotedChars e.description.toList = match e with
      | .value => ['!', '(', '0', '1']
      | .operatorOrClose => [')', '&', '|', '^', '>', '='] := by
  cases e <;> rfl

theorem exists_sign_of_lists {e : Expected} {c : Char} (h : e.Lists c) :
    ∃ x : Sign, c = x.symbol := by
  rcases h with h | ⟨-, h⟩
  · have hs : ((quotedChars e.description.toList).all fun c ↦ (Sign.ofChar? c).isSome) = true := by
      cases e <;> rfl
    obtain ⟨x, hx⟩ := Option.isSome_iff_exists.1 (List.all_eq_true.1 hs c h)
    exact ⟨x, (Sign.symbol_of_ofChar? hx).symm⟩
  · obtain ⟨v, rfl⟩ := Variable.isAlpha_iff.1 h
    exact ⟨.letter v, rfl⟩

theorem lists_symbol_iff {e : Expected} {x : Sign} : e.Lists x.symbol ↔ e.admits x.kind = true := by
  rw [Lists, quotedChars_description]
  cases x with
  | letter v =>
    have hv : v.name.isAlpha = true := Variable.isAlpha_iff.2 ⟨v, rfl⟩
    cases e with
    | value => exact ⟨fun _ ↦ rfl, fun _ ↦ .inr ⟨rfl, hv⟩⟩
    | operatorOrClose =>
      have hs : ([')', '&', '|', '^', '>', '='].all fun c ↦ !c.isAlpha) = true := rfl
      refine ⟨fun h ↦ ?_, nofun⟩
      rcases h with hm | ⟨h, -⟩
      · have hn := List.all_eq_true.1 hs v.name hm
        rw [hv] at hn
        cases hn
      · cases h
  | operator op => cases op <;> cases e <;> decide
  | _ => cases e <;> decide

end Expected

namespace Context

variable {k : Context} {m : Mark} {x : Sign}

theorem exists_step_iff : (∃ k', Step k x k') ↔ k.expected.admits x.kind = true ∧
    (x = .closing → k.depth ≠ 0) ∧ (x = .opening → k.depth ≠ maxDepth) := by
  obtain ⟨expected, d⟩ := k
  constructor
  · rintro ⟨k', h⟩
    cases h with
    | opening d h => exact ⟨rfl, nofun, fun _ ↦ h⟩
    | closing d => exact ⟨rfl, fun _ ↦ Nat.succ_ne_zero d, nofun⟩
    | _ => exact ⟨rfl, nofun, nofun⟩
  · rintro ⟨ha, hc, ho⟩
    cases expected with
    | value =>
      cases x with
      | falsum => exact ⟨_, .falsum d⟩
      | verum => exact ⟨_, .verum d⟩
      | letter v => exact ⟨_, .letter v d⟩
      | negation => exact ⟨_, .negation d⟩
      | opening => exact ⟨_, .opening d (ho rfl)⟩
      | operator op | closing => cases ha
    | operatorOrClose =>
      cases x with
      | operator op => exact ⟨_, .operator op d⟩
      | closing =>
        obtain ⟨n, rfl⟩ := Nat.exists_eq_succ_of_ne_zero (hc rfl)
        exact ⟨_, .closing n⟩
      | _ => cases ha

theorem exists_step_symbol_iff {c : Char} :
    (∃ (x : Sign) (k' : Context), c = x.symbol ∧ Step k x k') ↔ k.expected.Lists c ∧
      (c = ')' → k.depth ≠ 0) ∧ (c = '(' → k.depth ≠ maxDepth) := by
  constructor
  · intro h
    obtain ⟨x, k', rfl, hs⟩ := h
    obtain ⟨ha, hc, ho⟩ := exists_step_iff.1 ⟨k', hs⟩
    exact ⟨Expected.lists_symbol_iff.2 ha, fun hx ↦ hc (Sign.symbol_eq_closing.1 hx),
      fun hx ↦ ho (Sign.symbol_eq_opening.1 hx)⟩
  · intro h
    obtain ⟨hl, hc, ho⟩ := h
    obtain ⟨x, rfl⟩ := Expected.exists_sign_of_lists hl
    obtain ⟨k', hs⟩ := exists_step_iff.2 ⟨Expected.lists_symbol_iff.1 hl,
      fun hx ↦ hc (Sign.symbol_eq_closing.2 hx), fun hx ↦ ho (Sign.symbol_eq_opening.2 hx)⟩
    exact ⟨x, k', rfl, hs⟩

variable {found : Char} {n : Nat} {expected : Expected}

theorem advance_ne_unexpectedChar (kind : LexemeKind) :
    k.advance m kind ≠ .error (.unexpectedChar found n expected) := by
  intro h
  cases kind with
  | opening | closing =>
    rw [advance] at h
    split at h <;> cases h
  | _ => cases h

theorem expected_of_read
    (h : k.read m = .error (.unexpectedChar found n expected)) : expected = k.expected := by
  rw [read_eq] at h
  cases hx : Sign.ofChar? m.symbol with
  | none => rw [hx] at h; cases h; rfl
  | some x =>
    rw [hx] at h
    by_cases ha : k.expected.admits x.kind = true
    · simp only [ha, if_true] at h
      cases hk : k.advance m x.kind with
      | error e =>
        rw [hk] at h
        cases h
        exact absurd hk (advance_ne_unexpectedChar x.kind)
      | ok k' => rw [hk] at h; cases h
    · simp only [ha] at h
      cases h
      rfl

theorem leads_openings (n d : Nat) (h : d + n ≤ maxDepth) :
    Leads ⟨.value, d⟩ (List.replicate n '(') ⟨.value, d + n⟩ := by
  induction n generalizing d with
  | zero => exact .nil _
  | succ n ih =>
    have hd := ih (d + 1) (by omega)
    rw [Nat.add_assoc, Nat.add_comm 1] at hd
    exact .cons (x := .opening) (.opening d (by omega)) hd

end Context

namespace LexemeStream

variable {front : List Char} {c : Char} {k : Context}

/-- The lexemes of a text and one more character include one for this character. -/
def Takes (front : List Char) (c : Char) : Prop :=
  ∃ xs fault x, (ofText (String.ofList (front ++ [c]))).Yields xs fault ∧ x ∈ xs ∧
    x.toMark = ⟨c, front.length⟩

theorem exists_yields_concat (h : Context.Leads {} (visible front) k) (hc : isBlank c = false) :
    ∃ xs, xs.map Lexeme.toMark = marks 0 front ∧ ∀ ys fault,
      Yields ⟨[⟨c, front.length⟩], k, false⟩ ys fault →
        (ofText (String.ofList (front ++ [c]))).Yields (xs ++ ys) fault := by
  obtain ⟨xs, hxs, hy⟩ := exists_yields_of_leads ((map_symbol_marks 0 front).symm ▸ h)
  refine ⟨xs, hxs, fun ys fault hf ↦ ?_⟩
  rw [ofText, String.toList_ofList, marks_append, Nat.zero_add, marks_cons hc]
  exact hy _ ys fault hf

theorem takes_iff (h : Context.Leads {} (visible front) k) (hc : isBlank c = false) :
    Takes front c ↔ ∃ (x : Sign) (k' : Context), c = x.symbol ∧ Context.Step k x k' := by
  obtain ⟨xs, hxs, hy⟩ := exists_yields_concat h hc
  constructor
  · intro ht
    obtain ⟨ys, fault, y, hys, hmem, hym⟩ := ht
    cases hr : k.read ⟨c, front.length⟩ with
    | error e =>
      -- Then the lexemes are those of the text alone, which stand before its end.
      obtain ⟨rfl, -⟩ := (hy [] (some e) (yields_of_read_error hr)).unique hys
      rw [List.append_nil] at hmem
      have hp := lt_of_mem_marks (hxs ▸ List.mem_map_of_mem hmem)
      rw [hym, Nat.zero_add] at hp
      exact absurd hp (Nat.lt_irrefl _)
    | ok p =>
      obtain ⟨x, hx, -, hs⟩ := Context.exists_step_of_read hr
      exact ⟨x, p.2, hx, hs⟩
  · intro hx
    obtain ⟨x, k', hx, hs⟩ := hx
    have hr := yields_of_read_ok (Context.read_of_step (m := ⟨c, front.length⟩) hx hs)
      (yields_of_ending k')
    exact ⟨_, _, _, hy _ _ hr, List.mem_append_right xs List.mem_cons_self, rfl⟩

variable {text : String} {found : Char} {n : Nat} {expected : Expected} {xs : List Lexeme}

/-- What is said to be expected is what the lexer takes, but for parentheses: one can be closed only
where one is open, and one can be opened only where fewer than 256 are. -/
theorem takes_iff_lists (h : (ofText text).Yields xs (some (.unexpectedChar found n expected)))
    (hc : isBlank c = false) :
    Takes (text.toList.take n) c ↔ expected.Lists c ∧
      (c = ')' → (text.toList.take n).count ')' < (text.toList.take n).count '(') ∧
      (c = '(' → (text.toList.take n).count '(' < (text.toList.take n).count ')' + 256) := by
  obtain ⟨before, m, after, k, hm, hl, he⟩ := h.exists_leads rfl
  cases Context.position?_of_read he
  cases Context.expected_of_read he
  obtain ⟨front, back, ht, hp, rfl, -⟩ := marks_eq_append_cons hm
  have hf : text.toList.take m.position = front := by
    rw [ht, hp, Nat.zero_add, List.take_left]
  rw [map_symbol_marks] at hl
  have hk : k.depth ≤ 256 := hl.depth_le (Nat.zero_le _)
  have hd := hl.count_eq_of_start
  have h₀ : k.depth ≠ 0 ↔ front.count ')' < front.count '(' := by omega
  have h₁ : k.depth ≠ Context.maxDepth ↔ front.count '(' < front.count ')' + 256 := by
    rw [Context.maxDepth]
    omega
  rw [hf, takes_iff hl hc, Context.exists_step_symbol_iff, h₀, h₁]

theorem takes_iff_lists_of_two_letters :
    (ofText "ab").Yields [⟨⟨'a', 0⟩, .letter⟩] (some (.unexpectedChar 'b' 1 .operatorOrClose)) ∧
      isBlank '&' = false ∧ Takes ['a'] '&' := by
  have h : (ofText "ab").Yields [⟨⟨'a', 0⟩, .letter⟩]
      (some (.unexpectedChar 'b' 1 .operatorOrClose)) := .cons rfl (.error rfl)
  have hc : isBlank '&' = false := by decide
  exact ⟨h, hc, (takes_iff_lists h hc).2 ⟨.inl (by decide), nofun, nofun⟩⟩

/-- A text with `n` open groups and no operand. -/
def deepText (n : Nat) : String := String.ofList (List.replicate n '(' ++ [')'])

theorem take_deepText (n : Nat) : (deepText n).toList.take n = List.replicate n '(' := by
  rw [deepText, String.toList_ofList, List.take_left' List.length_replicate]

theorem leads_deepText {n : Nat} (h : n ≤ Context.maxDepth) :
    Context.Leads {} (visible (List.replicate n '(')) ⟨.value, n⟩ := by
  have hl := Context.leads_openings n 0 ((Nat.zero_add n).symm ▸ h)
  rw [Nat.zero_add] at hl
  rwa [visible, List.filter_replicate_of_pos (by decide)]

theorem yields_deepText {n : Nat} (h : n ≤ Context.maxDepth) :
    ∃ xs, (ofText (deepText n)).Yields xs (some (.unexpectedChar ')' n .value)) := by
  obtain ⟨xs, -, hy⟩ := exists_yields_concat (leads_deepText h) (c := ')') (by decide)
  rw [List.length_replicate] at hy
  exact ⟨xs ++ [], hy _ _ (yields_of_read_error rfl)⟩

/-- An expected character that the lexer does not take: a closing parenthesis where no group is
open, and an opening one where 256 are. -/
theorem not_takes_of_lists :
    ((ofText "ab").Yields [⟨⟨'a', 0⟩, .letter⟩] (some (.unexpectedChar 'b' 1 .operatorOrClose)) ∧
      isBlank ')' = false ∧ Expected.operatorOrClose.Lists ')' ∧
      ¬Takes ("ab".toList.take 1) ')') ∧
    (∃ xs, (ofText (deepText 256)).Yields xs (some (.unexpectedChar ')' 256 .value))) ∧
      isBlank '(' = false ∧ Expected.value.Lists '(' ∧
      ¬Takes ((deepText 256).toList.take 256) '(' := by
  have hs : Context.Leads {} (visible ("ab".toList.take 1)) ⟨.operatorOrClose, 0⟩ :=
    .cons (.letter ⟨26⟩ 0) (.nil _)
  have hd : Context.Leads {} (visible (List.replicate 256 '(')) ⟨.value, 256⟩ :=
    leads_deepText (Nat.le_refl 256)
  refine ⟨⟨.cons rfl (.error rfl), by decide, .inl (by decide), ?_⟩,
    yields_deepText (Nat.le_refl 256), by decide, .inl (by decide), ?_⟩
  · rw [takes_iff hs (by decide), Context.exists_step_symbol_iff]
    intro h
    exact h.2.1 rfl rfl
  · rw [take_deepText, takes_iff hd (by decide), Context.exists_step_symbol_iff]
    intro h
    exact h.2.2 rfl rfl

end LexemeStream

end Sentential
