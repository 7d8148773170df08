import Mathlib.Data.List.Forall2
import Sentential.Proofs.Sweeps

namespace Sentential

theorem forall₂_set_modify {α β : Type} {R : α → β → Prop} {xs : List α} {ys : List β} {i : Nat}
    {x' : α} {f : β → β} (h : List.Forall₂ R xs ys)
    (hf : ∀ x y, xs[i]? = some x → R x y → R x' (f y)) :
    List.Forall₂ R (xs.set i x') (ys.modify i f) := by
  induction h generalizing i with
  | nil =>
    rw [List.set_nil, List.modify_nil]
    exact .nil
  | cons hxy hs ih =>
    cases i with
    | zero =>
      rw [List.set_cons_zero, List.modify_zero_cons]
      exact .cons (hf _ _ rfl hxy) hs
    | succ i =>
      rw [List.set_cons_succ, List.modify_succ_cons]
      exact .cons hxy (ih hf)

namespace SweepBank

/-- What became of a number that a sweep has left behind. -/
inductive Visit
  | drawn (value : Nat)
  | skipped (value : Nat)
  deriving DecidableEq, Repr

namespace Visit

def value : Visit → Nat
  | drawn value | skipped value => value

def drawn? : Visit → Option Nat
  | drawn value => some value
  | skipped _ => none

theorem map_value_skipped (values : List Nat) : (values.map skipped).map value = values := by
  rw [List.map_map]
  exact List.map_id values

theorem drawn_sublist (visits : List Visit) :
    (visits.filterMap drawn?).Sublist (visits.map value) := by
  induction visits with
  | nil => exact .slnil
  | cons v visits ih =>
    cases v with
    | drawn value => exact ih.cons_cons value
    | skipped value => exact ih.cons value

end Visit

/-- The visits of a sweep after a command, told from the reply. Only `nth` skips: as many numbers
as it is asked to before the one it draws, and all that are left of `count` if it draws none. -/
def visit (count : Nat) (visits : List Visit) : Command → Reply → List Visit
  | .next _, .drawn (some a) => visits ++ [.drawn a.value]
  | .nth _ n, .drawn (some a) =>
    visits ++ ((List.range' (a.value - n) n).map .skipped ++ [.drawn a.value])
  | .nth _ _, .drawn none =>
    visits ++ (List.range' visits.length (count - visits.length)).map .skipped
  | .take _ _, .taken as => visits ++ as.map (.drawn ·.value)
  | .reset _, .done => []
  | _, _ => visits

/-- The visits of each sweep since it last stood at zero. A copy shares the past of the sweep that
it is made from. -/
def remember (count : Nat) (past : List (List Visit)) (c : Command) (reply : Reply) :
    List (List Visit) :=
  match c, reply with
  | .start, .started _ => past ++ [[]]
  | .copy i, .started _ => past ++ [past.getD i []]
  | _, _ =>
    match c.moves? with
    | none => past
    | some i => past.modify i (visit count · c reply)

/-- A bank at work, with the past of its sweeps. -/
structure Session where
  bank : SweepBank
  past : List (List Visit)

namespace Session

def perform (x : Session) (c : Command) : Session where
  bank := (x.bank.perform c).2
  past := remember x.bank.signature.assignmentCount x.past c (x.bank.perform c).1

/-- What commands make of a bank without sweeps. -/
def run (s : Signature) (cs : List Command) : Session := cs.foldl perform ⟨⟨s, []⟩, []⟩

/-- A sweep stands behind the numbers it has visited, each of them once and in their order. -/
structure Follows (s : Signature) (w : Sweep) (visits : List Visit) : Prop where
  signature_eq : w.signature = s
  position_le : w.position ≤ 2 ^ s.size
  map_value : visits.map Visit.value = List.range w.position

variable {s : Signature} {w : Sweep} {visits : List Visit}

namespace Follows

theorem stop_eq (h : Follows s w visits) : w.stop = 2 ^ s.size := by
  rw [w.stop_eq, h.signature_eq]

theorem position_le_stop (h : Follows s w visits) : w.position ≤ w.stop := by
  rw [h.stop_eq]
  exact h.position_le

theorem length_eq (h : Follows s w visits) : visits.length = w.position := by
  have hl := congrArg List.length h.map_value
  rwa [List.length_map, List.length_range] at hl

theorem zero (s : Signature) : Follows s ⟨s, 0⟩ [] := ⟨rfl, Nat.zero_le _, rfl⟩

/-- Moving on by a stretch of numbers, each of which is visited. -/
theorem advance (h : Follows s w visits) {n : Nat} {more : List Visit}
    (hn : w.position + n ≤ w.stop) (hm : more.map Visit.value = List.range' w.position n) :
    Follows s ⟨w.signature, w.position + n⟩ (visits ++ more) where
  signature_eq := h.signature_eq
  position_le := h.stop_eq ▸ hn
  map_value := by
    have hr : List.range (w.position + n) = List.range w.position ++ List.range' w.position n := by
      rw [List.range_eq_range', List.range_eq_range', ← List.range'_append_1, Nat.zero_add]
    rw [List.map_append, h.map_value, hm, hr]

theorem next (h : Follows s w visits) (i : Nat) :
    Follows s w.next.2 (visit (2 ^ s.size) visits (.next i) (.drawn w.next.1)) := by
  by_cases hn : w.position < w.stop
  · rw [Sweep.next_of_lt hn]
    exact h.advance (n := 1) hn rfl
  · rw [Sweep.next_of_le (Nat.le_of_not_lt hn)]
    exact h

theorem nth (h : Follows s w visits) (i n : Nat) :
    Follows s (w.nth n).2 (visit (2 ^ s.size) visits (.nth i n) (.drawn (w.nth n).1)) := by
  by_cases hn : w.position + n < w.stop
  · -- The number that is drawn is `n` ahead, so the skipped ones are counted back from it.
    rw [Sweep.nth_of_lt hn]
    refine h.advance (n := n + 1) hn ?_
    rw [Nat.add_sub_cancel, List.map_append, Visit.map_value_skipped, List.range'_concat,
      Nat.one_mul]
    rfl
  · have hs : w.position + (w.stop - w.position) = w.stop := Nat.add_sub_of_le h.position_le_stop
    have ha := h.advance (Nat.le_of_eq hs) (Visit.map_value_skipped _)
    rw [hs, ← h.length_eq, h.stop_eq] at ha
    rw [Sweep.nth_of_le (Nat.le_of_not_lt hn), h.stop_eq]
    exact ha

theorem take (h : Follows s w visits) (n : Nat) :
    Follows s (w.take n).2 (visits ++ (w.take n).1.map (.drawn ·.value)) := by
  have hp := h.position_le_stop
  have hm : w.position + min n (w.stop - w.position) = min (w.position + n) w.stop := by omega
  rw [Sweep.take_eq hp, ← hm]
  refine h.advance (by omega) ?_
  rw [List.map_map, List.map_map]
  exact List.map_id _

theorem reset (h : Follows s w visits) : Follows s w.reset [] :=
  ⟨h.signature_eq, Nat.zero_le _, rfl⟩

theorem pairwise_drawn (h : Follows s w visits) :
    (visits.filterMap Visit.drawn?).Pairwise (· < ·) := by
  have hr : (visits.map Visit.value).Pairwise (· < ·) := h.map_value ▸ List.pairwise_lt_range
  exact hr.sublist (Visit.drawn_sublist visits)

end Follows

/-- What all sessions with a signature keep to. -/
structure Sound (s : Signature) (x : Session) : Prop where
  signature_eq : x.bank.signature = s
  follows : List.Forall₂ (Follows s) x.bank.sweeps x.past

namespace Sound

variable {x : Session} {i : Nat}

theorem exists_past (h : Sound s x) (hw : x.bank.sweeps[i]? = some w) :
    ∃ visits, x.past[i]? = some visits ∧ Follows s w visits := by
  obtain ⟨hi, rfl⟩ := List.getElem?_eq_some_iff.1 hw
  have hl := h.follows.length_eq
  exact ⟨x.past[i], List.getElem?_eq_getElem (hl ▸ hi), h.follows.get hi (hl ▸ hi)⟩

theorem add (h : Sound s x) {visits : List Visit} (hw : Follows s w visits) :
    Sound s ⟨(x.bank.add w).2, x.past ++ [visits]⟩ where
  signature_eq := h.signature_eq
  follows := List.rel_append h.follows (.cons hw .nil)

theorem act (h : Sound s x) (c : Command) {f : Sweep → Reply × Sweep}
    (hf : ∀ w visits, Follows s w visits → Follows s (f w).2 (visit (2 ^ s.size) visits c (f w).1))
    (i : Nat) : Sound s ⟨(x.bank.act i f).2,
      x.past.modify i (visit (2 ^ s.size) · c (x.bank.act i f).1)⟩ := by
  cases hw : x.bank.sweeps[i]? with
  | none =>
    -- No sweep has this number, and nothing is told from the reply.
    have hn : (visit (2 ^ s.size) · c .noSuchSweep) = id := by
      funext visits
      cases c <;> rfl
    rw [act_of_none hw, hn, List.modify_id]
    exact h
  | some w =>
    rw [act_of_some hw]
    refine ⟨h.signature_eq, forall₂_set_modify h.follows ?_⟩
    intro w' visits hw' hv
    rw [hw] at hw'
    cases hw'
    exact hf w visits hv

theorem perform (h : Sound s x) (c : Command) : Sound s (x.perform c) := by
  have hc : x.bank.signature.assignmentCount = 2 ^ s.size := by
    rw [h.signature_eq]
    exact s.assignmentCount_eq
  rw [Session.perform, hc]
  cases c with
  | start =>
    rw [SweepBank.perform, h.signature_eq]
    cases he : s.sweep with
    | error e => exact h
    | ok w =>
      obtain ⟨-, rfl⟩ := Signature.sweep_eq_ok_iff.1 he
      exact h.add (.zero s)
  | copy i =>
    cases hw : x.bank.sweeps[i]? with
    | none =>
      rw [SweepBank.perform, hw]
      exact h
    | some w =>
      obtain ⟨visits, hp, hv⟩ := h.exists_past hw
      have hg : x.past.getD i [] = visits := by
        rw [List.getD_eq_getElem?_getD, hp]
        rfl
      have ha := h.add hv
      rw [← hg] at ha
      rw [perform_copy hw]
      exact ha
  | sizeHint i =>
    cases hw : x.bank.sweeps[i]? with
    | none =>
      rw [SweepBank.perform, act_of_none hw]
      exact h
    | some w =>
      rw [perform_sizeHint hw]
      exact h
  | next i => exact h.act (.next i) (fun w visits hv ↦ hv.next i) i
  | nth i n => exact h.act (.nth i n) (fun w visits hv ↦ hv.nth i n) i
  | take i n => exact h.act (.take i n) (fun w visits hv ↦ hv.take n) i
  | reset i => exact h.act (.reset i) (fun w visits hv ↦ hv.reset) i

end Sound

theorem sound_run (s : Signature) (cs : List Command) : Sound s (run s cs) := by
  suffices hs : ∀ x, Sound s x → Sound s (cs.foldl perform x) from hs _ ⟨rfl, .nil⟩
  induction cs with
  | nil =>
    intro x h
    exact h
  | cons c cs ih =>
    intro x h
    exact ih (x.perform c) (h.perform c)

/-- Sweeps over one signature in whatever order they are made, copied and moved: each counts up on
its own to the number of assignments, tells how many are left and begins anew when it is reset. -/
theorem run_sweeps {s : Signature} (hs : 1 ≤ s.size) (cs : List Command) {x : Session}
    (hx : run s cs = x) :
    x.bank.perform .start =
      (.started x.bank.sweeps.length, { x.bank with sweeps := x.bank.sweeps ++ [⟨s, 0⟩] }) ∧
    ∀ i w, x.bank.sweeps[i]? = some w →
      (w.signature = s ∧ w.position ≤ w.stop ∧ w.stop = 2 ^ s.size) ∧
      (x.bank.perform (.sizeHint i) =
        (.size (2 ^ s.size - w.position) (some (2 ^ s.size - w.position)), x.bank) ∧
        (∀ as, w.Yields as ↔ as = (List.range' w.position (2 ^ s.size - w.position)).map
          (Assignment.mk s))) ∧
      (∃ visits, x.past[i]? = some visits ∧ visits.map Visit.value = List.range w.position ∧
        (visits.filterMap Visit.drawn?).Pairwise (· < ·)) ∧
      (∀ n, x.bank.perform (.nth i n) =
          ((fun b : SweepBank ↦ (b.perform (.next i)).2)^[n] x.bank).perform (.next i) ∧
        (2 ^ s.size - w.position ≤ n → x.bank.perform (.nth i n) =
          (.drawn none, { x.bank with sweeps := x.bank.sweeps.set i ⟨s, 2 ^ s.size⟩ }))) ∧
      (∀ n, x.bank.perform (.take i n) =
        (.taken ((List.range' w.position (min n (2 ^ s.size - w.position))).map (Assignment.mk s)),
          { x.bank with
            sweeps := x.bank.sweeps.set i ⟨s, min (w.position + n) (2 ^ s.size)⟩ })) ∧
      x.bank.perform (.reset i) =
        (.done, { x.bank with sweeps := x.bank.sweeps.set i ⟨s, 0⟩ }) ∧
      x.bank.perform (.copy i) =
        (.started x.bank.sweeps.length, { x.bank with sweeps := x.bank.sweeps ++ [w] }) ∧
      ∀ c : Command, c.moves? ≠ some i → (x.bank.perform c).2.sweeps[i]? = some w := by
  have h : Sound s x := hx ▸ sound_run s cs
  constructor
  · have hn : s.sweep = .ok ⟨s, 0⟩ := Signature.sweep_eq_ok_iff.2 ⟨hs, rfl⟩
    rw [SweepBank.perform, h.signature_eq, hn]
    rfl
  · intro i w hw
    obtain ⟨visits, hp, hv⟩ := h.exists_past hw
    have hle := hv.position_le_stop
    have hsig := hv.signature_eq
    have hstop := hv.stop_eq
    refine ⟨⟨hsig, hle, hstop⟩, ⟨?_, ?_⟩, ⟨visits, hp, hv.map_value, hv.pairwise_drawn⟩, ?_, ?_, ?_,
      perform_copy hw, fun c hc ↦ getElem?_perform hc hw⟩
    · rw [perform_sizeHint hw, Sweep.sizeHint, hstop]
    · intro as
      rw [Sweep.yields_iff hle, hstop, hsig]
    · intro n
      refine ⟨perform_nth_eq hw hle n, fun hn ↦ ?_⟩
      rw [perform_nth hw, Sweep.nth_of_le (by omega), hsig, hstop]
    · intro n
      rw [perform_take hw, Sweep.take_eq hle, hsig, hstop]
    · rw [perform_reset hw, Sweep.reset, hsig]

theorem run_sweeps_of_copies :
    1 ≤ (Signature.ofBits 3).size ∧ ∃ x,
      run (.ofBits 3) [.start, .next 0, .copy 0, .nth 1 1, .copy 1, .nth 2 9, .reset 1] = x ∧
      x.bank.sweeps.map Sweep.position = [1, 0, 4] ∧
      x.past = [[.drawn 0], [], [.drawn 0, .skipped 1, .drawn 2, .skipped 3]] ∧
      x.bank.perform (.sizeHint 1) = (.size 4 (some 4), x.bank) := by
  have hs : 1 ≤ (Signature.ofBits 3).size := by decide
  obtain ⟨-, h⟩ := run_sweeps hs
    [.start, .next 0, .copy 0, .nth 1 1, .copy 1, .nth 2 9, .reset 1] rfl
  obtain ⟨-, ⟨hr, -⟩, -⟩ := h 1 ⟨.ofBits 3, 0⟩ rfl
  exact ⟨hs, _, rfl, rfl, rfl, hr⟩

end Session

end SweepBank

end Sentential
