import Mathlib.Logic.Function.Iterate
import Sentential.Proofs.SharedWork
import Sentential.Sweep.Bank

namespace Sentential

theorem Signature.sweep_eq_ok_iff {s : Signature} {w : Sweep} :
    s.sweep = .ok w ↔ 1 ≤ s.size ∧ w = ⟨s, 0⟩ := by
  rw [sweep]
  by_cases h : s.isEmpty = true
  · have hs := isEmpty_eq_true_iff.1 h
    rw [if_pos h]
    constructor
    · intro hw
      cases hw
    · intro hw
      omega
  · have hs := isEmpty_eq_true_iff.not.1 h
    rw [if_neg h, Except.ok.injEq]
    constructor
    · intro hw
      exact ⟨Nat.pos_of_ne_zero hs, hw.symm⟩
    · intro hw
      exact hw.2.symm

namespace Sweep

variable {w w' : Sweep} {as as' : List Assignment}

theorem iterate_next (h : w.position ≤ w.stop) (n : Nat) :
    (fun w : Sweep ↦ w.next.2)^[n] w = ⟨w.signature, min (w.position + n) w.stop⟩ := by
  induction n with
  | zero =>
    rw [Function.iterate_zero, id_eq, Nat.add_zero, Nat.min_eq_left h]
  | succ n ih =>
    rw [Function.iterate_succ_apply', ih]
    by_cases hn : w.position + n < w.stop
    · have hs := next_of_lt (s := ⟨w.signature, w.position + n⟩) hn
      rw [Nat.min_eq_left (Nat.le_of_lt hn), Nat.min_eq_left (by omega), hs]
      rfl
    · have hs := next_of_le (s := ⟨w.signature, w.stop⟩) (Nat.le_refl w.stop)
      rw [Nat.min_eq_right (by omega), Nat.min_eq_right (by omega), hs]

theorem nth_eq (h : w.position ≤ w.stop) (n : Nat) :
    w.nth n = ((fun w : Sweep ↦ w.next.2)^[n] w).next := by
  rw [iterate_next h]
  by_cases hn : w.position + n < w.stop
  · rw [nth_of_lt hn, Nat.min_eq_left (Nat.le_of_lt hn)]
    exact (next_of_lt (s := ⟨w.signature, w.position + n⟩) hn).symm
  · rw [nth_of_le (Nat.le_of_not_lt hn), Nat.min_eq_right (Nat.le_of_not_lt hn)]
    exact (next_of_le (s := ⟨w.signature, w.stop⟩) (Nat.le_refl w.stop)).symm

theorem take_eq (h : w.position ≤ w.stop) (n : Nat) :
    w.take n =
      ((List.range' w.position (min n (w.stop - w.position))).map (Assignment.mk w.signature),
        ⟨w.signature, min (w.position + n) w.stop⟩) := by
  induction n generalizing w with
  | zero =>
    rw [take, Nat.zero_min, Nat.add_zero, Nat.min_eq_left h]
    rfl
  | succ n ih =>
    by_cases hn : w.position < w.stop
    · have hs := ih (w := ⟨w.signature, w.position + 1⟩) hn
      have hm : min (n + 1) (w.stop - w.position) = min n (w.stop - (w.position + 1)) + 1 := by
        omega
      have hp : w.position + (n + 1) = w.position + 1 + n := by omega
      rw [take, next_of_lt hn]
      dsimp only
      rw [hs, hm, List.range'_succ, List.map_cons, hp]
      rfl
    · have hm : min (n + 1) (w.stop - w.position) = 0 := by omega
      have hp : min (w.position + (n + 1)) w.stop = w.position := by omega
      rw [take, next_of_le (Nat.le_of_not_lt hn), hm, hp]
      rfl

theorem Yields.unique (h : w.Yields as) (h' : w.Yields as') : as = as' := by
  induction h generalizing as' with
  | stop hn =>
    cases h' with
    | stop _ => rfl
    | draw hn' _ => rw [hn] at hn'; cases hn'
  | draw hn _ ih =>
    cases h' with
    | stop hn' => rw [hn] at hn'; cases hn'
    | draw hn' h' =>
      rw [hn] at hn'
      cases hn'
      rw [ih h']

theorem yields_iff (h : w.position ≤ w.stop) : w.Yields as ↔
    as = (List.range' w.position (w.stop - w.position)).map (Assignment.mk w.signature) := by
  have hy := yields_range' (Nat.add_sub_of_le h)
  constructor
  · intro ha
    exact ha.unique hy
  · rintro rfl
    exact hy

end Sweep

namespace SweepBank

variable {b : SweepBank} {i j : Nat} {w : Sweep}

theorem act_of_some (h : b.sweeps[i]? = some w) (f : Sweep → Reply × Sweep) :
    b.act i f = ((f w).1, { b with sweeps := b.sweeps.set i (f w).2 }) := by
  rw [act, h]

theorem act_of_none (h : b.sweeps[i]? = none) (f : Sweep → Reply × Sweep) :
    b.act i f = (.noSuchSweep, b) := by
  rw [act, h]

theorem getElem?_act_of_ne (h : i ≠ j) (f : Sweep → Reply × Sweep) :
    (b.act i f).2.sweeps[j]? = b.sweeps[j]? := by
  cases hw : b.sweeps[i]? with
  | none => rw [act_of_none hw]
  | some w =>
    rw [act_of_some hw]
    exact List.getElem?_set_ne h

theorem getElem?_add (h : b.sweeps[i]? = some w) (w' : Sweep) :
    (b.add w').2.sweeps[i]? = some w := by
  have hi := (List.getElem?_eq_some_iff.1 h).1
  rw [add, List.getElem?_append_left hi, h]

/-- The sweep that a command moves. A copy leaves the sweep it is made from where it is. -/
def Command.moves? : Command → Option Nat
  | next i | nth i _ | take i _ | reset i => some i
  | start | copy _ | sizeHint _ => none

theorem perform_sizeHint (h : b.sweeps[i]? = some w) :
    b.perform (.sizeHint i) = (.size w.sizeHint.1 w.sizeHint.2, b) := by
  obtain ⟨hi, rfl⟩ := List.getElem?_eq_some_iff.1 h
  rw [perform, act_of_some h, List.set_getElem_self]

/-- A command leaves all sweeps as they are but the one that it moves. -/
theorem getElem?_perform {c : Command} (hc : c.moves? ≠ some i) (h : b.sweeps[i]? = some w) :
    (b.perform c).2.sweeps[i]? = some w := by
  cases c with
  | start =>
    rw [perform]
    split
    · exact h
    · exact getElem?_add h _
  | copy j =>
    rw [perform]
    split
    · exact h
    · exact getElem?_add h _
  | sizeHint j =>
    cases hw : b.sweeps[j]? with
    | none => rw [perform, act_of_none hw, h]
    | some w' => rw [perform_sizeHint hw, h]
  | next j | nth j n | take j n | reset j =>
    have hj : j ≠ i := fun hj ↦ hc (congrArg some hj)
    exact (getElem?_act_of_ne hj _).trans h

theorem perform_next (h : b.sweeps[i]? = some w) :
    b.perform (.next i) = (.drawn w.next.1, { b with sweeps := b.sweeps.set i w.next.2 }) := by
  rw [perform, act_of_some h]
  rfl

theorem perform_nth (h : b.sweeps[i]? = some w) (n : Nat) : b.perform (.nth i n) =
    (.drawn (w.nth n).1, { b with sweeps := b.sweeps.set i (w.nth n).2 }) := by
  rw [perform, act_of_some h]
  rfl

theorem perform_take (h : b.sweeps[i]? = some w) (n : Nat) : b.perform (.take i n) =
    (.taken (w.take n).1, { b with sweeps := b.sweeps.set i (w.take n).2 }) := by
  rw [perform, act_of_some h]
  rfl

theorem perform_reset (h : b.sweeps[i]? = some w) :
    b.perform (.reset i) = (.done, { b with sweeps := b.sweeps.set i w.reset }) := by
  rw [perform, act_of_some h]

theorem perform_copy (h : b.sweeps[i]? = some w) : b.perform (.copy i) = b.add w := by
  rw [perform, h]

theorem iterate_perform_next (h : b.sweeps[i]? = some w) (n : Nat) :
    (fun b : SweepBank ↦ (b.perform (.next i)).2)^[n] b =
      { b with sweeps := b.sweeps.set i ((fun w : Sweep ↦ w.next.2)^[n] w) } := by
  have hi := (List.getElem?_eq_some_iff.1 h).1
  induction n with
  | zero =>
    obtain ⟨_, rfl⟩ := List.getElem?_eq_some_iff.1 h
    rw [Function.iterate_zero, Function.iterate_zero, id_eq, id_eq, List.set_getElem_self]
  | succ n ih =>
    have hs := List.getElem?_set_self (a := (fun w : Sweep ↦ w.next.2)^[n] w) hi
    rw [Function.iterate_succ_apply', ih, perform_next hs, List.set_set,
      Function.iterate_succ_apply']

/-- Skipping comes to the same as drawing what is skipped. -/
theorem perform_nth_eq (h : b.sweeps[i]? = some w) (hw : w.position ≤ w.stop) (n : Nat) :
    b.perform (.nth i n) =
      ((fun b : SweepBank ↦ (b.perform (.next i)).2)^[n] b).perform (.next i) := by
  have hi := (List.getElem?_eq_some_iff.1 h).1
  have hs := List.getElem?_set_self (a := (fun w : Sweep ↦ w.next.2)^[n] w) hi
  rw [iterate_perform_next h, perform_next hs, perform_nth h, Sweep.nth_eq hw, List.set_set]

end SweepBank

end Sentential
