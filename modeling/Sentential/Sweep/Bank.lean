import Sentential.Sweep

namespace Sentential

/-- Sweeps over one signature, numbered from zero in the order in which they were made. -/
structure SweepBank where
  signature : Signature
  sweeps : List Sweep := []
  deriving DecidableEq, Repr

namespace SweepBank

/-- What can be asked of a bank. A sweep is given by its number. -/
inductive Command
  | start
  | copy (i : Nat)
  | next (i : Nat)
  | nth (i n : Nat)
  | take (i n : Nat)
  | reset (i : Nat)
  | sizeHint (i : Nat)
  deriving DecidableEq, Repr

inductive Reply
  | started (i : Nat)
  | refused (e : EnumerationError)
  | drawn (a : Option Assignment)
  | taken (as : List Assignment)
  | done
  | size (lower : Nat) (upper : Option Nat)
  | noSuchSweep
  deriving DecidableEq, Repr

def add (b : SweepBank) (s : Sweep) : Reply × SweepBank :=
  (.started b.sweeps.length, { b with sweeps := b.sweeps ++ [s] })

/-- Lets one sweep act and keeps what is left of it in its place. -/
def act (b : SweepBank) (i : Nat) (f : Sweep → Reply × Sweep) : Reply × SweepBank :=
  match b.sweeps[i]? with
  | none => (.noSuchSweep, b)
  | some s =>
    let (reply, s') := f s
    (reply, { b with sweeps := b.sweeps.set i s' })

def perform (b : SweepBank) : Command → Reply × SweepBank
  | .start =>
    match b.signature.sweep with
    | .error e => (.refused e, b)
    | .ok s => b.add s
  | .copy i =>
    match b.sweeps[i]? with
    | none => (.noSuchSweep, b)
    | some s => b.add s
  | .next i => b.act i fun s ↦ s.next.map .drawn id
  | .nth i n => b.act i fun s ↦ (s.nth n).map .drawn id
  | .take i n => b.act i fun s ↦ (s.take n).map .taken id
  | .reset i => b.act i fun s ↦ (.done, s.reset)
  | .sizeHint i => b.act i fun s ↦ (.size s.sizeHint.1 s.sizeHint.2, s)

end SweepBank

end Sentential
