import Sentential.Parsed

namespace Sentential

theorem Nest.value_run_cons (n : Nest) (entries : List Entry) (x : Lexeme)
    (rs : List (Logged (Except LexicalError Lexeme))) :
    (n.run (⟨entries, .ok x⟩ :: rs)).value = (n.step x).bind fun n' ↦ (n'.run rs).value := by
  rw [run, Logged.value_bind, Logged.value_bind]
  cases n.step x <;> rfl

/-- The two halves of reading side by side: what the lexemes say about the next one, and the groups
that are open. -/
structure Reader where
  context : Context := {}
  nest : Nest := {}
  deriving DecidableEq, Repr

namespace Reader

def step (r : Reader) (m : Mark) : Except SyntaxError Reader :=
  match r.context.read m with
  | .error e => .error (.lexical e)
  | .ok (x, k) => (r.nest.step x).map fun n ↦ ⟨k, n⟩

def run (r : Reader) : List Mark → Except SyntaxError Reader
  | [] => .ok r
  | m :: ms => (r.step m).bind fun r' ↦ r'.run ms

def finish (r : Reader) : Except SyntaxError (Statement × Nat) :=
  match r.context.ending with
  | some e => .error (.lexical e)
  | none => r.nest.finish

/-- Lexemes are taken as they are drawn, so the two halves go mark by mark. -/
theorem value_nest_run (r : Reader) (ms : List Mark) :
    (r.nest.run ((r.context.lexemes ms).map LexemeStream.told)).value = (r.run ms).bind finish := by
  induction ms generalizing r with
  | nil =>
    change _ = r.finish
    rw [Context.lexemes, finish]
    cases r.context.ending <;> rfl
  | cons m ms ih =>
    rw [Context.lexemes, run, step]
    cases r.context.read m with
    | error e => rfl
    | ok xk =>
      obtain ⟨x, k⟩ := xk
      simp only [List.map_cons, LexemeStream.told, Nest.value_run_cons]
      cases r.nest.step x with
      | error e => rfl
      | ok n => exact ih ⟨k, n⟩

end Reader

theorem Parsed.ofText_eq (text : String) :
    ofText text = ((Reader.run {} (marks 0 text.toList)).bind Reader.finish).map fun p ↦
      ⟨p.1, Signature.ofBits p.2⟩ := by
  rw [← Reader.value_nest_run, ofText, read, Logged.value_bind, Logged.value_bind]
  change _ = Except.map _ (Nest.run {} (LexemeStream.ofText text).results).value
  cases (Nest.run {} (LexemeStream.ofText text).results).value <;> rfl

end Sentential
