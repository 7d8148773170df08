import Sentential.Lexeme.Context
import Sentential.Log

namespace Sentential

structure LexemeStream where
  rest : List Mark
  context : Context := {}
  exhausted : Bool := false
  deriving DecidableEq, Repr

namespace LexemeStream

def ofText (text : String) : LexemeStream := { rest := marks 0 text.toList }

/-- The next lexeme, or the error in its place. Nothing follows an error or the end. A lexeme is
logged when it is handed out. -/
def next (s : LexemeStream) : Logged (Option (Except LexicalError Lexeme) × LexemeStream) :=
  if s.exhausted then return (none, s)
  else
    match s.rest with
    | [] => return (s.context.ending.map .error, { s with exhausted := true })
    | m :: rest =>
      match s.context.read m with
      | .error e => return (some (.error e), { s with rest, exhausted := true })
      | .ok (x, context) => do
        Logged.write [.lexeme x]
        return (some (.ok x), { s with rest, context })

def draw : Nat → LexemeStream → List (Option (Except LexicalError Lexeme))
  | 0, _ => []
  | n + 1, s => s.next.value.1 :: draw n s.next.value.2

def told : Except LexicalError Lexeme → Logged (Except LexicalError Lexeme)
  | .ok x => ⟨[.lexeme x], .ok x⟩
  | .error e => ⟨[], .error e⟩

/-- All that is still to be handed out, each result with what is logged then. -/
def results (s : LexemeStream) : List (Logged (Except LexicalError Lexeme)) :=
  if s.exhausted then [] else (s.context.lexemes s.rest).map told

theorem results_eq (s : LexemeStream) :
    s.results = match s.next.value with
      | (none, _) => []
      | (some r, s') => ⟨s.next.entries, r⟩ :: s'.results := by
  obtain ⟨rest, k, exhausted⟩ := s
  cases exhausted with
  | true => rfl
  | false =>
    cases rest with
    | nil => cases h : k.ending <;> simp [results, next, Context.lexemes, told, h]
    | cons m ms => cases h : k.read m <;> simp [results, next, Context.lexemes, told, h]

end LexemeStream

end Sentential
