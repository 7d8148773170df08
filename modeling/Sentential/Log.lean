import Sentential.Error
import Sentential.Statement.Rendering
import Sentential.Text.Quoted

namespace Sentential

/-- The name under which the program reports itself. -/
def programName : String := "rstt"

/-- How much is logged: each level includes those before it. -/
inductive Level
  | warn
  | info
  | debug
  | trace
  deriving DecidableEq, Repr

namespace Level

def rank : Level → Nat
  | warn => 1
  | info => 2
  | debug => 3
  | trace => 4

def name : Level → String
  | warn => "WARN"
  | info => "INFO"
  | debug => "DEBUG"
  | trace => "TRACE"

end Level

/-- What is worth telling about a statement on its way from a text to a table. -/
inductive Entry
  | parsing (text : String)
  | lexeme (x : Lexeme)
  | entering (position : Nat)
  | parsed (statement : Statement) (count : Nat)
  | evaluated (rows : Nat) (statement : Statement)
  | accepted (statement : Statement)
  deriving DecidableEq, Repr

namespace Entry

def level : Entry → Level
  | lexeme _ | entering _ => .trace
  | parsing _ | parsed _ _ | evaluated _ _ => .debug
  | accepted _ => .info

def speaker : Entry → String
  | lexeme _ => programName ++ "::lexer"
  | parsing _ | entering _ | parsed _ _ => programName ++ "::parser"
  | evaluated _ _ => programName ++ "::truth_table"
  | accepted _ => programName

def message : Entry → String
  | parsing text => "parsing " ++ Text.quoted text
  | lexeme x => s!"lexeme {x.kind.name} '{x.symbol}' at {x.position}"
  | entering position => s!"entering group at {position}"
  | parsed statement count => s!"parsed {statement.render} with {count} variable(s)"
  | evaluated rows statement => s!"evaluated {rows} rows of {statement.render}"
  | accepted statement => s!"parsed statement {statement.render}"

end Entry

/-- A value with what was logged on the way to it. -/
@[ext] structure Logged (α : Type) where
  entries : List Entry
  value : α
  deriving DecidableEq, Repr

namespace Logged

variable {α β : Type}

instance : Monad Logged where
  pure a := ⟨[], a⟩
  bind x f := ⟨x.entries ++ (f x.value).entries, (f x.value).value⟩

instance : LawfulMonad Logged :=
  .mk' Logged (fun _ ↦ Logged.ext (List.append_nil _) rfl) (fun _ _ ↦ rfl)
    (fun _ _ _ ↦ Logged.ext (List.append_assoc ..) rfl)

def write (es : List Entry) : Logged Unit := ⟨es, ()⟩

def upTo (level : Level) (x : Logged α) : List Entry :=
  x.entries.filter fun e ↦ e.level.rank ≤ level.rank

@[simp] theorem entries_pure (a : α) : (pure a : Logged α).entries = [] := rfl

@[simp] theorem value_pure (a : α) : (pure a : Logged α).value = a := rfl

@[simp] theorem entries_bind (x : Logged α) (f : α → Logged β) :
    (x >>= f).entries = x.entries ++ (f x.value).entries := rfl

@[simp] theorem value_bind (x : Logged α) (f : α → Logged β) :
    (x >>= f).value = (f x.value).value := rfl

@[simp] theorem entries_map (f : α → β) (x : Logged α) : (f <$> x).entries = x.entries :=
  List.append_nil _

@[simp] theorem value_map (f : α → β) (x : Logged α) : (f <$> x).value = f x.value := rfl

@[simp] theorem entries_write (es : List Entry) : (write es).entries = es := rfl

theorem upTo_trace (x : Logged α) : x.upTo .trace = x.entries := by
  refine List.filter_eq_self.2 fun a _ ↦ ?_
  cases a.level <;> rfl

theorem upTo_debug (x : Logged α) :
    x.upTo .debug = (x.upTo .trace).filter fun a ↦ a.level ≠ .trace := by
  rw [upTo_trace, upTo]
  refine List.filter_congr fun a _ ↦ ?_
  cases a.level <;> rfl

theorem upTo_info (x : Logged α) :
    x.upTo .info = (x.upTo .debug).filter fun a ↦ a.level.rank ≤ Level.info.rank := by
  rw [upTo, upTo, List.filter_filter]
  refine List.filter_congr fun a _ ↦ ?_
  cases a.level <;> rfl

end Logged

end Sentential
