import Sentential.Error

namespace Sentential

/-- The message of an error and, where the text is a single line, the text with a caret under the
offending character. -/
def SyntaxError.diagnosis (e : SyntaxError) (text : String) : String :=
  match e.position? with
  | none => e.message
  | some position =>
    if text.toList.contains '\n' then e.message
    else
      let field : Text.Field := { alignment := some .right, width := position + 1 }
      e.message ++ "\n  " ++ text ++ "\n  " ++ field.pad "^"

end Sentential
