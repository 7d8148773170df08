namespace Sentential.Text.Csv

/-- A field with one of these characters could not be told from its neighbours. -/
def isSpecial (c : Char) : Bool := c = ',' || c = '"' || c = '\r' || c = '\n'

/-- Fields that are never quoted. -/
def isPlain (field : String) : Bool := !field.isEmpty && !field.toList.any isSpecial

/-- How a record is written on its line. Whether a field is quoted that is empty or has a special
character in it, and how, is left open. -/
structure Writer where
  record : List String → String
  record_eq : ∀ fields ≠ [], (∀ f ∈ fields, isPlain f = true) →
    record fields = ",".intercalate fields

/-- A quote inside a quoted field is written twice. -/
def quote (field : String) : String :=
  String.ofList ('"' :: field.toList.flatMap (fun c ↦ if c = '"' then ['"', '"'] else [c]) ++ ['"'])

def field (text : String) : String := if text.toList.any isSpecial then quote text else text

/-- Quotes only special fields, and an empty field if otherwise nothing stood on its line. -/
def Writer.sparing : Writer where
  record
    | [] | [""] => quote ""
    | fields => ",".intercalate (fields.map field)
  record_eq := by
    intro fields hn h
    have hf : ∀ f ∈ fields, field f = f := by
      intro f hf
      have hp := h f hf
      simp only [isPlain, Bool.and_eq_true, Bool.not_eq_true'] at hp
      rw [field, hp.2]
      rfl
    split
    · exact absurd rfl hn
    · have he := h "" (List.mem_singleton_self _)
      cases he
    · rw [List.map_congr_left hf, List.map_id']

end Sentential.Text.Csv
