import Sentential.Cli.World

namespace Sentential.Cli.World

variable {w w' : World} {place q : List String} {text : String} {path : Path}

theorem isDirectory_iff : w.isDirectory q = true ↔
    q <+: w.directory ∨ ∃ f ∈ w.files, q <+: f.1 ∧ q ≠ f.1 := by
  simp [isDirectory]

theorem isDirectory_put_iff : (w.put place text).isDirectory q = true ↔
    w.isDirectory q = true ∨ (q <+: place ∧ q ≠ place) := by
  rw [isDirectory_iff, isDirectory_iff]
  constructor
  · rintro (hd | ⟨f, hf, hq⟩)
    · exact .inl (.inl hd)
    · rcases List.mem_cons.1 hf with rfl | hf
      · exact .inr hq
      · exact .inl (.inr ⟨f, (List.mem_filter.1 hf).1, hq⟩)
  · rintro ((hd | ⟨f, hf, hq⟩) | hq)
    · exact .inl hd
    · by_cases hp : f.1 = place
      · exact .inr ⟨(place, text.toUTF8), List.mem_cons_self, hp ▸ hq⟩
      · have hm : f ∈ w.files.filter (·.1 ≠ place) := List.mem_filter.2 ⟨hf, by simpa using hp⟩
        exact .inr ⟨f, List.mem_cons_of_mem _ hm, hq⟩
    · exact .inr ⟨(place, text.toUTF8), List.mem_cons_self, hq⟩

theorem step_put {a b : List String} {name : String} (h : w.step a name = .ok b) :
    (w.put place text).step a name = .ok b := by
  have hd : w.isDirectory a = true := by
    by_cases hd : w.isDirectory a = true
    · exact hd
    · rw [step, if_neg hd] at h
      split at h <;> cases h
  rw [step, if_pos hd] at h
  rw [step, if_pos (isDirectory_put_iff.2 (.inl hd))]
  exact h

theorem foldlM_step_put {names : List String} {a b : List String}
    (h : names.foldlM w.step a = .ok b) : names.foldlM (w.put place text).step a = .ok b := by
  induction names generalizing a with
  | nil => exact h
  | cons name names ih =>
    rw [List.foldlM_cons] at h ⊢
    cases hs : w.step a name with
    | error e => rw [hs] at h; cases h
    | ok c =>
      rw [hs] at h
      rw [step_put hs]
      exact ih h

theorem newPlace_put (h : w.newPlace path = .ok place) :
    (w.put place text).newPlace path = .ok place := by
  let names := if path.endsInSlash then path.names.dropLast ++ ["."] else path.names
  have hw (w : World) : w.newPlace path = (w.follow path names).bind fun place ↦
      if w.isDirectory place then .error .isADirectory else .ok place := rfl
  rw [hw] at h ⊢
  cases hf : w.follow path names with
  | error e => rw [hf] at h; cases h
  | ok q =>
    rw [hf] at h
    have hp : (w.put place text).follow path names = .ok q := foldlM_step_put hf
    rw [hp]
    change (if w.isDirectory q then _ else _) = _ at h
    change (if (w.put place text).isDirectory q then _ else _) = _
    split at h
    · cases h
    · rename_i hd
      cases h
      -- The new file stands on the way to no other, so its place is no directory now either.
      refine if_neg fun hd' ↦ ?_
      rcases isDirectory_put_iff.1 hd' with hd' | hq
      · exact hd hd'
      · exact hq.2 rfl

/-- The place of the file that is made or replaced under a name. -/
def target (w : World) (name : String) : Except FileError (List String) :=
  (Path.ofText name).bind w.newPlace

theorem writeFile_of_target_ok {name : String} (h : w.target name = .ok place) (text : String) :
    w.writeFile name text = (.ok (), w.put place text) := by
  rw [target] at h
  rw [writeFile, h]

theorem writeFile_of_target_error {name : String} {e : FileError} (h : w.target name = .error e)
    (text : String) : w.writeFile name text = (.error e, w) := by
  rw [target] at h
  rw [writeFile, h]

/-- A file that has been made can be replaced. -/
theorem target_put {name : String} (h : w.target name = .ok place) (text : String) :
    (w.put place text).target name = .ok place := by
  rw [target] at h ⊢
  cases hp : Path.ofText name with
  | error e => rw [hp] at h; cases h
  | ok path =>
    rw [hp] at h
    exact newPlace_put h

end Sentential.Cli.World
