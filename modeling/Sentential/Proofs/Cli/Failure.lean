import Sentential.Proofs.Classification
import Sentential.Proofs.Cli.Files
import Sentential.Proofs.Cli.Perform

namespace Sentential.Cli

variable {w w' : World} {o : Options} {p : Parsed} {r : Report} {name : String}
  {place arguments : List String} {steps : Nat}

/-- A table is asked for, and there are no variables to make one of. -/
def Options.LacksTable (o : Options) (p : Parsed) : Prop :=
  o.dot = false ∧ p.signature.letters = []

namespace World

theorem Same.target_eq (h : w.Same w') (name : String) : w'.target name = w.target name := by
  obtain ⟨c, l, rfl⟩ := h
  rfl

theorem Same.put (h : w.Same w') (place : List String) (text : String) :
    (w.put place text).Same (w'.put place text) := by
  obtain ⟨c, l, rfl⟩ := h
  exact ⟨c, l, rfl⟩

theorem perform_writeFile_of_ok (h : w.target name = .ok place) (text : String) :
    w.perform (Host.writeFile name text) = (.ok (.ok ()), w.put place text) := by
  have hw : w.perform (Host.writeFile name text) =
      (.ok (w.writeFile name text).1, (w.writeFile name text).2) := rfl
  rw [hw, writeFile_of_target_ok h]

theorem perform_writeFile_of_error {e : FileError} (h : w.target name = .error e) (text : String) :
    w.perform (Host.writeFile name text) = (.ok (.error e), w) := by
  have hw : w.perform (Host.writeFile name text) =
      (.ok (w.writeFile name text).1, (w.writeFile name text).2) := rfl
  rw [hw, writeFile_of_target_error h]

theorem perform_answer_of_lacksTable (w : World) (h : o.LacksTable p) :
    ∃ r w', w.Same w' ∧ w.perform (answer o p) = (.error r, w') := by
  obtain ⟨hd, hl⟩ := h
  obtain ⟨w', hs, ht⟩ := perform_tell w o (TruthTable.tabulate .whole p)
  rw [TruthTable.value_tabulate_of_eq_nil _ hl] at ht
  rw [answer, if_neg (by simp [hd])]
  exact ⟨_, w', hs, perform_bind_of_ok ht _⟩

theorem perform_answer (w : World) (h : ¬o.LacksTable p) :
    ∃ text w', w.Same w' ∧ w.perform (answer o p) = (.ok text, w') := by
  rw [answer]
  by_cases hd : o.dot = true
  · rw [if_pos hd]
    exact ⟨_, w, .refl w, rfl⟩
  · have hl : p.signature.letters ≠ [] := fun hl ↦ h ⟨Bool.eq_false_iff.2 hd, hl⟩
    obtain ⟨w', hs, ht⟩ := perform_tell w o (TruthTable.tabulate .whole p)
    rw [TruthTable.value_tabulate _ hl] at ht
    rw [if_neg hd]
    exact ⟨_, w', hs, perform_bind_of_ok ht _⟩

/-- The file is made first, and the answer that should go in it fails. -/
theorem perform_deliver_of_lacksTable (h : o.LacksTable p) (ho : o.output = some name)
    (hn : w.target name = .ok place) :
    ∃ r w', (w.put place "").Same w' ∧ w.perform (deliver o p) = (.error r, w') := by
  obtain ⟨r, w', hs, he⟩ := perform_answer_of_lacksTable (w.put place "") h
  refine ⟨r, w', hs, ?_⟩
  simp only [deliver, ho]
  rw [perform_bind_of_ok (perform_writeFile_of_ok hn "")]
  exact perform_bind_of_error he _

theorem same_of_perform_deliver (he : w.perform (deliver o p) = (.error r, w'))
    (h : o.LacksTable p → ∀ name, o.output = some name → ∀ place, w.target name ≠ .ok place) :
    w.Same w' := by
  rw [deliver] at he
  cases ho : o.output with
  | none =>
    simp only [ho] at he
    by_cases hl : o.LacksTable p
    · obtain ⟨r₁, w₁, hs, ha⟩ := perform_answer_of_lacksTable w hl
      rw [perform_bind_of_error ha] at he
      cases he
      exact hs
    · -- What is answered is printed, and this does not fail.
      obtain ⟨text, w₁, -, ha⟩ := perform_answer w hl
      rw [perform_bind_of_ok ha] at he
      cases he
  | some name =>
    simp only [ho] at he
    cases hn : w.target name with
    | error e =>
      rw [perform_bind_of_ok (perform_writeFile_of_error hn "")] at he
      cases he
      exact .refl w
    | ok place =>
      by_cases hl : o.LacksTable p
      · exact absurd hn (h hl name ho place)
      · -- A file that was made can be replaced, so the answer arrives.
        obtain ⟨text, w₁, hs, ha⟩ := perform_answer (w.put place "") hl
        have hn₁ : w₁.target name = .ok place := (hs.target_eq name).trans (target_put hn "")
        rw [perform_bind_of_ok (perform_writeFile_of_ok hn "")] at he
        simp only at he
        rw [perform_bind_of_ok ha, perform_bind_of_ok (perform_writeFile_of_ok hn₁ text)] at he
        cases he

/-- The statement that the options name is found and is read without an error. -/
def Reads (w : World) (o : Options) (p : Parsed) : Prop :=
  ∃ text, w.perform (statementText o) = (.ok text, w) ∧ Parsed.ofText text = .ok p

theorem Reads.perform_work (h : w.Reads o p) :
    ∃ w', w.Same w' ∧ w.perform (work o) = w'.perform (deliver o p) := by
  obtain ⟨text, ht, hp⟩ := h
  obtain ⟨w₁, hs₁, he₁⟩ := perform_tell w o (Parsed.read text)
  have hv : (Parsed.read text).value = .ok p := hp
  rw [hv] at he₁
  obtain ⟨w₂, hs₂, he₂⟩ := perform_tell w₁ o (Logged.write [.accepted p.statement])
  refine ⟨w₂, hs₁.trans hs₂, ?_⟩
  rw [work, perform_bind_of_ok ht, perform_bind_of_ok he₁]
  exact perform_bind_of_ok he₂ _

/-- Work fails before there is anything to deliver, or in the delivery of what was read. -/
theorem perform_work_cases (w : World) (o : Options) :
    (∃ r w', w.Same w' ∧ w.perform (work o) = (.error r, w')) ∨
      ∃ p w', w.Reads o p ∧ w.Same w' ∧ w.perform (work o) = w'.perform (deliver o p) := by
  obtain ⟨a, ha⟩ := looks_statementText o w
  cases a with
  | error r =>
    refine .inl ⟨r, w, .refl w, ?_⟩
    rw [work]
    exact perform_bind_of_error ha _
  | ok text =>
    cases hp : Parsed.ofText text with
    | error e =>
      obtain ⟨w', hs, he⟩ := perform_tell w o (Parsed.read text)
      have hv : (Parsed.read text).value = .error e := hp
      rw [hv] at he
      refine .inl ⟨⟨e.diagnosis text, none⟩, w', hs, ?_⟩
      rw [work, perform_bind_of_ok ha]
      exact perform_bind_of_ok he _
    | ok p =>
      have hr : w.Reads o p := ⟨text, ha, hp⟩
      obtain ⟨w', hs, he⟩ := hr.perform_work
      exact .inr ⟨p, w', hr, hs, he⟩

theorem same_of_perform_work (he : w.perform (work o) = (.error r, w'))
    (h : ∀ p, w.Reads o p → o.LacksTable p → ∀ name, o.output = some name →
      ∀ place, w.target name ≠ .ok place) : w.Same w' := by
  rcases perform_work_cases w o with ⟨r₁, w₁, hs, he₁⟩ | ⟨p, w₁, hr, hs, he₁⟩
  · rw [he₁] at he
    cases he
    exact hs
  · refine hs.trans (same_of_perform_deliver (he₁.symm.trans he) ?_)
    intro hl name ho place hn
    exact h p hr hl name ho place ((hs.target_eq name).symm.trans hn)

/-- The arguments ask for work by the options. -/
def Asks (w : World) (arguments : List String) (o : Options) : Prop :=
  ∃ steps expanded, w.perform (expandArguments steps arguments) = (.ok (some expanded), w) ∧
    Request.ofArguments expanded = .ok (.work o)

theorem run_of_expandArguments_error
    (h : w.perform (expandArguments steps arguments) = (.error r, w)) :
    w.run steps arguments = (some 1, { w with complaints := w.complaints ++ r.text }) := by
  rw [World.run, Cli.run, run_bind_eq, h]
  rfl

theorem run_of_expandArguments_none
    (h : w.perform (expandArguments steps arguments) = (.ok none, w)) :
    w.run steps arguments = (none, w) := by
  rw [World.run, Cli.run, run_bind_eq, h]
  rfl

theorem run_of_expandArguments_some {expanded : List String}
    (h : w.perform (expandArguments steps arguments) = (.ok (some expanded), w)) :
    w.run steps arguments =
      ((serve (Request.ofArguments expanded) : StateM World UInt32).run w).map some id := by
  rw [World.run, Cli.run, run_bind_eq, h]
  rfl

theorem run_ne_none {expanded : List String}
    (h : w.perform (expandArguments steps arguments) = (.ok (some expanded), w)) :
    (w.run steps arguments).1 ≠ none := by
  simp [run_of_expandArguments_some h]

theorem serve_work_of_error (h : w.perform (work o) = (.error r, w')) :
    (serve (.ok (.work o)) : StateM World UInt32).run w =
      (1, { w' with complaints := w'.complaints ++ r.text }) := by
  rw [serve, run_bind_eq, h]
  rfl

theorem serve_work_of_ok (h : w.perform (work o) = (.ok (), w')) :
    (serve (.ok (.work o)) : StateM World UInt32).run w = (0, w') := by
  rw [serve, run_bind_eq, h]
  rfl

/-- A run that ends at all ends with what the arguments ask for. -/
theorem perform_of_asks (h : w.Asks arguments o) (hn : (w.run steps arguments).1 ≠ none) :
    ∃ expanded, w.perform (expandArguments steps arguments) = (.ok (some expanded), w) ∧
      Request.ofArguments expanded = .ok (.work o) := by
  obtain ⟨steps', expanded, hx, ho⟩ := h
  refine ⟨expanded, ?_, ho⟩
  obtain ⟨a, ha⟩ := looks_expandArguments steps arguments w
  have hne : a ≠ .ok none := by
    rintro rfl
    rw [run_of_expandArguments_none ha] at hn
    exact hn rfl
  -- Both are what the arguments come to when there are enough steps for either.
  have hx' := perform_expandArguments_mono (Nat.le_max_left steps' steps) hx (by simp)
  have ha' := perform_expandArguments_mono (Nat.le_max_right steps' steps) ha hne
  rw [hx'] at ha'
  cases ha'
  exact ha

/-- The arguments ask for the table of a statement without variables, in a file that can be made at
the place. -/
def Wipes (w : World) (arguments : List String) (place : List String) : Prop :=
  ∃ o p name, w.Asks arguments o ∧ w.Reads o p ∧ o.LacksTable p ∧ o.output = some name ∧
    w.target name = .ok place

theorem Wipes.run_eq (h : w.Wipes arguments place) (hs : (w.run steps arguments).1 ≠ none) :
    ∃ w', (w.put place "").Same w' ∧ w.run steps arguments = (some 1, w') := by
  obtain ⟨o, p, name, ha, hr, hl, hf, hn⟩ := h
  obtain ⟨expanded, hx, ho⟩ := perform_of_asks ha hs
  obtain ⟨w₁, hs₁, he₁⟩ := hr.perform_work
  obtain ⟨r, w₂, hs₂, he₂⟩ :=
    perform_deliver_of_lacksTable hl hf ((hs₁.target_eq name).trans hn)
  have hs : (w.put place "").Same w₂ := (hs₁.put place "").trans hs₂
  refine ⟨{ w₂ with complaints := w₂.complaints ++ r.text }, hs.trans ⟨_, _, rfl⟩, ?_⟩
  rw [run_of_expandArguments_some hx, ho, serve_work_of_error (he₁.trans he₂)]
  rfl

theorem same_of_serve_eq_one {expanded : List String}
    (hx : w.perform (expandArguments steps arguments) = (.ok (some expanded), w))
    (h : (serve (Request.ofArguments expanded) : StateM World UInt32).run w = (1, w'))
    (hw : ∀ place, ¬w.Wipes arguments place) : w.Same w' := by
  cases hr : Request.ofArguments expanded with
  | error e => rw [hr] at h; cases h
  | ok request =>
    rw [hr] at h
    cases request with
    | help => cases h
    | version => cases h
    | work o =>
      cases he : w.perform (work o) with
      | mk result w₁ =>
        cases result with
        | ok u =>
          rw [serve_work_of_ok he] at h
          cases h
        | error r =>
          rw [serve_work_of_error he] at h
          cases h
          have hs : w.Same w₁ := by
            apply same_of_perform_work he
            intro p hp hl name ho place hn
            exact hw place ⟨o, p, name, ⟨steps, expanded, hx, hr⟩, hp, hl, ho, hn⟩
          exact hs.trans ⟨_, _, rfl⟩

theorem same_of_run_eq_one (h : (w.run steps arguments).1 = some 1)
    (hw : ∀ place, ¬w.Wipes arguments place) : w.Same (w.run steps arguments).2 := by
  obtain ⟨a, hx⟩ := looks_expandArguments steps arguments w
  cases a with
  | error r =>
    rw [run_of_expandArguments_error hx]
    exact ⟨_, _, rfl⟩
  | ok expanded =>
    cases expanded with
    | none =>
      rw [run_of_expandArguments_none hx] at h
      cases h
    | some expanded =>
      cases hs : (serve (Request.ofArguments expanded) : StateM World UInt32).run w with
      | mk code w' =>
        rw [run_of_expandArguments_some hx, hs] at h ⊢
        cases h
        exact same_of_serve_eq_one hx hs hw

/-- A run that ends with an error of the program prints nothing. It leaves the files as they are,
unless it was to write the table of a statement without variables in a file: this file is empty
then. -/
theorem run_failure (h : (w.run steps arguments).1 = some 1) :
    (w.run steps arguments).2.printed = w.printed ∧
      ((∀ place, ¬w.Wipes arguments place) → (w.run steps arguments).2.files = w.files) ∧
      ∀ place, w.Wipes arguments place →
        (w.run steps arguments).2.files = (w.put place "").files := by
  have hn : (w.run steps arguments).1 ≠ none := by simp [h]
  refine ⟨?_, ?_, ?_⟩
  · by_cases hw : ∃ place, w.Wipes arguments place
    · obtain ⟨place, hw⟩ := hw
      obtain ⟨w', ⟨c, l, rfl⟩, he⟩ := hw.run_eq hn
      rw [he]
      rfl
    · obtain ⟨c, l, hc⟩ := same_of_run_eq_one h (not_exists.1 hw)
      rw [hc]
  · intro hw
    obtain ⟨c, l, hc⟩ := same_of_run_eq_one h hw
    rw [hc]
  · intro place hw
    obtain ⟨w', ⟨c, l, rfl⟩, he⟩ := hw.run_eq hn
    rw [he]

def holding (name text : String) : World := { files := [([name], text.toUTF8)] }

theorem wipes_holding (text : String) :
    (holding "out.txt" text).Wipes ["-o", "out.txt", "1"] ["out.txt"] := by
  let o : Options := { statement := some "1", output := some "out.txt" }
  let p : Parsed := ⟨.verum, .ofBits 0⟩
  have ha : (holding "out.txt" text).Asks ["-o", "out.txt", "1"] o := ⟨3, _, rfl, rfl⟩
  have hr : (holding "out.txt" text).Reads o p := ⟨_, rfl, rfl⟩
  have hl : o.LacksTable p := ⟨rfl, rfl⟩
  exact ⟨o, p, "out.txt", ha, hr, hl, rfl, rfl⟩

theorem run_holding (text : String) : ∃ w',
    ((holding "out.txt" text).put ["out.txt"] "").Same w' ∧
      (holding "out.txt" text).run 3 ["-o", "out.txt", "1"] = (some 1, w') := by
  have hx : (holding "out.txt" text).perform (expandArguments 3 ["-o", "out.txt", "1"]) =
      (.ok (some ["-o", "out.txt", "1"]), holding "out.txt" text) := rfl
  exact (wipes_holding text).run_eq (run_ne_none hx)

theorem run_failure_of_constant :
    ((holding "out.txt" "keep me").run 3 ["-o", "out.txt", "1"]).1 = some 1 ∧
      ((holding "out.txt" "keep me").run 3 ["-o", "out.txt", "1"]).2.files =
        ((holding "out.txt" "keep me").put ["out.txt"] "").files := by
  have h : ((holding "out.txt" "keep me").run 3 ["-o", "out.txt", "1"]).1 = some 1 := by
    obtain ⟨w', -, he⟩ := run_holding "keep me"
    rw [he]
  exact ⟨h, (run_failure h).2.2 _ (wipes_holding "keep me")⟩

/-- A run can end with an error of the program and empty a file that was there before. -/
theorem failed_run_empties_file :
    ((holding "out.txt" "keep me").run 3 ["-o", "out.txt", "1"]).1 = some 1 ∧
      (holding "out.txt" "keep me").file? ["out.txt"] = some "keep me".toUTF8 ∧
      ((holding "out.txt" "keep me").run 3 ["-o", "out.txt", "1"]).2.file? ["out.txt"] =
        some "".toUTF8 := by
  obtain ⟨w', ⟨c, l, rfl⟩, he⟩ := run_holding "keep me"
  rw [he]
  exact ⟨rfl, rfl, file?_put _ _ _⟩

end World

end Sentential.Cli
