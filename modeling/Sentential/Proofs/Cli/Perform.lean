import Sentential.Cli.World

namespace Sentential.Cli

variable {α β : Type} {w w' : World} {r : Report}

namespace World

/-- What becomes of an action of the program, and of the world in which it is done. -/
def perform (w : World) (x : ExceptT Report (StateM World) α) : Except Report α × World :=
  x.run.run w

theorem perform_bind_of_ok {x : ExceptT Report (StateM World) α} {a : α}
    (h : w.perform x = (.ok a, w')) (f : α → ExceptT Report (StateM World) β) :
    w.perform (x >>= f) = w'.perform (f a) := by
  have hb : w.perform (x >>= f) = (ExceptT.bindCont f (w.perform x).1).run (w.perform x).2 := rfl
  rw [hb, h]
  rfl

theorem perform_bind_of_error {x : ExceptT Report (StateM World) α}
    (h : w.perform x = (.error r, w')) (f : α → ExceptT Report (StateM World) β) :
    w.perform (x >>= f) = (.error r, w') := by
  have hb : w.perform (x >>= f) = (ExceptT.bindCont f (w.perform x).1).run (w.perform x).2 := rfl
  rw [hb, h]
  rfl

theorem run_bind_eq (w : World) (x : ExceptT Report (StateM World) α)
    (f : Except Report α → StateM World β) :
    (x.run >>= f).run w = (f (w.perform x).1).run (w.perform x).2 := rfl

/-- Two worlds that differ at most in what the program complains of and logs. -/
def Same (w w' : World) : Prop := ∃ complaints logged, w' = { w with complaints, logged }

theorem Same.refl (w : World) : w.Same w := ⟨w.complaints, w.logged, rfl⟩

theorem Same.trans {w'' : World} (h : w.Same w') (h' : w'.Same w'') : w.Same w'' := by
  obtain ⟨c, l, rfl⟩ := h
  obtain ⟨c', l', rfl⟩ := h'
  exact ⟨c', l', rfl⟩

theorem same_perform_log (w : World) (e : Entry) :
    ∃ w', w.Same w' ∧ w.perform (Host.log e) = (.ok (), w') :=
  ⟨_, ⟨w.complaints, w.logged ++ [e], rfl⟩, rfl⟩

end World

open World

/-- An action that looks at the world and leaves it as it is. -/
def Looks (x : ExceptT Report (StateM World) α) : Prop := ∀ w : World, ∃ a, w.perform x = (a, w)

theorem Looks.pure (a : α) : Looks (Pure.pure a) := fun _ ↦ ⟨.ok a, rfl⟩

theorem Looks.throw (r : Report) : Looks (MonadExcept.throw r : ExceptT Report (StateM World) α) :=
  fun _ ↦ ⟨.error r, rfl⟩

theorem Looks.readFile (path : String) :
    Looks (Host.readFile path : ExceptT Report (StateM World) _) :=
  fun w ↦ ⟨.ok (w.readFile path), rfl⟩

theorem Looks.readInput : Looks (Host.readInput : ExceptT Report (StateM World) _) :=
  fun w ↦ ⟨.ok (.ok w.input), rfl⟩

theorem Looks.bind {x : ExceptT Report (StateM World) α} {f : α → ExceptT Report (StateM World) β}
    (h : Looks x) (hf : ∀ a, Looks (f a)) : Looks (x >>= f) := by
  intro w
  obtain ⟨r, hr⟩ := h w
  cases r with
  | error r => exact ⟨.error r, perform_bind_of_error hr f⟩
  | ok a =>
    obtain ⟨b, hb⟩ := hf a w
    exact ⟨b, (perform_bind_of_ok hr f).trans hb⟩

/-- What comes of two actions, the first of which only looks, comes of one of them. -/
theorem Looks.bind_cases {x : ExceptT Report (StateM World) α}
    {f : α → ExceptT Report (StateM World) β} {result : Except Report β} (h : Looks x)
    (he : w.perform (x >>= f) = (result, w')) :
    (∃ r, w.perform x = (.error r, w) ∧ result = .error r) ∨
      ∃ a, w.perform x = (.ok a, w) ∧ w.perform (f a) = (result, w') := by
  obtain ⟨a, ha⟩ := h w
  cases a with
  | error r =>
    rw [perform_bind_of_error ha] at he
    cases he
    exact .inl ⟨r, ha, rfl⟩
  | ok a =>
    rw [perform_bind_of_ok ha] at he
    exact .inr ⟨a, ha, he⟩

theorem looks_listedArguments (path : String) :
    Looks (listedArguments path : ExceptT Report (StateM World) _) := by
  refine Looks.bind (.readFile path) fun bytes ↦ ?_
  cases bytes.bind decode with
  | ok text => exact .pure _
  | error e => exact .throw _

theorem expandArguments_cons (steps : Nat) (argument : String) (rest : List String) :
    (expandArguments (steps + 1) (argument :: rest) : ExceptT Report (StateM World) _) =
      match argument.toList with
      | '@' :: path => listedArguments (String.ofList path) >>= fun listed ↦
          expandArguments steps (listed ++ rest)
      | _ => expandArguments steps rest >>= fun expanded ↦
          pure (expanded.map (argument :: ·)) := rfl

theorem looks_expandArguments (steps : Nat) (arguments : List String) :
    Looks (expandArguments steps arguments : ExceptT Report (StateM World) _) := by
  induction steps generalizing arguments with
  | zero => cases arguments <;> exact .pure _
  | succ steps ih =>
    cases arguments with
    | nil => exact .pure _
    | cons argument rest =>
      rw [expandArguments_cons]
      split
      · exact (looks_listedArguments _).bind fun listed ↦ ih (listed ++ rest)
      · exact (ih rest).bind fun expanded ↦ .pure _

/-- More steps than are needed change nothing. -/
theorem perform_expandArguments_mono {steps steps' : Nat} {arguments : List String}
    {result : Except Report (Option (List String))} (hs : steps ≤ steps')
    (h : w.perform (expandArguments steps arguments) = (result, w)) (hr : result ≠ .ok none) :
    w.perform (expandArguments steps' arguments) = (result, w) := by
  induction steps generalizing steps' arguments result with
  | zero =>
    cases arguments with
    | nil => cases steps' <;> exact h
    | cons argument rest =>
      cases h
      exact absurd rfl hr
  | succ steps ih =>
    cases steps' with
    | zero => omega
    | succ steps' =>
      have hs : steps ≤ steps' := by omega
      cases arguments with
      | nil => exact h
      | cons argument rest =>
        rw [expandArguments_cons] at h ⊢
        split at h
        · rename_i path _
          rcases (looks_listedArguments (String.ofList path)).bind_cases h with
            ⟨r, hl, rfl⟩ | ⟨listed, hl, h⟩
          · exact perform_bind_of_error hl _
          · rw [perform_bind_of_ok hl]
            exact ih hs h hr
        · rcases (looks_expandArguments steps rest).bind_cases h with
            ⟨r, he, rfl⟩ | ⟨expanded, he, h⟩
          · exact perform_bind_of_error (ih hs he (by simp)) _
          · -- Without an answer for the rest there is none for all.
            have hn : expanded ≠ none := by
              rintro rfl
              cases h
              exact hr rfl
            rw [perform_bind_of_ok (ih hs he (by simpa using hn))]
            exact h

theorem looks_statementText (o : Options) :
    Looks (statementText o : ExceptT Report (StateM World) _) := by
  unfold statementText
  cases o.statement with
  | some text => exact .pure _
  | none =>
    cases o.input with
    | some path =>
      refine Looks.bind (.readFile path) fun bytes ↦ ?_
      cases bytes.bind decode with
      | ok text => exact .pure _
      | error e => exact .throw _
    | none =>
      refine Looks.bind .readInput fun bytes ↦ ?_
      cases bytes.bind decode with
      | ok text => exact .pure _
      | error e => exact .throw _

theorem perform_tell (w : World) (o : Options) (x : Logged α) :
    ∃ w', w.Same w' ∧ w.perform (tell o x) = (.ok x.value, w') := by
  have hes (es : List Entry) : ∀ w : World, ∃ w', w.Same w' ∧
      w.perform (es.forM Host.log) = (.ok (), w') := by
    induction es with
    | nil => exact fun w ↦ ⟨w, .refl w, rfl⟩
    | cons e es ih =>
      intro w
      obtain ⟨w₁, h₁, he⟩ := w.same_perform_log e
      obtain ⟨w₂, h₂, hes⟩ := ih w₁
      exact ⟨w₂, h₁.trans h₂, (perform_bind_of_ok he _).trans hes⟩
  obtain ⟨w', h, he⟩ := hes (x.upTo o.level) w
  exact ⟨w', h, perform_bind_of_ok he _⟩

end Sentential.Cli
