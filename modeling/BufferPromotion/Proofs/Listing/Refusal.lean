import BufferPromotion.Proofs.Listing.Reading

/-! # Where the errors of a listing come from

A line is refused for a reason of its own: a character that belongs to no token, a wrong form, a
name or an operand that does not fit what has been read so far. A kernel is checked once more when
it is closed, by the line that opens the next one or by the end of the source. The lines of a
kernel have been accepted one by one, so this check finds nothing, and the errors of a listing are
the refusals of its lines (`listing_errors_are_refusals`).
-/

set_option autoImplicit false

namespace BufferPromotion

namespace Outcome

variable {α : Type} {outcome : Outcome α}

/-- The diagnostics that are errors. -/
def errors (outcome : Outcome α) : List Diagnostic :=
  (outcome.diagnostics.filter (·.1 == .error)).map (·.2)

theorem errors_fail (diagnostic : Diagnostic) :
    (outcome.fail diagnostic).errors = outcome.errors ++ [diagnostic] := by
  simp [errors, fail]

theorem errors_foldl_warn (warnings : List Diagnostic) :
    (warnings.foldl warn outcome).errors = outcome.errors := by
  have hnone : (warnings.map (Prod.mk Severity.warning)).filter (·.1 == .error) = [] := by
    rw [List.filter_eq_nil_iff]
    intro entry hentry
    obtain ⟨warning, -, rfl⟩ := List.mem_map.mp hentry
    simp
  rw [foldl_warn]
  simp [errors, hnone]

end Outcome

/-- The diagnostic that a check gives in the place of a value. -/
def refusalOf {α : Type} : Except Diagnostic α → Option Diagnostic
  | .ok _ => none
  | .error diagnostic => some diagnostic

/-- The diagnostic that an action ends with, if it does not succeed. -/
def Action.refusal? {σ α : Type} (action : Action σ α) (state : σ) : Option Diagnostic :=
  match action state with
  | .ok _ _ => none
  | .error diagnostic _ => some diagnostic

namespace Reading

/-- Why a line is refused after what has been read so far, if it is. -/
def refusal? (reading : Reading) (line : SourceLine) : Option Diagnostic :=
  match tokensOfLine line with
  | .error diagnostic => some diagnostic
  | .ok [] => none
  | .ok (first :: tokens) =>
      let span := lineSpan first tokens
      if first.lexeme = .word "kernel" then refusalOf (readKernelName span tokens)
      else match reading.current with
        | none => some ⟨.noOpenKernel first.text, span, []⟩
        | some draft => (Draft.readLine span first tokens).refusal? ⟨draft, []⟩

/-- The refusals of lines that are read one after the other, in the order of the lines. -/
def refusals (reading : Reading) : List SourceLine → List Diagnostic
  | [] => []
  | line :: rest => (reading.refusal? line).toList ++ (reading.readLine line).refusals rest

/-! ## The error of one line -/

section Line

variable {reading : Reading} {line : Span} {first : Token} {tokens : List Token}

theorem errors_fail (diagnostic : Diagnostic) :
    (reading.fail diagnostic).outcome.errors = reading.outcome.errors ++ [diagnostic] :=
  Outcome.errors_fail diagnostic

/-- Closing a kernel reports nothing. -/
theorem outcome_closeKernel (h : reading.Sound) :
    reading.closeKernel.outcome = reading.outcome := by
  rw [closeKernel_eq_of_sound h]

theorem errors_openKernel (h : reading.Sound) :
    (reading.perform (openKernel line tokens)).outcome.errors =
      reading.outcome.errors ++ (refusalOf (readKernelName line tokens)).toList := by
  cases hname : readKernelName line tokens with
  | error diagnostic =>
      rw [perform_of_error (openKernel_of_error hname)]
      exact errors_fail diagnostic
  | ok name =>
      rw [perform_of_ok (openKernel_of_ok hname)]
      have hclosed := outcome_closeKernel h
      simp [refusalOf, hclosed]

/-- Warnings are no errors, so a line inside a kernel adds an error only if it is refused. -/
theorem errors_inKernel {draft : Draft} (hdraft : reading.current = some draft)
    (missing : Diagnostic) (action : Action Draft.LineState Unit) :
    (reading.perform (inKernel missing action)).outcome.errors =
      reading.outcome.errors ++ (action.refusal? ⟨draft, []⟩).toList := by
  have hwarned (left : Draft.LineState) :
      (reading.resume left).outcome.errors = reading.outcome.errors :=
    Outcome.errors_foldl_warn left.warnings
  unfold Action.refusal?
  cases haction : action ⟨draft, []⟩ with
  | error diagnostic left =>
      rw [perform_of_error (inKernel_of_error hdraft haction), errors_fail, hwarned]
      rfl
  | ok _ next =>
      rw [perform_of_ok (inKernel_of_ok hdraft haction), hwarned]
      simp

/-- A line adds the error for which it is refused, and no other. -/
theorem errors_readLine (h : reading.Sound) (line : SourceLine) :
    (reading.readLine line).outcome.errors =
      reading.outcome.errors ++ (reading.refusal? line).toList := by
  unfold readLine refusal?
  cases tokensOfLine line with
  | error diagnostic => exact errors_fail diagnostic
  | ok tokens =>
      cases tokens with
      | nil => simp
      | cons first tokens =>
          dsimp only
          unfold readTokens
          by_cases hkernel : first.lexeme = .word "kernel"
          · rw [if_pos hkernel, if_pos hkernel]
            exact errors_openKernel h
          · rw [if_neg hkernel, if_neg hkernel]
            cases hcurrent : reading.current with
            | none =>
                rw [perform_of_error (inKernel_of_none hcurrent)]
                exact errors_fail _
            | some draft => exact errors_inKernel hcurrent _ _

end Line

/-! ## The errors of many lines -/

theorem errors_foldl_readLine {reading : Reading} (h : reading.Sound) (lines : List SourceLine) :
    (lines.foldl readLine reading).outcome.errors =
      reading.outcome.errors ++ reading.refusals lines := by
  induction lines generalizing reading with
  | nil => simp [refusals]
  | cons line lines ih =>
      calc ((line :: lines).foldl readLine reading).outcome.errors
          = (reading.readLine line).outcome.errors ++ (reading.readLine line).refusals lines :=
            ih (h.readLine line)
        _ = reading.outcome.errors ++ (reading.refusal? line).toList ++
              (reading.readLine line).refusals lines := by rw [errors_readLine h line]
        _ = reading.outcome.errors ++ reading.refusals (line :: lines) := by
            rw [List.append_assoc]
            rfl

/-- Each of several refusals is that of one line, after the lines before it. -/
theorem mem_refusals_iff {reading : Reading} {lines : List SourceLine} {diagnostic : Diagnostic} :
    diagnostic ∈ reading.refusals lines ↔
      ∃ before line after, lines = before ++ line :: after ∧
        (before.foldl readLine reading).refusal? line = some diagnostic := by
  induction lines generalizing reading with
  | nil => simp [refusals]
  | cons first rest ih =>
      rw [refusals, List.mem_append, Option.mem_toList, ih]
      constructor
      · rintro (hfirst | ⟨before, line, after, rfl, hrefused⟩)
        · exact ⟨[], first, rest, rfl, hfirst⟩
        · exact ⟨first :: before, line, after, rfl, hrefused⟩
      · rintro ⟨before, line, after, hlines, hrefused⟩
        cases before with
        | nil =>
            obtain ⟨rfl, rfl⟩ := List.cons.inj hlines
            exact Or.inl hrefused
        | cons head before =>
            obtain ⟨rfl, rfl⟩ := List.cons.inj hlines
            exact Or.inr ⟨before, line, after, rfl, hrefused⟩

end Reading

/-- **Only lines are refused, never whole kernels.** Wherever reading stands in a source, the open
kernel is valid and is closed as it is, without a diagnostic; so all kernels that a listing gives
are valid. The errors of the listing are the refusals of its lines, at most one for each, and every
error is that of one line. -/
theorem listing_errors_are_refusals (source : String) :
    (∀ before after, sourceLines source = before ++ after →
      let reading := before.foldl Reading.readLine Reading.start
      ∀ draft, reading.current = some draft →
        draft.finish = .ok draft.toListedKernel ∧
          reading.closeKernel = { reading with
            kernels := reading.kernels ++ [draft.toListedKernel], current := none }) ∧
    (∀ kernels, (readListing source).value = some kernels →
      ∀ listed ∈ kernels, listed.kernel.check = .ok ()) ∧
    (readListing source).errors = Reading.start.refusals (sourceLines source) ∧
    ∀ diagnostic ∈ (readListing source).errors, ∃ before line after,
      sourceLines source = before ++ line :: after ∧
        (before.foldl Reading.readLine Reading.start).refusal? line = some diagnostic := by
  have hsound := Reading.sound_foldl_readLine
  have herrors : (readListing source).errors = Reading.start.refusals (sourceLines source) := by
    have hclosed := Reading.outcome_closeKernel (hsound (sourceLines source))
    show (Reading.closeKernel _).outcome.errors = _
    rw [hclosed, Reading.errors_foldl_readLine Reading.sound_start]
    rfl
  refine ⟨?_, ?_, herrors, ?_⟩
  · intro before after _ reading draft hdraft
    have hdraftSound := (hsound before).current draft hdraft
    refine ⟨?_, Reading.closeKernel_eq hdraft hdraftSound⟩
    unfold Draft.finish
    rw [hdraftSound.named.listable.check_eq_ok]
    rfl
  · intro kernels hread listed hlisted
    exact (named_of_readListing hread listed hlisted).listable.check_eq_ok
  · intro diagnostic hdiagnostic
    rw [herrors] at hdiagnostic
    exact Reading.mem_refusals_iff.mp hdiagnostic

end BufferPromotion
