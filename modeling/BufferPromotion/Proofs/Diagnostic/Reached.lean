import BufferPromotion.Proofs.Diagnostic.Outcome

/-! # Outcomes that the steps lead to

An outcome is only ever made by the steps of its module. `Outcome.Reached` says so, with any
functions and predicates in the steps, also predicates that remember what they were asked before.
All these outcomes are settled (`settled_of_reached`): no step brings a value back, and every step
that adds or makes an error takes the value away.
-/

set_option autoImplicit false

namespace BufferPromotion

namespace Outcome

variable {α β : Type} {outcome : Outcome α}

/-! ## Predicates with a memory -/

/-- Asks about the warnings among diagnostics, one after the other, and adds all of them to an
outcome. The predicate knows the warnings that it was asked about before. -/
def ask (holds : List Diagnostic → Diagnostic → Bool) (asked : List Diagnostic)
    (outcome : Outcome α) : List (Severity × Diagnostic) → Outcome α
  | [] => outcome
  | (.error, diagnostic) :: rest =>
      ask holds asked ⟨outcome.value, outcome.diagnostics ++ [(.error, diagnostic)]⟩ rest
  | (.warning, diagnostic) :: rest =>
      if holds asked diagnostic then
        ask holds (asked ++ [diagnostic]) (outcome.fail diagnostic) rest
      else ask holds (asked ++ [diagnostic]) (outcome.warn diagnostic) rest

/-- Makes errors of the warnings that a predicate with a memory holds of. -/
def upgradeAsking (outcome : Outcome α) (holds : List Diagnostic → Diagnostic → Bool) :
    Outcome α :=
  ask holds [] ⟨outcome.value, []⟩ outcome.diagnostics

theorem warnings_cons_error {value : Option α} {diagnostic : Diagnostic}
    {entries : List (Severity × Diagnostic)} :
    (Outcome.mk value ((.error, diagnostic) :: entries)).warnings =
      (Outcome.mk value entries).warnings := rfl

theorem warnings_cons_warning {value : Option α} {diagnostic : Diagnostic}
    {entries : List (Severity × Diagnostic)} :
    (Outcome.mk value ((.warning, diagnostic) :: entries)).warnings =
      diagnostic :: (Outcome.mk value entries).warnings := rfl

theorem ask_of_memoryless (holds : Diagnostic → Bool) (asked : List Diagnostic)
    (entries : List (Severity × Diagnostic)) :
    ask (fun _ => holds) asked outcome entries =
      ⟨if (Outcome.mk outcome.value entries).warnings.any holds then none else outcome.value,
        outcome.diagnostics ++ entries.map (upgradeEntry holds)⟩ := by
  induction entries generalizing asked outcome with
  | nil => simp [ask, warnings]
  | cons entry entries ih =>
      obtain ⟨severity, diagnostic⟩ := entry
      cases severity with
      | error =>
          rw [ask, ih, warnings_cons_error]
          simp [upgradeEntry]
      | warning =>
          rw [ask, warnings_cons_warning]
          by_cases hholds : holds diagnostic = true
          · rw [if_pos hholds, ih]
            simp [upgradeEntry, fail, hholds]
          · rw [if_neg hholds, ih]
            simp [upgradeEntry, warn, hholds]

/-- A predicate without a memory is one that does not use it. -/
theorem upgrade_eq_upgradeAsking (holds : Diagnostic → Bool) :
    outcome.upgrade holds = outcome.upgradeAsking fun _ => holds := by
  unfold upgradeAsking
  rw [ask_of_memoryless]
  rfl

/-! ## Reached outcomes -/

/-- The outcomes that the steps lead to. -/
inductive Reached : {α : Type} → Outcome α → Prop where
  | ofValue {α : Type} (value : α) : Reached (ofValue value)
  | ofError {α : Type} (diagnostic : Diagnostic) : Reached (ofError diagnostic : Outcome α)
  | warn {α : Type} {outcome : Outcome α} (h : Reached outcome) (diagnostic : Diagnostic) :
      Reached (outcome.warn diagnostic)
  | fail {α : Type} {outcome : Outcome α} (h : Reached outcome) (diagnostic : Diagnostic) :
      Reached (outcome.fail diagnostic)
  | set {α : Type} {outcome : Outcome α} (h : Reached outcome) (value : α) :
      Reached (outcome.set value)
  | map {α β : Type} {outcome : Outcome α} (h : Reached outcome) (f : α → β) :
      Reached (outcome.map f)
  /-- What follows only has to be reached for the value that it is given. -/
  | andThen {α β : Type} {outcome : Outcome α} (h : Reached outcome) (next : α → Outcome β)
      (hnext : ∀ value, outcome.value = some value → Reached (next value)) :
      Reached (outcome.andThen next)
  | upgrade {α : Type} {outcome : Outcome α} (h : Reached outcome)
      (holds : Diagnostic → Bool) : Reached (outcome.upgrade holds)
  | upgradeAsking {α : Type} {outcome : Outcome α} (h : Reached outcome)
      (holds : List Diagnostic → Diagnostic → Bool) : Reached (outcome.upgradeAsking holds)

/-! ## They are settled -/

/-- While the predicate is asked, a value is missing if and only if there is an error among the
diagnostics that have been asked about or among those that are left. -/
theorem settled_ask {holds : List Diagnostic → Diagnostic → Bool} {asked : List Diagnostic}
    {entries : List (Severity × Diagnostic)}
    (h : outcome.value = none ↔
      outcome.hasError = true ∨ ∃ entry ∈ entries, entry.1 = Severity.error) :
    (ask holds asked outcome entries).Settled := by
  induction entries generalizing asked outcome with
  | nil => simpa [ask, Settled] using h
  | cons entry entries ih =>
      obtain ⟨severity, diagnostic⟩ := entry
      cases severity with
      | error =>
          rw [ask]
          exact ih (by simpa [hasError] using h)
      | warning =>
          rw [ask]
          by_cases hholds : holds asked diagnostic = true
          · rw [if_pos hholds]
            exact ih (by simp [fail, hasError])
          · rw [if_neg hholds]
            exact ih (by simpa [warn, hasError] using h)

theorem Settled.upgradeAsking (h : outcome.Settled)
    (holds : List Diagnostic → Diagnostic → Bool) : (outcome.upgradeAsking holds).Settled := by
  refine settled_ask ?_
  have hfresh : (Outcome.mk outcome.value []).hasError = false := rfl
  rw [hfresh, ← hasError_iff]
  simpa [Settled] using h

theorem Settled.upgrade (h : outcome.Settled) (holds : Diagnostic → Bool) :
    (outcome.upgrade holds).Settled := by
  rw [upgrade_eq_upgradeAsking]
  exact h.upgradeAsking _

/-- An upgrade keeps the value as long as there is no error. -/
theorem Settled.value_upgrade (h : outcome.Settled) {holds : Diagnostic → Bool}
    (hclean : (outcome.upgrade holds).hasError = false) :
    (outcome.upgrade holds).value = outcome.value := by
  obtain ⟨value, hvalue⟩ := (h.upgrade holds).exists_value hclean
  have hnone : ¬ outcome.warnings.any holds = true := by
    intro hany
    have hgone : (outcome.upgrade holds).value = none := if_pos hany
    rw [hgone] at hvalue
    cases hvalue
  exact if_neg hnone

/-- Every outcome that the steps lead to lacks its value if and only if it has an error. -/
theorem settled_of_reached {α : Type} {outcome : Outcome α} (h : outcome.Reached) :
    outcome.Settled := by
  induction h with
  | ofValue value => exact settled_ofValue value
  | ofError diagnostic => exact settled_ofError diagnostic
  | warn _ diagnostic ih => exact ih.warn diagnostic
  | fail _ diagnostic _ => exact settled_fail diagnostic
  | set _ value ih => exact ih.set value
  | map _ f ih => exact ih.map f
  | andThen _ next _ ih ihnext => exact ih.andThen_of_value ihnext
  | upgrade _ holds ih => exact ih.upgrade holds
  | upgradeAsking _ holds ih => exact ih.upgradeAsking holds

end Outcome

end BufferPromotion
