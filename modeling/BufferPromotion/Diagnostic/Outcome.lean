import BufferPromotion.Diagnostic.Basic

/-! # Outcomes

The outcome of a step is a value, if there is one, and the diagnostics met on the way. A
warning leaves the value in place, an error takes it away. So an outcome without warnings
and errors has a value, and one with an error never gets a value back.
-/

set_option autoImplicit false

namespace BufferPromotion

/-- How bad a diagnostic is. -/
inductive Severity where
  /-- The value can still be used. -/
  | warning
  /-- There is no value. -/
  | error
  deriving DecidableEq, Repr

/-- A value, unless an error took it away, and the diagnostics in the order they were met. -/
structure Outcome (α : Type) where
  value : Option α
  diagnostics : List (Severity × Diagnostic)
  deriving DecidableEq

namespace Outcome

variable {α β : Type}

/-- The outcome that is just a value. -/
def ofValue (value : α) : Outcome α := ⟨some value, []⟩

/-- The outcome that is just an error. -/
def ofError (diagnostic : Diagnostic) : Outcome α := ⟨none, [(.error, diagnostic)]⟩

/-- Whether some diagnostic is an error. -/
def hasError (outcome : Outcome α) : Bool := outcome.diagnostics.any (·.1 == .error)

/-- Adds a warning. -/
def warn (outcome : Outcome α) (diagnostic : Diagnostic) : Outcome α :=
  { outcome with diagnostics := outcome.diagnostics ++ [(.warning, diagnostic)] }

/-- Adds an error, which takes the value away. -/
def fail (outcome : Outcome α) (diagnostic : Diagnostic) : Outcome α :=
  ⟨none, outcome.diagnostics ++ [(.error, diagnostic)]⟩

/-- Adds a diagnostic of either severity. -/
def report (outcome : Outcome α) (entry : Severity × Diagnostic) : Outcome α :=
  match entry.1 with
  | .warning => outcome.warn entry.2
  | .error => outcome.fail entry.2

/-- Adds diagnostics one after the other. -/
def reportAll (outcome : Outcome α) (entries : List (Severity × Diagnostic)) : Outcome α :=
  entries.foldl report outcome

/-- Replaces the value, if there is one. -/
def set (outcome : Outcome α) (value : α) : Outcome α :=
  { outcome with value := outcome.value.map fun _ => value }

/-- Applies a function to the value, if there is one. -/
def map (f : α → β) (outcome : Outcome α) : Outcome β :=
  ⟨outcome.value.map f, outcome.diagnostics⟩

/-- Goes on with the value, if there is one. The diagnostics of both steps are kept. -/
def andThen (outcome : Outcome α) (next : α → Outcome β) : Outcome β :=
  match outcome.value with
  | some value =>
      let following := next value
      ⟨following.value, outcome.diagnostics ++ following.diagnostics⟩
  | none => ⟨none, outcome.diagnostics⟩

/-- The diagnostics that are warnings. -/
def warnings (outcome : Outcome α) : List Diagnostic :=
  (outcome.diagnostics.filter (·.1 == .warning)).map (·.2)

/-- Makes an error of a warning that the predicate holds of. -/
def upgradeEntry (holds : Diagnostic → Bool) (entry : Severity × Diagnostic) :
    Severity × Diagnostic :=
  if entry.1 == .warning && holds entry.2 then (.error, entry.2) else entry

/-- Makes errors of the warnings that the predicate holds of. The value is gone if there is
such a warning. -/
def upgrade (outcome : Outcome α) (holds : Diagnostic → Bool) : Outcome α :=
  ⟨if outcome.warnings.any holds then none else outcome.value,
   outcome.diagnostics.map (upgradeEntry holds)⟩

end Outcome

end BufferPromotion
