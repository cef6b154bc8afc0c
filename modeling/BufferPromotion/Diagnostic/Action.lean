import BufferPromotion.Diagnostic.Basic

/-! # Actions

An action works on a state, and gives a value or a diagnostic. Whichever it gives, the state is the
one that the action has left behind: nothing that was changed before a diagnostic is taken back.
-/

set_option autoImplicit false

namespace BufferPromotion

/-- An action on a state. Its result holds the state that it leaves, also if it gives a
diagnostic. -/
abbrev Action (σ α : Type) := EStateM Diagnostic σ α

namespace Action

variable {σ τ α : Type}

/-- Looks at the state, and gives a value or a diagnostic. -/
def check (verdict : σ → Except Diagnostic α) : Action σ α := fun state =>
  match verdict state with
  | .ok value => .ok value state
  | .error diagnostic => .error diagnostic state

/-- What does not look at the state is an action on any state. -/
instance : MonadLift (Except Diagnostic) (Action σ) := ⟨fun verdict => check fun _ => verdict⟩

/-- Works on a part of a state. The part is put back as the action has left it. -/
def onPart (part : τ → σ) (put : τ → σ → τ) (action : Action σ α) : Action τ α := fun state =>
  match action (part state) with
  | .ok value left => .ok value (put state left)
  | .error diagnostic left => .error diagnostic (put state left)

end Action

end BufferPromotion
