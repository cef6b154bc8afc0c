import BufferPromotion.Diagnostic.Action

/-! # Runs of actions

A check changes nothing, so it can be taken off the front of a run. What an action may have changed
by the time it gives a diagnostic is told by its parts: what is seen of the state stays as it is on
an error, if only checks come before the last change (`Keeps.bind`).
-/

set_option autoImplicit false

namespace BufferPromotion

namespace Action

variable {σ τ α β : Type}

/-! ## One action after the other -/

section Bind

variable {action : Action σ α} {next : α → Action σ β} {state left : σ}

theorem bind_of_ok {value : α} (h : action state = .ok value left) :
    (action >>= next) state = next value left := by
  show EStateM.bind action next state = _
  unfold EStateM.bind
  rw [h]

theorem bind_of_error {diagnostic : Diagnostic} (h : action state = .error diagnostic left) :
    (action >>= next) state = .error diagnostic left := by
  show EStateM.bind action next state = _
  unfold EStateM.bind
  rw [h]

end Bind

/-! ## Checks -/

section Check

variable {verdict : σ → Except Diagnostic α} {next : α → Action σ β} {state left : σ}

theorem check_bind_of_ok {value : α} (h : verdict state = .ok value) :
    (check verdict >>= next) state = next value state := by
  refine bind_of_ok ?_
  unfold check
  rw [h]

theorem check_bind_of_error {diagnostic : Diagnostic} (h : verdict state = .error diagnostic) :
    (check verdict >>= next) state = .error diagnostic state := by
  refine bind_of_error ?_
  unfold check
  rw [h]

/-- A check and what comes after it succeed one after the other, on the same state. -/
theorem check_bind_eq_ok_iff {result : β} :
    (check verdict >>= next) state = .ok result left ↔
      ∃ value, verdict state = .ok value ∧ next value state = .ok result left := by
  cases hverdict : verdict state with
  | error diagnostic =>
      rw [check_bind_of_error hverdict]
      exact ⟨nofun, fun ⟨_, h, _⟩ => nomatch h⟩
  | ok value =>
      rw [check_bind_of_ok hverdict]
      constructor
      · exact fun h => ⟨value, rfl, h⟩
      · rintro ⟨_, hvalue, h⟩
        cases hvalue
        exact h

end Check

/-! What does not look at the state is checked in the same way. -/

section Lift

variable {verdict : Except Diagnostic α} {next : α → Action σ β} {state left : σ}

theorem lift_bind_of_ok {value : α} (h : verdict = .ok value) :
    ((liftM verdict : Action σ α) >>= next) state = next value state :=
  check_bind_of_ok h

theorem lift_bind_of_error {diagnostic : Diagnostic} (h : verdict = .error diagnostic) :
    ((liftM verdict : Action σ α) >>= next) state = .error diagnostic state :=
  check_bind_of_error h

theorem lift_bind_eq_ok_iff {result : β} :
    ((liftM verdict : Action σ α) >>= next) state = .ok result left ↔
      ∃ value, verdict = .ok value ∧ next value state = .ok result left :=
  check_bind_eq_ok_iff

end Lift

/-! ## Work on a part -/

section OnPart

variable {part : τ → σ} {put : τ → σ → τ} {action : Action σ α} {whole rest : τ}

/-- Work on a part succeeds if the work does, and the part is put back. -/
theorem onPart_eq_ok_iff {value : α} :
    action.onPart part put whole = .ok value rest ↔
      ∃ left, action (part whole) = .ok value left ∧ rest = put whole left := by
  unfold onPart
  cases action (part whole) with
  | error diagnostic left => exact ⟨nofun, fun ⟨_, h, _⟩ => nomatch h⟩
  | ok found left =>
      constructor
      · intro h
        cases h
        exact ⟨left, rfl, rfl⟩
      · rintro ⟨_, hrun, rfl⟩
        cases hrun
        rfl

/-- The part is also put back if the work gives a diagnostic. -/
theorem onPart_eq_error_iff {diagnostic : Diagnostic} :
    action.onPart part put whole = .error diagnostic rest ↔
      ∃ left, action (part whole) = .error diagnostic left ∧ rest = put whole left := by
  unfold onPart
  cases action (part whole) with
  | ok value left => exact ⟨nofun, fun ⟨_, h, _⟩ => nomatch h⟩
  | error found left =>
      constructor
      · intro h
        cases h
        exact ⟨left, rfl, rfl⟩
      · rintro ⟨_, hrun, rfl⟩
        cases hrun
        rfl

end OnPart

/-! ## What actions leave as it is -/

/-- The state that an action leaves behind, however it ends. -/
def left (action : Action σ α) (state : σ) : σ :=
  match action state with
  | .ok _ rest | .error _ rest => rest

/-- However the action ends, it leaves what is seen of the state as it was. -/
def Keeps (view : σ → τ) (action : Action σ α) : Prop :=
  ∀ state, view (action.left state) = view state

/-- If the action gives a diagnostic, it leaves what is seen of the state as it was. -/
def KeepsOnError (view : σ → τ) (action : Action σ α) : Prop :=
  ∀ state diagnostic rest, action state = .error diagnostic rest → view rest = view state

section Frame

variable {view : σ → τ} {action : Action σ α}

theorem left_of_ok {state rest : σ} {value : α} (h : action state = .ok value rest) :
    action.left state = rest := by
  unfold left
  rw [h]

theorem left_of_error {state rest : σ} {diagnostic : Diagnostic}
    (h : action state = .error diagnostic rest) : action.left state = rest := by
  unfold left
  rw [h]

theorem keeps_check (verdict : σ → Except Diagnostic α) : (check verdict).Keeps view := by
  intro state
  unfold left check
  cases verdict state <;> rfl

theorem keeps_lift (verdict : Except Diagnostic α) :
    Keeps view (liftM verdict : Action σ α) :=
  keeps_check _

theorem Keeps.keepsOnError (h : action.Keeps view) : action.KeepsOnError view := by
  intro state diagnostic rest herror
  rw [← left_of_error herror, h state]

/-- A change gives no diagnostic. -/
theorem keepsOnError_modify (change : σ → σ) : KeepsOnError view (modify change : Action σ Unit) :=
  nofun

/-- After an action that keeps what is seen, it is the next one that may change it. -/
theorem Keeps.bind {next : α → Action σ β} (h : action.Keeps view)
    (hnext : ∀ value, (next value).KeepsOnError view) : (action >>= next).KeepsOnError view := by
  intro state diagnostic rest herror
  cases hrun : action state with
  | error found mid =>
      rw [bind_of_error hrun] at herror
      cases herror
      rw [← left_of_error hrun, h state]
  | ok value mid =>
      rw [bind_of_ok hrun] at herror
      rw [hnext value mid diagnostic rest herror, ← left_of_ok hrun, h state]

end Frame

end Action

end BufferPromotion
