import BufferPromotion.Listing.Reader
import BufferPromotion.Proofs.Diagnostic.Action

/-! # What a refused line leaves behind

Nothing takes back what the reader of a line has changed. That a line that is refused leaves the
kernels as they are is due to each of the readers: it makes its only change last, when nothing can
go wrong any more. The one change that comes before an error is a warning about a parameter.
-/

set_option autoImplicit false

namespace BufferPromotion

namespace Draft

variable {line : Span} {first : Token} {tokens : List Token}

/-! ## Lines about the launch and buffers -/

theorem keepsOnError_readBlock : (readBlock line tokens).KeepsOnError id :=
  (Action.keeps_lift _).bind fun _ => Action.keepsOnError_modify _

theorem keepsOnError_readFilter : (readFilter line tokens).KeepsOnError id :=
  (Action.keeps_lift _).bind fun _ => Action.keepsOnError_modify _

theorem keepsOnError_readBuffer : (readBuffer line tokens).KeepsOnError id := by
  refine (Action.keeps_lift _).bind fun (value, rest) => ?_
  refine (Action.keeps_check _).bind fun id => ?_
  refine (Action.keeps_check _).bind fun _ => ?_
  refine (Action.keeps_lift _).bind fun (elem, rest) => ?_
  refine (Action.keeps_check _).bind fun (image, rest) => ?_
  refine (Action.keeps_lift _).bind fun _ => ?_
  refine (Action.keeps_check _).bind fun _ => ?_
  exact Action.keepsOnError_modify _

/-! ## Operations -/

theorem keepsOnError_readStore : (readStore line tokens).KeepsOnError id := by
  refine (Action.keeps_lift _).bind fun (items, rest) => ?_
  refine (Action.keeps_lift _).bind fun _ => ?_
  refine (Action.keeps_check _).bind fun operands => ?_
  refine (Action.keeps_lift _).bind fun _ => ?_
  exact Action.keepsOnError_modify _

theorem keepsOnError_readCall {name : Word} : (readCall line name tokens).KeepsOnError id := by
  refine (Action.keeps_lift _).bind fun items => ?_
  refine (Action.keeps_check _).bind fun operands => ?_
  exact Action.keepsOnError_modify _

theorem keepsOnError_readDefinition {value : ValueName} :
    (readDefinition line value tokens).KeepsOnError id := by
  refine (Action.keeps_lift _).bind fun _ => ?_
  refine (Action.keeps_lift _).bind fun rest => ?_
  refine (Action.keeps_lift _).bind fun (word, rest) => ?_
  refine (Action.keeps_lift _).bind fun (items, rest) => ?_
  refine (Action.keeps_lift _).bind fun (declared, rest) => ?_
  refine (Action.keeps_lift _).bind fun _ => ?_
  refine (Action.keeps_lift _).bind fun (kind, operands) => ?_
  refine (Action.keeps_lift _).bind fun type => ?_
  refine (Action.keeps_check _).bind fun ids => ?_
  refine (Action.keeps_lift _).bind fun _ => ?_
  refine (Action.keeps_check _).bind fun _ => ?_
  exact Action.keepsOnError_modify _

/-! ## Parameters -/

theorem keepsOnError_acceptParam {phrase : ParamPhrase} :
    (acceptParam line phrase tokens).KeepsOnError id := by
  refine (Action.keeps_lift _).bind fun _ => ?_
  refine (Action.keeps_check _).bind fun _ => ?_
  exact Action.keepsOnError_modify _

theorem keepsOnError_onDraft {action : Action Draft Unit} (h : action.KeepsOnError id) :
    (LineState.onDraft action).KeepsOnError LineState.draft :=
  fun _ _ _ herror => by
    obtain ⟨rest, hrun, rfl⟩ := Action.onPart_eq_error_iff.mp herror
    exact h _ _ _ hrun

/-- Work on the draft adds no warnings. -/
theorem keeps_warnings_onDraft (action : Action Draft Unit) :
    (LineState.onDraft action).Keeps LineState.warnings := by
  intro state
  unfold Action.left LineState.onDraft Action.onPart
  cases action state.draft <;> rfl

/-- The warning stays, but the draft is as it was. -/
theorem keepsOnError_readParam : (readParam line tokens).KeepsOnError LineState.draft := by
  refine (Action.keeps_lift _).bind fun (phrase, rest) => ?_
  refine Action.Keeps.bind (fun _ => rfl) fun _ => ?_
  exact keepsOnError_onDraft keepsOnError_acceptParam

/-! ## Lines -/

/-- A line inside a kernel that is refused leaves the draft as it was. -/
theorem keepsOnError_readLine : (readLine line first tokens).KeepsOnError LineState.draft := by
  unfold readLine
  split
  · exact keepsOnError_onDraft keepsOnError_readDefinition
  · split
    · exact keepsOnError_onDraft keepsOnError_readBlock
    split
    · exact keepsOnError_onDraft keepsOnError_readFilter
    split
    · exact keepsOnError_readParam
    split
    · exact keepsOnError_onDraft keepsOnError_readBuffer
    split
    · exact keepsOnError_onDraft keepsOnError_readStore
    · exact keepsOnError_onDraft keepsOnError_readCall
  · exact Action.Keeps.keepsOnError fun _ => rfl

end Draft

namespace Reading

variable {line : Span} {first : Token} {tokens : List Token}

/-- With the same draft, only the warnings are new. -/
theorem resume_of_unchanged {reading : Reading} {state : Draft.LineState}
    (h : reading.current = some state.draft) :
    reading.resume state =
      { reading with outcome := state.warnings.foldl Outcome.warn reading.outcome } := by
  unfold resume
  rw [← h]

theorem perform_of_ok {reading next : Reading} {action : Action Reading Unit}
    (h : action reading = .ok () next) : reading.perform action = next := by
  unfold perform
  rw [h]

theorem perform_of_error {reading left : Reading} {action : Action Reading Unit}
    {diagnostic : Diagnostic} (h : action reading = .error diagnostic left) :
    reading.perform action = left.fail diagnostic := by
  unfold perform
  rw [h]

/-- The kernels of a reading, those that are closed and the one that is open. -/
def drafts (reading : Reading) : List ListedKernel × Option Draft :=
  (reading.kernels, reading.current)

theorem openKernel_of_error {reading : Reading} {diagnostic : Diagnostic}
    (h : readKernelName line tokens = .error diagnostic) :
    openKernel line tokens reading = .error diagnostic reading :=
  Action.lift_bind_of_error h

theorem openKernel_of_ok {reading : Reading} {name : Word}
    (h : readKernelName line tokens = .ok name) :
    openKernel line tokens reading =
      .ok () { reading.closeKernel with current := some (Draft.opened name.text line) } :=
  Action.lift_bind_of_ok h

theorem keepsOnError_openKernel : (openKernel line tokens).KeepsOnError drafts :=
  (Action.keeps_lift _).bind fun _ => Action.keepsOnError_modify _

section InKernel

variable {missing : Diagnostic} {action : Action Draft.LineState Unit} {reading : Reading}

theorem inKernel_of_none (h : reading.current = none) :
    inKernel missing action reading = .error missing reading := by
  refine Action.check_bind_of_error ?_
  unfold openDraft
  rw [h]

section Some

variable {draft : Draft} (hcurrent : reading.current = some draft)

include hcurrent

theorem inKernel_of_some :
    inKernel missing action reading =
      action.onPart (fun _ => ⟨draft, []⟩) resume reading := by
  refine Action.check_bind_of_ok ?_
  unfold openDraft
  rw [hcurrent]

theorem inKernel_of_ok {next : Draft.LineState} (h : action ⟨draft, []⟩ = .ok () next) :
    inKernel missing action reading = .ok () (reading.resume next) := by
  rw [inKernel_of_some hcurrent]
  exact Action.onPart_eq_ok_iff.mpr ⟨next, h, rfl⟩

theorem inKernel_of_error {diagnostic : Diagnostic} {left : Draft.LineState}
    (h : action ⟨draft, []⟩ = .error diagnostic left) :
    inKernel missing action reading = .error diagnostic (reading.resume left) := by
  rw [inKernel_of_some hcurrent]
  exact Action.onPart_eq_error_iff.mpr ⟨left, h, rfl⟩

end Some

theorem keepsOnError_inKernel (h : action.KeepsOnError Draft.LineState.draft) :
    (inKernel missing action).KeepsOnError drafts := by
  intro reading diagnostic left herror
  cases hcurrent : reading.current with
  | none =>
      rw [inKernel_of_none hcurrent] at herror
      cases herror
      rfl
  | some draft =>
      rw [inKernel_of_some hcurrent] at herror
      obtain ⟨rest, hrun, rfl⟩ := Action.onPart_eq_error_iff.mp herror
      have hdraft : rest.draft = draft := h _ _ _ hrun
      rw [resume_of_unchanged (by rw [hcurrent, hdraft])]
      rfl

end InKernel

/-- **A line that is refused leaves all kernels as they were.** -/
theorem keepsOnError_readTokens : (readTokens line first tokens).KeepsOnError drafts := by
  unfold readTokens
  split
  · exact keepsOnError_openKernel
  · exact keepsOnError_inKernel Draft.keepsOnError_readLine

end Reading

end BufferPromotion
