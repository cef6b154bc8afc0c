import BufferPromotion.Diagnostic.Outcome
import BufferPromotion.Listing.Directive

/-! # Reading listings

A listing holds any number of kernels. A line `kernel NAME` closes the kernel before it and
opens the next one; every other line belongs to the kernel that is open. Errors are reported
line by line. A line with an error is skipped, and reading goes on with the next one.
-/

set_option autoImplicit false

namespace BufferPromotion

/-- What has been read so far. -/
structure Reading where
  /-- The diagnostics so far. -/
  outcome : Outcome Unit
  /-- The kernels that are closed. -/
  kernels : List ListedKernel
  /-- The kernel that is open. -/
  current : Option Draft
  deriving DecidableEq

namespace Reading

/-- Nothing read. -/
def start : Reading := ⟨.ofValue (), [], none⟩

/-- Adds an error. -/
def fail (reading : Reading) (diagnostic : Diagnostic) : Reading :=
  { reading with outcome := reading.outcome.fail diagnostic }

/-- Closes the open kernel. -/
def closeKernel (reading : Reading) : Reading :=
  match reading.current with
  | none => reading
  | some draft =>
      match draft.finish with
      | .ok listed => { reading with kernels := reading.kernels ++ [listed], current := none }
      | .error error =>
          { reading with current := none }.fail
            ⟨.wrongOperands (.invalidKernel error), draft.span, []⟩

/-- Reads the name of a kernel that is to be opened. -/
def readKernelName (line : Span) (tokens : List Token) : Except Diagnostic Word := do
  let (name, tokens) ← expectWord line "kernel name" tokens
  expectEnd line tokens
  pure name

/-- Reads a line that opens a kernel. -/
def openKernel (line : Span) (tokens : List Token) : Action Reading Unit := do
  let name ← readKernelName line tokens
  modify fun reading =>
    { reading.closeKernel with current := some (Draft.opened name.text line) }

/-- Goes on with what a line has left of the open kernel, and reports its warnings. -/
def resume (reading : Reading) (state : Draft.LineState) : Reading :=
  { reading with
    outcome := state.warnings.foldl Outcome.warn reading.outcome, current := some state.draft }

/-- The kernel that is open. If there is none, then a diagnostic says that it is missing. -/
def openDraft (missing : Diagnostic) (reading : Reading) : Except Diagnostic Draft :=
  match reading.current with
  | some draft => .ok draft
  | none => .error missing

/-- Works on the open kernel. -/
def inKernel (missing : Diagnostic) (action : Action Draft.LineState Unit) :
    Action Reading Unit := do
  let draft ← Action.check (openDraft missing)
  action.onPart (fun _ => ⟨draft, []⟩) resume

/-- Reads the tokens of a line that is not empty. -/
def readTokens (line : Span) (first : Token) (tokens : List Token) : Action Reading Unit :=
  if first.lexeme = .word "kernel" then openKernel line tokens
  else inKernel ⟨.noOpenKernel first.text, line, []⟩ (Draft.readLine line first tokens)

/-- Does what a line says. A diagnostic is an error, and what the line has changed before it stays
changed. -/
def perform (reading : Reading) (action : Action Reading Unit) : Reading :=
  match action reading with
  | .ok _ next => next
  | .error diagnostic left => left.fail diagnostic

/-- The place of a line: from its first to its last token. -/
def lineSpan (first : Token) (tokens : List Token) : Span :=
  first.span.cover (tokens.getLastD first).span

/-- Reads a line. A line without tokens says nothing. -/
def readLine (reading : Reading) (line : SourceLine) : Reading :=
  match tokensOfLine line with
  | .error diagnostic => reading.fail diagnostic
  | .ok [] => reading
  | .ok (first :: tokens) => reading.perform (readTokens (lineSpan first tokens) first tokens)

/-- What was read once the source ends. -/
def finish (reading : Reading) : Outcome (List ListedKernel) :=
  let closed := reading.closeKernel
  closed.outcome.map fun _ => closed.kernels

end Reading

/-- Reads a listing. -/
def readListing (source : String) : Outcome (List ListedKernel) :=
  ((sourceLines source).foldl Reading.readLine Reading.start).finish

end BufferPromotion
