import BufferPromotion.Proofs.Listing.Refusal

/-! # What a line does

A line does one of four things: it says nothing, it is refused, it opens a kernel, or the open
kernel accepts it. Which one, and what is reported, depends on the open kernel only, and neither on
the kernels before it nor on what has been reported so far (`readLine_eq`). So the diagnostics of a
listing are those of its lines one after the other (`diagnostics_readListing`), and it gives its
kernels if and only if no line reports an error (`settled_readListing`).
-/

set_option autoImplicit false

namespace BufferPromotion

/-- What a line does. -/
inductive LineEffect where
  /-- There are no tokens. -/
  | nothing
  /-- The line is wrong. It may have given warnings before that was found. -/
  | refused (warnings : List Diagnostic) (diagnostic : Diagnostic)
  /-- A new kernel takes the place of the one before. -/
  | opened (name : String) (line : Span)
  /-- The open kernel goes on. -/
  | accepted (warnings : List Diagnostic) (draft : Draft)

namespace LineEffect

/-- The diagnostics that a line adds to those before it. -/
def entries : LineEffect → List (Severity × Diagnostic)
  | nothing | opened _ _ => []
  | refused warnings diagnostic => warnings.map (Prod.mk .warning) ++ [(.error, diagnostic)]
  | accepted warnings _ => warnings.map (Prod.mk .warning)

/-- The line changes no kernel. -/
def KeepsKernels : LineEffect → Prop
  | nothing | refused _ _ => True
  | opened _ _ | accepted _ _ => False

/-- What has been read once a line has had its effect. -/
def apply (reading : Reading) (effect : LineEffect) : Reading :=
  let outcome := reading.outcome.reportAll effect.entries
  match effect with
  | nothing | refused _ _ => { reading with outcome := outcome }
  | opened name line =>
      ⟨outcome, reading.kernels ++ reading.current.toList.map (·.toListedKernel),
        some (Draft.opened name line)⟩
  | accepted _ draft => { reading with outcome := outcome, current := some draft }

end LineEffect

namespace Draft

/-- What a line inside a kernel does. -/
def effect (draft : Draft) (line : Span) (first : Token) (tokens : List Token) : LineEffect :=
  match readLine line first tokens ⟨draft, []⟩ with
  | .error diagnostic left => .refused left.warnings diagnostic
  | .ok _ next => .accepted next.warnings next.draft

end Draft

namespace Reading

/-- What the tokens of a line do. -/
def tokensEffect (current : Option Draft) (line : Span) (first : Token) (tokens : List Token) :
    LineEffect :=
  if first.lexeme = .word "kernel" then
    match readKernelName line tokens with
    | .error diagnostic => .refused [] diagnostic
    | .ok name => .opened name.text line
  else match current with
    | none => .refused [] ⟨.noOpenKernel first.text, line, []⟩
    | some draft => draft.effect line first tokens

/-- What a line does, given the kernel that is open. -/
def lineEffect (current : Option Draft) (line : SourceLine) : LineEffect :=
  match tokensOfLine line with
  | .error diagnostic => .refused [] diagnostic
  | .ok [] => .nothing
  | .ok (first :: tokens) => tokensEffect current (lineSpan first tokens) first tokens

/-- The diagnostics that a line adds to those before it. -/
def report (reading : Reading) (line : SourceLine) : List (Severity × Diagnostic) :=
  (lineEffect reading.current line).entries

/-- The diagnostics that lines add when they are read one after the other, line by line. -/
def reports (reading : Reading) : List SourceLine → List (List (Severity × Diagnostic))
  | [] => []
  | line :: rest => reading.report line :: (reading.readLine line).reports rest

variable {reading : Reading}

/-! ## One line -/

theorem openKernel_eq (h : reading.Sound) (line : Span) (tokens : List Token) :
    reading.perform (openKernel line tokens) =
      LineEffect.apply reading
        (match readKernelName line tokens with
          | .error diagnostic => .refused [] diagnostic
          | .ok name => .opened name.text line) := by
  cases hname : readKernelName line tokens with
  | error diagnostic =>
      rw [perform_of_error (openKernel_of_error hname)]
      rfl
  | ok name =>
      rw [perform_of_ok (openKernel_of_ok hname), closeKernel_eq_of_sound h]
      rfl

/-- A line inside a kernel has left the draft as it was, if it is refused. -/
theorem inKernel_eq {draft : Draft} (hdraft : reading.current = some draft) (missing : Diagnostic)
    (line : Span) (first : Token) (tokens : List Token) :
    reading.perform (inKernel missing (Draft.readLine line first tokens)) =
      LineEffect.apply reading (draft.effect line first tokens) := by
  unfold Draft.effect
  cases hread : Draft.readLine line first tokens ⟨draft, []⟩ with
  | error diagnostic left =>
      have hleft : left.draft = draft := Draft.keepsOnError_readLine _ _ _ hread
      rw [perform_of_error (inKernel_of_error hdraft hread),
        resume_of_unchanged (by rw [hdraft, hleft])]
      simp only [LineEffect.apply, LineEffect.entries, fail, Outcome.foldl_warn_eq_reportAll,
        Outcome.reportAll_append]
      rfl
  | ok _ next =>
      rw [perform_of_ok (inKernel_of_ok hdraft hread)]
      simp only [LineEffect.apply, LineEffect.entries, resume, Outcome.foldl_warn_eq_reportAll]

/-- A line has its effect on what has been read before. -/
theorem readLine_eq (h : reading.Sound) (line : SourceLine) :
    reading.readLine line = LineEffect.apply reading (lineEffect reading.current line) := by
  unfold readLine lineEffect
  cases tokensOfLine line with
  | error diagnostic => rfl
  | ok tokens =>
      cases tokens with
      | nil => rfl
      | cons first tokens =>
          dsimp only
          unfold readTokens tokensEffect
          by_cases hkernel : first.lexeme = .word "kernel"
          · rw [if_pos hkernel, if_pos hkernel, openKernel_eq h]
          · rw [if_neg hkernel, if_neg hkernel]
            cases hcurrent : reading.current with
            | none =>
                rw [perform_of_error (inKernel_of_none hcurrent)]
                rfl
            | some draft => exact inKernel_eq hcurrent _ _ first tokens

theorem outcome_readLine (h : reading.Sound) (line : SourceLine) :
    (reading.readLine line).outcome = reading.outcome.reportAll (reading.report line) := by
  rw [readLine_eq h]
  unfold report LineEffect.apply
  cases lineEffect reading.current line <;> rfl

theorem unchanged_of_keepsKernels (h : reading.Sound) {line : SourceLine}
    (hkeeps : (lineEffect reading.current line).KeepsKernels) :
    (reading.readLine line).kernels = reading.kernels ∧
      (reading.readLine line).current = reading.current := by
  rw [readLine_eq h]
  cases heffect : lineEffect reading.current line with
  | nothing | refused warnings diagnostic => exact ⟨rfl, rfl⟩
  | opened name line | accepted warnings draft =>
      rw [heffect] at hkeeps
      exact absurd hkeeps id

/-- What a line does to the kernels depends on the kernels only. -/
theorem readLine_congr {other : Reading} (h : reading.Sound) (hother : other.Sound)
    (hkernels : other.kernels = reading.kernels) (hcurrent : other.current = reading.current)
    (line : SourceLine) :
    (other.readLine line).kernels = (reading.readLine line).kernels ∧
      (other.readLine line).current = (reading.readLine line).current := by
  rw [readLine_eq h, readLine_eq hother, hcurrent]
  unfold LineEffect.apply
  cases lineEffect reading.current line <;> simp [hkernels, hcurrent]

/-! ## Many lines -/

theorem reports_append (lines more : List SourceLine) :
    reading.reports (lines ++ more) =
      reading.reports lines ++ (lines.foldl readLine reading).reports more := by
  induction lines generalizing reading with
  | nil => rfl
  | cons line lines ih => simp [reports, ih]

theorem reports_congr {other : Reading} (h : reading.Sound) (hother : other.Sound)
    (hkernels : other.kernels = reading.kernels) (hcurrent : other.current = reading.current)
    (lines : List SourceLine) : other.reports lines = reading.reports lines := by
  induction lines generalizing reading other with
  | nil => rfl
  | cons line lines ih =>
      obtain ⟨hkernels', hcurrent'⟩ := readLine_congr h hother hkernels hcurrent line
      have hreport : other.report line = reading.report line := by
        unfold report
        rw [hcurrent]
      rw [reports, reports, hreport,
        ih (h.readLine line) (hother.readLine line) hkernels' hcurrent']

theorem outcome_foldl_readLine (h : reading.Sound) (lines : List SourceLine) :
    (lines.foldl readLine reading).outcome =
      reading.outcome.reportAll (reading.reports lines).flatten := by
  induction lines generalizing reading with
  | nil => rfl
  | cons line lines ih =>
      rw [List.foldl_cons, ih (h.readLine line), outcome_readLine h, reports, List.flatten_cons,
        Outcome.reportAll_append]

end Reading

/-! ## Whole listings -/

theorem diagnostics_readListing (source : String) :
    (readListing source).diagnostics = (Reading.start.reports (sourceLines source)).flatten := by
  have hclosed := Reading.outcome_closeKernel (Reading.sound_foldl_readLine (sourceLines source))
  calc (readListing source).diagnostics
      = (((sourceLines source).foldl Reading.readLine Reading.start).closeKernel).outcome.diagnostics
          := rfl
    _ = (Reading.start.outcome.reportAll
          (Reading.start.reports (sourceLines source)).flatten).diagnostics := by
        rw [hclosed, Reading.outcome_foldl_readLine Reading.sound_start]
    _ = (Reading.start.reports (sourceLines source)).flatten := by
        rw [Outcome.diagnostics_reportAll]
        rfl

/-- A listing gives its kernels if and only if it has no error. -/
theorem settled_readListing (source : String) : (readListing source).Settled := by
  have hclosed := Reading.outcome_closeKernel (Reading.sound_foldl_readLine (sourceLines source))
  refine Outcome.Settled.map ?_ _
  rw [hclosed, Reading.outcome_foldl_readLine Reading.sound_start]
  exact (Outcome.settled_ofValue ()).reportAll _

/-- The kernels of a listing are those that are closed once its lines are read. -/
theorem value_readListing {source : String} {kernels : List ListedKernel}
    (h : (readListing source).value = some kernels) :
    kernels = ((sourceLines source).foldl Reading.readLine Reading.start).closeKernel.kernels := by
  obtain ⟨_, -, rfl⟩ := Option.map_eq_some_iff.mp h
  rfl

end BufferPromotion
