import BufferPromotion.Proofs.Listing.Relocation.Reading

/-! # Lines that are refused

A line that is refused leaves nothing behind but its diagnostics. Its readers leave the kernels as
they were (`Reading.keepsOnError_readTokens`), so the lines after it are read as if the line were
blank. What a line reports is at a place inside the line. Both are said of every source in
`bad_lines_only_report`.
-/

set_option autoImplicit false

namespace BufferPromotion

/-! ## Errors of a line -/

namespace LineEffect

variable {effect : LineEffect}

theorem not_error_of_mem_warnings {warnings : List Diagnostic} {entry : Severity × Diagnostic}
    (h : entry ∈ warnings.map (Prod.mk Severity.warning)) : entry.1 ≠ .error := by
  obtain ⟨warning, -, rfl⟩ := List.mem_map.mp h
  exact Severity.noConfusion

theorem countP_entries_le : effect.entries.countP (·.1 == .error) ≤ 1 := by
  have hnone : ∀ warnings : List Diagnostic,
      (warnings.map (Prod.mk Severity.warning)).countP (·.1 == .error) = 0 := by
    intro warnings
    rw [List.countP_eq_zero]
    intro entry hentry
    simpa using not_error_of_mem_warnings hentry
  cases effect with
  | nothing | opened name line => exact Nat.zero_le 1
  | accepted warnings draft => exact Nat.le_trans (Nat.le_of_eq (hnone warnings)) (Nat.zero_le 1)
  | refused warnings diagnostic =>
      unfold entries
      rw [List.countP_append, hnone]
      exact Nat.le_refl 1

end LineEffect

namespace Reading

variable {reading : Reading}

/-- Only tokens that are refused report an error. -/
theorem exists_error_of_tokensEffect {line : Span} {first : Token} {tokens : List Token}
    (h : ∃ entry ∈ (tokensEffect reading.current line first tokens).entries, entry.1 = .error) :
    ∃ diagnostic left, readTokens line first tokens reading = .error diagnostic left := by
  obtain ⟨entry, hentry, herror⟩ := h
  unfold tokensEffect at hentry
  unfold readTokens
  by_cases hkernel : first.lexeme = .word "kernel"
  · rw [if_pos hkernel] at hentry ⊢
    cases hname : readKernelName line tokens with
    | error diagnostic => exact ⟨_, _, openKernel_of_error hname⟩
    | ok name =>
        rw [hname] at hentry
        cases hentry
  · rw [if_neg hkernel] at hentry ⊢
    cases hcurrent : reading.current with
    | none => exact ⟨_, _, inKernel_of_none hcurrent⟩
    | some draft =>
        rw [hcurrent] at hentry
        dsimp only at hentry
        unfold Draft.effect at hentry
        cases hread : Draft.readLine line first tokens ⟨draft, []⟩ with
        | error diagnostic left => exact ⟨_, _, inKernel_of_error hcurrent hread⟩
        | ok _ next =>
            rw [hread] at hentry
            exact absurd herror (LineEffect.not_error_of_mem_warnings hentry)

/-- A line that reports an error has left the kernels as they were. -/
theorem unchanged_of_error {line : SourceLine}
    (h : ∃ entry ∈ reading.report line, entry.1 = .error) :
    (reading.readLine line).kernels = reading.kernels ∧
      (reading.readLine line).current = reading.current := by
  unfold report lineEffect at h
  unfold readLine
  cases hread : tokensOfLine line with
  | error diagnostic => exact ⟨rfl, rfl⟩
  | ok tokens =>
      rw [hread] at h
      cases tokens with
      | nil => exact ⟨rfl, rfl⟩
      | cons first tokens =>
          obtain ⟨diagnostic, left, hrun⟩ := exists_error_of_tokensEffect h
          dsimp only
          rw [perform_of_error hrun]
          -- the error comes after the readers are done, and is no change of the kernels
          exact Prod.mk.inj (keepsOnError_readTokens reading diagnostic left hrun)

end Reading

/-! ## Blank lines -/

theorem tokensOfLine_blank {text : List Char} (h : ∀ c ∈ text, isBlank c = true) (offset : Nat) :
    tokensOfLine ⟨offset, dropLineEnding text⟩ = .ok [] :=
  tokensFrom_blank (fun c hc => h c (dropLineEnding_subset text (dropComment_subset _ hc))) offset

theorem report_of_no_tokens {reading : Reading} {line : SourceLine}
    (h : tokensOfLine line = .ok []) : reading.report line = [] ∧ reading.readLine line = reading := by
  constructor
  · unfold Reading.report Reading.lineEffect
    rw [h]
    rfl
  · unfold Reading.readLine
    rw [h]

/-! ## Places in a line -/

/-- A place that lies in a line. -/
def SourceLine.Holds (line : SourceLine) (span : Span) : Prop :=
  line.offset ≤ span.start ∧ span.stop ≤ line.offset + byteLength line.text

theorem keepsPlaces_holds (line : SourceLine) : Reading.KeepsPlaces line.Holds where
  cover a b ha hb := by
    simp only [SourceLine.Holds, Span.cover, Span.ofBounds, Span.stop] at *
    omega
  atEnd a ha := by
    simp only [SourceLine.Holds, Span.atEnd, Span.stop] at *
    omega

/-- What a line reports is inside the line. -/
theorem holds_of_mem_entries (current : Option Draft) (line : SourceLine) :
    ∀ entry ∈ (Reading.lineEffect current line).entries, line.Holds entry.2.span := by
  refine Reading.good_of_mem_entries (keepsPlaces_holds line) (fun before c after htext => ?_) current
  obtain ⟨comment, hcomment⟩ := exists_comment line.text
  have hlength : byteLength line.text =
      byteLength before + (c.utf8Size + byteLength after) + byteLength comment := by
    rw [hcomment, htext, byteLength_append, byteLength_append]
    rfl
  unfold SourceLine.Holds Span.stop
  dsimp only
  omega

/-- The reports of lines, each of them inside its line. -/
theorem holds_reports (reading : Reading) (lines : List SourceLine) :
    List.Forall₂ (fun line entries => ∀ entry ∈ entries, line.Holds entry.2.span) lines
      (reading.reports lines) := by
  induction lines generalizing reading with
  | nil => exact .nil
  | cons line lines ih => exact .cons (holds_of_mem_entries reading.current line) (ih _)

/-! ## Replacing a line -/

theorem diagnostics_foldl_start (lines : List SourceLine) :
    (lines.foldl Reading.readLine Reading.start).outcome.diagnostics =
      (Reading.start.reports lines).flatten := by
  rw [Reading.outcome_foldl_readLine Reading.sound_start, Outcome.diagnostics_reportAll]
  rfl

/-- The diagnostics of a source, taken apart at one of its lines. -/
theorem diagnostics_of_lines {source : String} {before after : List SourceLine}
    {line : SourceLine} (h : sourceLines source = before ++ line :: after) :
    let reading := before.foldl Reading.readLine Reading.start
    (readListing source).diagnostics = reading.outcome.diagnostics ++ reading.report line ++
      ((reading.readLine line).reports after).flatten := by
  intro reading
  rw [diagnostics_readListing, h, Reading.reports_append, diagnostics_foldl_start]
  simp [Reading.reports, reading]

/-- A line that reports an error and a blank line in its place give the same diagnostics before
and after it. -/
theorem diagnostics_of_blanked {before bad blank rest : String} (hbefore : endsLine before.toList = true)
    (hbad : '\n' ∉ bad.toList) (hrest : rest.toList = [] ∨ rest.toList.head? = some '\n')
    (hblank : ∀ c ∈ blank.toList, isBlank c = true ∧ c ≠ '\n')
    (hlength : byteLength blank.toList = byteLength bad.toList)
    {reading : Reading}
    (hreading : reading = (sourceLines before).foldl Reading.readLine Reading.start)
    {line : SourceLine} (hline : line = ⟨byteLength before.toList, dropLineEnding bad.toList⟩)
    (herror : ∃ entry ∈ reading.report line, entry.1 = .error) :
    ∃ later, (readListing (before ++ bad ++ rest)).diagnostics =
        reading.outcome.diagnostics ++ reading.report line ++ later ∧
      (readListing (before ++ blank ++ rest)).diagnostics = reading.outcome.diagnostics ++ later := by
  have hsound : reading.Sound := hreading ▸ Reading.sound_foldl_readLine _
  -- a line with an error has characters, and a blank line as long has some as well
  have hbadne : bad.toList ≠ [] := by
    intro hnil
    have hnone : tokensOfLine line = .ok [] := by rw [hline, hnil]; rfl
    rw [(report_of_no_tokens hnone).1] at herror
    obtain ⟨entry, hentry, -⟩ := herror
    cases hentry
  have hblankne : blank.toList ≠ [] := fun hnil =>
    hbadne (eq_nil_of_byteLength (by rw [← hlength, hnil]; rfl))
  have hbadLines := sourceLines_segment hbefore hbad hbadne hrest
  have hblankLines := sourceLines_segment hbefore (fun hmem => (hblank _ hmem).2 rfl) hblankne hrest
  rw [hlength] at hblankLines
  refine ⟨((reading.readLine line).reports (linesFrom (byteLength before.toList +
    byteLength bad.toList + 1) (splitLines rest.toList.tail))).flatten, ?_, ?_⟩
  · rw [diagnostics_of_lines hbadLines, ← hreading, ← hline]
  · -- the blank line does nothing, and the line with the error changes no kernel
    obtain ⟨hreport, hread⟩ := @report_of_no_tokens reading _
      (tokensOfLine_blank (fun c hc => (hblank c hc).1) (byteLength before.toList))
    obtain ⟨hkernels, hcurrent⟩ := Reading.unchanged_of_error herror
    rw [diagnostics_of_lines hblankLines, ← hreading, hreport, hread, List.append_nil,
      Reading.reports_congr hsound (hsound.readLine line) hkernels hcurrent]

/-- **A line that is refused has no effect but its diagnostics.** Whatever lines have been read, a
line adds at most one error to the diagnostics, and if it adds one, the closed kernels and the open
one stay as they are. So a blank line in its place, with as many bytes, takes away its diagnostics
and leaves all others as they are. The diagnostics of a source are those of its lines, in the order
of the lines, and each of them is about a place inside its line. -/
theorem bad_lines_only_report :
    (∀ (lines : List SourceLine) (line : SourceLine),
      let reading := lines.foldl Reading.readLine Reading.start
      (reading.readLine line).outcome.diagnostics =
          reading.outcome.diagnostics ++ reading.report line ∧
        (reading.report line).countP (·.1 == .error) ≤ 1 ∧
        ((∃ entry ∈ reading.report line, entry.1 = .error) →
          (reading.readLine line).kernels = reading.kernels ∧
            (reading.readLine line).current = reading.current)) ∧
    (∀ before bad blank rest : String, endsLine before.toList = true → '\n' ∉ bad.toList →
      (rest.toList = [] ∨ rest.toList.head? = some '\n') →
      (∀ c ∈ blank.toList, isBlank c = true ∧ c ≠ '\n') →
      byteLength blank.toList = byteLength bad.toList →
      let reading := (sourceLines before).foldl Reading.readLine Reading.start
      let line : SourceLine := ⟨byteLength before.toList, dropLineEnding bad.toList⟩
      (∃ entry ∈ reading.report line, entry.1 = .error) →
      ∃ later, (readListing (before ++ bad ++ rest)).diagnostics =
          reading.outcome.diagnostics ++ reading.report line ++ later ∧
        (readListing (before ++ blank ++ rest)).diagnostics =
          reading.outcome.diagnostics ++ later) ∧
    ∀ source, (readListing source).diagnostics =
        (Reading.start.reports (sourceLines source)).flatten ∧
      List.Forall₂ (fun line entries => ∀ entry ∈ entries, line.Holds entry.2.span)
        (sourceLines source) (Reading.start.reports (sourceLines source)) := by
  refine ⟨?_, ?_, fun source => ⟨diagnostics_readListing source, holds_reports _ _⟩⟩
  · intro lines line reading
    have hsound : reading.Sound := Reading.sound_foldl_readLine lines
    refine ⟨?_, LineEffect.countP_entries_le, Reading.unchanged_of_error⟩
    rw [Reading.outcome_readLine hsound, Outcome.diagnostics_reportAll]
  · intro before bad blank rest hbefore hbad hrest hblank hlength reading line herror
    exact diagnostics_of_blanked hbefore hbad hrest hblank hlength rfl rfl herror

/-- A parameter with something after its type has a warning and an error. A blank line in its
place takes both away; the later line that uses the name is wrong with either. -/
theorem bad_parameter_is_blanked :
    let before := "kernel k // ∀\n%a = foo\n"
    let bad := "param %p : odd extra\r"
    let rest := "\n%b = bar %p\n"
    let blank := String.ofList (List.replicate 21 ' ')
    let line : SourceLine := ⟨byteLength before.toList, dropLineEnding bad.toList⟩
    let reading := (sourceLines before).foldl Reading.readLine Reading.start
    (reading.report line).map (fun entry => (entry.1, entry.2.code)) =
        [(.warning, .untypedParam), (.error, .unexpectedToken)] ∧
      ∃ later, later.map (fun entry : Severity × Diagnostic => (entry.1, entry.2.code)) =
          [(.error, .undefinedName)] ∧
        (readListing (before ++ bad ++ rest)).diagnostics =
          reading.outcome.diagnostics ++ reading.report line ++ later ∧
        (readListing (before ++ blank ++ rest)).diagnostics =
          reading.outcome.diagnostics ++ later := by
  intro before bad rest blank line reading
  have hreport : (reading.report line).map (fun entry => (entry.1, entry.2.code)) =
      [(.warning, .untypedParam), (.error, .unexpectedToken)] := by
    decide +kernel
  have hblanked : (readListing (before ++ blank ++ rest)).diagnostics.map
      (fun entry => (entry.1, entry.2.code)) = [(.error, .undefinedName)] := by
    decide +kernel
  have hnone : reading.outcome.diagnostics = [] := by decide +kernel
  have herror : ∃ entry ∈ reading.report line, entry.1 = .error := by decide +kernel
  have hblank : ∀ c ∈ blank.toList, isBlank c = true ∧ c ≠ '\n' := by
    intro c hc
    rw [String.toList_ofList] at hc
    rw [List.eq_of_mem_replicate hc]
    decide
  obtain ⟨later, hbad, hlater⟩ := bad_lines_only_report.2.1 before bad blank rest
    (by decide +kernel) (by decide +kernel) (by decide +kernel) hblank (by decide +kernel) herror
  refine ⟨hreport, later, ?_, hbad, hlater⟩
  rw [hlater, hnone] at hblanked
  exact hblanked

end BufferPromotion
