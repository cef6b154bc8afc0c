import BufferPromotion.Proofs.Listing.Relocation.Reading

/-! # Listings one after the other

A line that opens a kernel forgets everything about the kernel before it. So a listing can follow
another one, if its first line with tokens opens a kernel: what the two give together is what the
first one gives, and then what the second one gives, at places that are as much later as the first
one is long (`listings_concatenate`). The proof reads the lines of the second listing on their own
and after the first one, side by side.
-/

set_option autoImplicit false

namespace BufferPromotion

/-- Whether lexemes are those of a line `kernel NAME`. -/
def isKernelLine : List Lexeme → Bool
  | [.word keyword, .word _] => keyword == "kernel"
  | _ => false

/-- Whether the first line with tokens, if there is one, is a line `kernel NAME`. -/
def opensKernel : List SourceLine → Bool
  | [] => true
  | line :: rest =>
      match tokensOfLine line with
      | .error _ | .ok [] => opensKernel rest
      | .ok tokens => isKernelLine (tokens.map (·.lexeme))

theorem isKernelLine_iff {lexemes : List Lexeme} :
    isKernelLine lexemes = true ↔ ∃ name, lexemes = [.word "kernel", .word name] := by
  constructor
  · intro h
    unfold isKernelLine at h
    split at h
    · next keyword name =>
      rw [beq_iff_eq.mp h]
      exact ⟨name, rfl⟩
    · cases h
  · rintro ⟨name, rfl⟩
    rfl

namespace Reading

variable {reading other : Reading} {bytes : Nat} {earlier : List ListedKernel}

/-! ## Lines of the kernels that are open -/

/-- What has been read after other kernels is, apart from these, what was read before them. -/
structure Continues (bytes : Nat) (earlier : List ListedKernel) (reading other : Reading) :
    Prop where
  kernels : other.kernels =
    earlier ++ reading.kernels.map (ListedKernel.relocate (Span.shift bytes))
  current : other.current = reading.current.map (Draft.relocate (Span.shift bytes))

theorem Continues.report (h : Continues bytes earlier reading other) (line : SourceLine) :
    other.report (line.shift bytes) =
      (reading.report line).map (relocateEntry (Span.shift bytes) (Span.shift bytes)) := by
  unfold Reading.report
  rw [h.current, lineEffect_shift, LineEffect.entries_relocate]

/-- Closing the kernel that is open keeps two readings in step. -/
theorem Continues.closed (h : Continues bytes earlier reading other) :
    other.kernels ++ other.current.toList.map (·.toListedKernel) =
      earlier ++ (reading.kernels ++ reading.current.toList.map (·.toListedKernel)).map
        (ListedKernel.relocate (Span.shift bytes)) := by
  rw [h.kernels, h.current, List.map_append, List.append_assoc]
  cases reading.current <;> rfl

theorem Continues.closeKernel (h : Continues bytes earlier reading other) (hreading : reading.Sound)
    (hother : other.Sound) :
    other.closeKernel.kernels =
      earlier ++ reading.closeKernel.kernels.map (ListedKernel.relocate (Span.shift bytes)) := by
  rw [closeKernel_eq_of_sound hreading, closeKernel_eq_of_sound hother]
  exact h.closed

theorem Continues.readLine (h : Continues bytes earlier reading other) (hreading : reading.Sound)
    (hother : other.Sound) (line : SourceLine) :
    Continues bytes earlier (reading.readLine line) (other.readLine (line.shift bytes)) := by
  rw [readLine_eq hreading, readLine_eq hother, h.current, lineEffect_shift]
  cases lineEffect reading.current line with
  | nothing | refused warnings diagnostic => exact ⟨h.kernels, h.current⟩
  | opened name line =>
      exact ⟨h.closed, congrArg some (Draft.opened_relocate name line)⟩
  | accepted warnings draft => exact ⟨h.kernels, rfl⟩

theorem Continues.run (h : Continues bytes earlier reading other) (hreading : reading.Sound)
    (hother : other.Sound) (lines : List SourceLine) :
    other.reports (lines.map (SourceLine.shift bytes)) =
        (reading.reports lines).map
          (List.map (relocateEntry (Span.shift bytes) (Span.shift bytes))) ∧
      Continues bytes earlier (lines.foldl Reading.readLine reading)
        ((lines.map (SourceLine.shift bytes)).foldl Reading.readLine other) := by
  induction lines generalizing reading other with
  | nil => exact ⟨rfl, h⟩
  | cons line lines ih =>
      obtain ⟨hreports, hrun⟩ :=
        ih (h.readLine hreading hother line) (hreading.readLine line) (hother.readLine _)
      refine ⟨?_, hrun⟩
      rw [List.map_cons, reports, reports, List.map_cons, h.report, hreports]

/-! ## Lines up to the first kernel -/

/-- The line has nothing to do with the kernel that is open. -/
def StartsAnew (line : SourceLine) : Prop :=
  ∀ first tokens, tokensOfLine line = .ok (first :: tokens) → first.lexeme = .word "kernel"

theorem lineEffect_of_startsAnew {line : SourceLine} (h : StartsAnew line)
    (current current' : Option Draft) : lineEffect current line = lineEffect current' line := by
  unfold lineEffect
  cases hread : tokensOfLine line with
  | error diagnostic => rfl
  | ok tokens =>
      cases tokens with
      | nil => rfl
      | cons first tokens =>
          have hkernel := h first tokens hread
          simp only [tokensEffect, if_pos hkernel]

theorem StartsAnew.shift {line : SourceLine} (h : StartsAnew line) :
    StartsAnew (line.shift bytes) := by
  intro first tokens hread
  rw [tokensOfLine_shift id] at hread
  cases hline : tokensOfLine line with
  | error diagnostic =>
      rw [hline] at hread
      cases hread
  | ok original =>
      rw [hline] at hread
      obtain ⟨token, rest, rfl, rfl, -⟩ := List.map_eq_cons_iff.mp (Except.ok.inj hread)
      exact h token rest hline

/-- A line that starts anew does the same in any reading, at its new place. -/
theorem lineEffect_shift_of_startsAnew {line : SourceLine} (h : StartsAnew line)
    (current current' : Option Draft) :
    lineEffect current' (line.shift bytes) =
      (lineEffect current line).relocate (Span.shift bytes) (Span.shift bytes) := by
  rw [lineEffect_of_startsAnew h.shift current' (current.map _), lineEffect_shift]

theorem LineEffect.keepsKernels_relocate {now past : Span → Span} {effect : LineEffect} :
    (effect.relocate now past).KeepsKernels ↔ effect.KeepsKernels := by
  cases effect <;> rfl

/-- A line before the first kernel changes no kernel, and the line after these opens one. -/
theorem startsAnew_of_opensKernel {line : SourceLine} {rest : List SourceLine}
    (h : opensKernel (line :: rest) = true) :
    StartsAnew line ∧
      (((∀ current, (lineEffect current line).KeepsKernels) ∧ opensKernel rest = true) ∨
        ∃ name span, ∀ current, lineEffect current line = .opened name span) := by
  unfold opensKernel at h
  unfold StartsAnew lineEffect
  cases htokens : tokensOfLine line with
  | error diagnostic =>
      rw [htokens] at h
      exact ⟨nofun, Or.inl ⟨fun _ => trivial, h⟩⟩
  | ok tokens =>
      rw [htokens] at h
      cases tokens with
      | nil => exact ⟨nofun, Or.inl ⟨fun _ => trivial, h⟩⟩
      | cons first tokens =>
          obtain ⟨name, hlexemes⟩ := isKernelLine_iff.mp h
          obtain ⟨hkernel, hname⟩ := List.cons.inj hlexemes
          obtain ⟨⟨lexeme, span⟩, rfl, rfl⟩ := List.map_eq_singleton_iff.mp hname
          refine ⟨?_, Or.inr ⟨name, _, fun current => if_pos hkernel⟩⟩
          rintro _ _ ⟨⟩
          exact hkernel

/-- The line that opens the first kernel puts two readings in step, whatever the other one has
read. -/
theorem continues_of_opened (hreading : reading.Sound) (hother : other.Sound)
    (hkernels : reading.kernels = []) (hcurrent : reading.current = none) {line : SourceLine}
    {name : String} {span : Span} (hopened : lineEffect reading.current line = .opened name span)
    (heffect : lineEffect other.current (line.shift bytes) =
      (lineEffect reading.current line).relocate (Span.shift bytes) (Span.shift bytes)) :
    Continues bytes other.closeKernel.kernels (reading.readLine line)
      (other.readLine (line.shift bytes)) := by
  rw [readLine_eq hreading, readLine_eq hother, heffect, hopened, closeKernel_eq_of_sound hother]
  refine ⟨?_, congrArg some (Draft.opened_relocate name span)⟩
  simp [LineEffect.apply, LineEffect.relocate, hkernels, hcurrent]

/-- The lines of a listing give the same after other kernels, at their new places. -/
theorem run_of_opensKernel (hreading : reading.Sound) (hother : other.Sound)
    (hkernels : reading.kernels = []) (hcurrent : reading.current = none)
    {lines : List SourceLine} (hopens : opensKernel lines = true) :
    other.reports (lines.map (SourceLine.shift bytes)) =
        (reading.reports lines).map
          (List.map (relocateEntry (Span.shift bytes) (Span.shift bytes))) ∧
      ((lines.map (SourceLine.shift bytes)).foldl Reading.readLine other).closeKernel.kernels =
        other.closeKernel.kernels ++ (lines.foldl Reading.readLine reading).closeKernel.kernels.map
          (ListedKernel.relocate (Span.shift bytes)) := by
  induction lines generalizing reading other with
  | nil =>
      refine ⟨rfl, ?_⟩
      have hnone : reading.closeKernel.kernels = [] := by
        rw [closeKernel_eq_of_sound hreading, hkernels, hcurrent]
        rfl
      rw [List.foldl_nil, hnone]
      exact (List.append_nil _).symm
  | cons line lines ih =>
      obtain ⟨hanew, hcases⟩ := startsAnew_of_opensKernel hopens
      have heffect : lineEffect other.current (line.shift bytes) =
          (lineEffect reading.current line).relocate (Span.shift bytes) (Span.shift bytes) :=
        lineEffect_shift_of_startsAnew hanew reading.current other.current
      have hreport : other.report (line.shift bytes) =
          (reading.report line).map (relocateEntry (Span.shift bytes) (Span.shift bytes)) := by
        unfold Reading.report
        rw [heffect, LineEffect.entries_relocate]
      have hnext := hreading.readLine line
      have hnextOther := hother.readLine (line.shift bytes)
      rw [List.map_cons, reports, reports, List.map_cons, hreport, List.foldl_cons,
        List.foldl_cons]
      rcases hcases with ⟨hkeeps, hrest⟩ | ⟨name, span, hopened⟩
      · -- no kernel yet: both readings go on as they were
        obtain ⟨hsame, hsame'⟩ := unchanged_of_keepsKernels hreading (hkeeps reading.current)
        have hkeepsOther : (lineEffect other.current (line.shift bytes)).KeepsKernels := by
          rw [heffect, LineEffect.keepsKernels_relocate]
          exact hkeeps reading.current
        obtain ⟨hkept, hkept'⟩ := unchanged_of_keepsKernels hother hkeepsOther
        obtain ⟨hreports, hclosed⟩ :=
          ih hnext hnextOther (hsame.trans hkernels) (hsame'.trans hcurrent) hrest
        refine ⟨by rw [hreports], ?_⟩
        rw [hclosed, closeKernel_eq_of_sound hnextOther, closeKernel_eq_of_sound hother, hkept,
          hkept']
      · -- the first kernel: from here on the two readings are in step
        have hstep := continues_of_opened hreading hother hkernels hcurrent
          (hopened reading.current) heffect
        obtain ⟨hreports, hrun⟩ := hstep.run hnext hnextOther lines
        exact ⟨by rw [hreports],
          hrun.closeKernel (hnext.foldl_readLine _) (hnextOther.foldl_readLine _)⟩

end Reading

/-- **Reading is a homomorphism on kernel boundaries.** A listing that ends its last line, followed
by a listing whose first line with tokens opens a kernel, has the diagnostics of the first, and
then those of the second at places that are as many bytes later as the first one is long. If
neither has an error, it gives the kernels of the first, and then those of the second at their new
places: all names, ids, sizes and buffers stay as they are. -/
theorem listings_concatenate {first second : String} (hends : endsLine first.toList = true)
    (hopens : opensKernel (sourceLines second) = true) :
    let later := Span.shift (byteLength first.toList)
    (readListing (first ++ second)).diagnostics =
        (readListing first).diagnostics ++
          (readListing second).diagnostics.map (relocateEntry later later) ∧
      ((readListing first).hasError = false → (readListing second).hasError = false →
        ∃ kernels more, (readListing first).value = some kernels ∧
          (readListing second).value = some more ∧
          (readListing (first ++ second)).value =
            some (kernels ++ more.map (ListedKernel.relocate later))) := by
  intro later
  have hlines := sourceLines_append hends second
  obtain ⟨hreports, hkernels⟩ := Reading.run_of_opensKernel Reading.sound_start
    (Reading.sound_foldl_readLine (sourceLines first)) rfl rfl hopens
  have hdiagnostics : (readListing (first ++ second)).diagnostics =
      (readListing first).diagnostics ++
        (readListing second).diagnostics.map (relocateEntry later later) := by
    rw [diagnostics_readListing, diagnostics_readListing, diagnostics_readListing, hlines,
      Reading.reports_append, hreports, List.flatten_append, List.map_flatten]
  refine ⟨hdiagnostics, fun hfirst hsecond => ?_⟩
  obtain ⟨kernels, hvalue⟩ := (settled_readListing first).exists_value hfirst
  obtain ⟨more, hmore⟩ := (settled_readListing second).exists_value hsecond
  -- no error on either side, so none in the whole
  have hwhole : (readListing (first ++ second)).hasError = false := by
    unfold Outcome.hasError at hfirst hsecond ⊢
    rw [hdiagnostics, List.any_append, hfirst, List.any_map, Bool.false_or]
    exact hsecond
  obtain ⟨all, hall⟩ := (settled_readListing (first ++ second)).exists_value hwhole
  refine ⟨kernels, more, hvalue, hmore, ?_⟩
  rw [hall, value_readListing hall, hlines, List.foldl_append, hkernels, value_readListing hvalue,
    value_readListing hmore]

/-- The first listing has a character of three bytes and lines that end in two characters, and the
second one starts with an empty line and a comment. Its parameter has a name that the first one uses
as well, and a warning, which moves with it. -/
theorem second_listing_moves :
    let first := "kernel a // ∀\r\nparam %p : ptr\r\nfilter 3 3\r\n"
    let second := "\n// odd\nkernel b\nparam %p : odd\nbuffer %p u8\nblock 8 8"
    let later := Span.shift (byteLength first.toList)
    (readListing (first ++ second)).diagnostics = [(.warning, ⟨.untypedParam "%p", ⟨73, 3⟩, []⟩)] ∧
      ∃ kernels more, (readListing first).value = some kernels ∧
        (readListing second).value = some more ∧
        (readListing (first ++ second)).value =
          some (kernels ++ more.map (ListedKernel.relocate later)) ∧
        more.map (fun listed => listed.block) = [some ⟨⟨8, 8⟩, ⟨45, 9⟩⟩] := by
  intro first second later
  have hends : endsLine first.toList = true := by decide +kernel
  have hopens : opensKernel (sourceLines second) = true := by decide +kernel
  obtain ⟨hdiagnostics, hkernels⟩ := listings_concatenate hends hopens
  obtain ⟨kernels, more, hfirst, hmore, hall⟩ :=
    hkernels (by decide +kernel) (by decide +kernel)
  have hblock : (readListing second).value.map (fun more => more.map fun listed => listed.block) =
      some [some ⟨⟨8, 8⟩, ⟨45, 9⟩⟩] := by
    decide +kernel
  rw [hmore] at hblock
  refine ⟨?_, kernels, more, hfirst, hmore, hall, Option.some.inj hblock⟩
  rw [hdiagnostics]
  decide +kernel

end BufferPromotion
