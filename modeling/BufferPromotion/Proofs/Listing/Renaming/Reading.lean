import BufferPromotion.Proofs.Listing.Renaming.Directive
import BufferPromotion.Proofs.Listing.Renaming.Lexing
import BufferPromotion.Proofs.Listing.Tables

/-! # Listings with renamed values

A source with renamed values is read in step with the source: line by line both report problems with
the same codes, and their kernels stay the same but for the names (`Reading.Renamed.readLine`). The
texts of a buffer without a declaration depend on the kernel at the line that declares the buffer,
but what they are made of does not change afterwards (`Draft.Renamed.of_readLine`). So they are
those of the finished kernel (`readListing_renamed`).
-/

set_option autoImplicit false

namespace BufferPromotion

namespace Outcome

variable {α β : Type}

/-- How bad the diagnostics of an outcome are, and their codes. -/
def codes (outcome : Outcome α) : List (Severity × Code) :=
  outcome.diagnostics.map fun entry => (entry.1, entry.2.code)

theorem codes_fail (outcome : Outcome α) (diagnostic : Diagnostic) :
    (outcome.fail diagnostic).codes = outcome.codes ++ [(.error, diagnostic.code)] :=
  List.map_append

theorem codes_foldl_warn (outcome : Outcome α) (warnings : List Diagnostic) :
    (warnings.foldl warn outcome).codes =
      outcome.codes ++ (warnings.map (·.code)).map (Prod.mk .warning) := by
  unfold codes
  rw [foldl_warn, List.map_append, List.map_map, List.map_map]
  rfl

/-- Whether there is a value can be told from how bad the diagnostics are. -/
theorem Settled.value_eq_none_iff {outcome : Outcome α} {other : Outcome β} (h : outcome.Settled)
    (hother : other.Settled) (hcodes : other.codes = outcome.codes) :
    other.value = none ↔ outcome.value = none := by
  have hany : ∀ {γ : Type} (outcome : Outcome γ),
      outcome.hasError = outcome.codes.any (·.1 == .error) := by
    intro γ outcome
    unfold hasError codes
    rw [List.any_map]
    rfl
  rw [show other.value = none ↔ _ from hother, show outcome.value = none ↔ _ from h, hany, hany,
    hcodes]

end Outcome

/-! ## Buffers of a kernel that has grown -/

/-- A declared buffer is a value of the kernel. -/
theorem Kernel.TakesBuffer.mem_order {kernel : Kernel} {id : ValueId} (h : kernel.TakesBuffer id)
    (hbuilt : kernel.Built) : id ∈ kernel.order := by
  rcases h with ⟨param, hparam, rfl⟩ | hstart
  · exact List.mem_append_left _ (List.mem_map_of_mem hparam)
  · obtain ⟨op, hop, -⟩ := exists_start_of_bufferStart hstart
    by_contra hid
    rw [operation?_eq_none_of_not_mem hbuilt hid] at hop
    cases hop

namespace Draft

variable {r : Renaming} {draft draft' next next' : Draft} {line line' : Span}

theorem Adds.operations_subset (h : draft.Adds line next) (hsound : draft.Sound)
    (hnext : next.Sound) : draft.kernel.operations ⊆ next.kernel.operations := by
  obtain ⟨node, hnodes⟩ := h.nodes
  intro op hop
  have hold := Kernel.operation?_of_push hnodes (Kernel.operation?_of_mem hop)
  rcases Kernel.param_or_mem_operations hnext.named.listable.built hold with
    ⟨param, -, -, rfl⟩ | hmem
  · -- no scheduled operation is a parameter
    exact absurd rfl (Kernel.kind_ne_param hsound.named.listable.check_eq_ok hop)
  · exact hmem

/-- The texts of the declared buffers are those of the kernel after the line as well. -/
theorem Renamed.of_readLine (h : draft.Renamed r draft.kernel draft') (hsound : draft.Sound)
    (hsound' : draft'.Sound) (hfits : draft.Fits) {first : Token} {tokens : List Token}
    {warnings : List Diagnostic} (hfirst : first.lexeme ≠ .word "kernel")
    (hread : readLine line first tokens ⟨draft, []⟩ = .ok () ⟨next, warnings⟩)
    (hrenamed : next.Renamed r draft.kernel next') (hnext : next.Sound) (hnext' : next'.Sound) :
    next.Renamed r next.kernel next' := by
  refine ⟨⟨hrenamed.kernel, hrenamed.block, hrenamed.filter, fun id => ?_, hrenamed.bufferLines⟩,
    hrenamed.scope⟩
  have hbuffer := hrenamed.buffers id
  rcases adds_or_sets_of_readLine hfirst hread with ⟨-, hadds⟩ | hsets
  · have hbuffers : next.buffers = draft.buffers := by rw [hadds.rest]
    have hops := hadds.operations_subset hsound hnext
    cases himage : next.buffers.get? id with
    | none =>
        rw [himage] at hbuffer
        generalize next'.buffers.get? id = found at hbuffer ⊢
        cases hbuffer
        exact .none
    | some image =>
        rw [hbuffers] at himage
        have hid := (hfits.buffers id image himage).1.mem_order hsound.named.listable.built
        have hplain := ImageBuffer.ofValue_of_grown hsound.named.listable.built
          hsound.named.listable.check_eq_ok hnext.named.listable.built
          hnext.named.listable.check_eq_ok hadds.params hops hid
        have hplain' := ImageBuffer.ofValue_of_grown hsound'.named.listable.built
          hsound'.named.listable.check_eq_ok hnext'.named.listable.built
          hnext'.named.listable.check_eq_ok
          (by rw [h.kernel, hrenamed.kernel]; exact List.map_subset _ hadds.params)
          (by rw [h.kernel, hrenamed.kernel]; exact hops)
          (by rw [h.kernel, Kernel.order_rename]; exact hid)
        rw [h.kernel, hrenamed.kernel] at hplain'
        rw [← hbuffers] at himage
        rw [← himage, hplain, hplain']
        exact hbuffer
  · rw [hsets.unchanged.1]
    exact hbuffer

end Draft

/-! ## Readings in step -/

/-- Two readings that are the same but for the names of values. -/
structure Reading.Renamed (r : Renaming) (reading reading' : Reading) : Prop where
  codes : reading'.outcome.codes = reading.outcome.codes
  kernels : List.Forall₂ (fun listed listed' => listed.Renamed r listed.kernel listed')
    reading.kernels reading'.kernels
  current : Option.Rel (fun draft draft' => draft.Renamed r draft.kernel draft') reading.current
    reading'.current
  sound : reading.Sound
  sound' : reading'.Sound
  fits : ∀ draft, reading.current = some draft → draft.Fits

namespace Reading

variable {r : Renaming} {reading reading' : Reading} {line line' : SourceLine}

theorem renamed_start : start.Renamed r start :=
  ⟨rfl, .nil, .none, sound_start, sound_start, nofun⟩

section Step

variable (h : reading.Renamed r reading')

include h

theorem Renamed.fail {diagnostic diagnostic' : Diagnostic}
    (hcode : diagnostic'.code = diagnostic.code) :
    (reading.fail diagnostic).Renamed r (reading'.fail diagnostic') where
  codes := by
    show (reading'.outcome.fail diagnostic').codes = (reading.outcome.fail diagnostic).codes
    rw [Outcome.codes_fail, Outcome.codes_fail, h.codes, hcode]
  kernels := h.kernels
  current := h.current
  sound := h.sound.fail diagnostic
  sound' := h.sound'.fail diagnostic'
  fits := h.fits

theorem Renamed.warn {warnings warnings' : List Diagnostic}
    (hcodes : warnings'.map (·.code) = warnings.map (·.code)) :
    Renamed r { reading with outcome := warnings.foldl Outcome.warn reading.outcome }
      { reading' with outcome := warnings'.foldl Outcome.warn reading'.outcome } where
  codes := by
    rw [Outcome.codes_foldl_warn, Outcome.codes_foldl_warn, h.codes, hcodes]
  kernels := h.kernels
  current := h.current
  sound := h.sound.warn warnings
  sound' := h.sound'.warn warnings'
  fits := h.fits

/-- The kernels after the open one has been closed. -/
theorem Renamed.closed :
    reading'.closeKernel.outcome.codes = reading.closeKernel.outcome.codes ∧
      List.Forall₂ (fun listed listed' => listed.Renamed r listed.kernel listed')
        reading.closeKernel.kernels reading'.closeKernel.kernels := by
  rw [closeKernel_eq_of_sound h.sound, closeKernel_eq_of_sound h.sound']
  refine ⟨h.codes, List.rel_append h.kernels ?_⟩
  have hcurrent := h.current
  generalize reading.current = current at hcurrent ⊢
  generalize reading'.current = current' at hcurrent ⊢
  cases hcurrent with
  | none => exact .nil
  | some hdraft => exact .cons hdraft.toRenamed .nil

section Tokens

variable {place place' : Span} {tokens tokens' : List Token}
  (hplain : ∀ token ∈ tokens, token.lexeme.Plain) (hplain' : ∀ token ∈ tokens', token.lexeme.Plain)
  (htokens : List.Forall₂ (Token.Renamed r) tokens tokens')

include hplain hplain' htokens

/-- A kernel of the same name is opened in both readings, or in none. -/
theorem Renamed.openKernel :
    (reading.perform (openKernel place tokens)).Renamed r
      (reading'.perform (openKernel place' tokens')) := by
  have hname : Agree Word.Same (readKernelName place tokens) (readKernelName place' tokens') := by
    refine (Renaming.expectWord_renamed htokens "kernel name").bind fun name name' hname => ?_
    exact (Renaming.expectEnd_renamed hname.2).bind fun _ _ _ => .ok hname.1
  have hsound := @Sound.openKernel reading h.sound place tokens hplain
  have hsound' := @Sound.openKernel reading' h.sound' place' tokens' hplain'
  generalize hread : readKernelName place tokens = result at hname
  generalize hread' : readKernelName place' tokens' = result' at hname
  cases hname with
  | error hcode =>
      rw [perform_of_error (openKernel_of_error hread),
        perform_of_error (openKernel_of_error hread')]
      exact h.fail hcode
  | @ok name name' hname =>
      rw [perform_of_ok (openKernel_of_ok hread)] at hsound ⊢
      rw [perform_of_ok (openKernel_of_ok hread')] at hsound' ⊢
      obtain ⟨hcodes, hkernels⟩ := h.closed
      have htext : name'.text = name.text := hname
      refine ⟨hcodes, hkernels, ?_, hsound, hsound', fun draft hdraft => ?_⟩
      · show Option.Rel _ (some (Draft.opened name.text place))
          (some (Draft.opened name'.text place'))
        rw [htext]
        exact .some (Draft.opened_renamed name.text place place')
      · cases hdraft
        exact ListedKernel.fits_opened name.text place

end Tokens

section InKernel

variable {place place' : Span} {first first' : Token} {tokens tokens' : List Token}
  (hplain : ∀ token ∈ first :: tokens, token.lexeme.Plain)
  (hplain' : ∀ token ∈ first' :: tokens', token.lexeme.Plain)
  (htokens : List.Forall₂ (Token.Renamed r) (first :: tokens) (first' :: tokens'))

include hplain hplain' htokens

/-- A line is accepted by both open kernels, or by none. -/
theorem Renamed.inKernel (hkernel : first.lexeme ≠ .word "kernel")
    (hkernel' : first'.lexeme ≠ .word "kernel") {draft draft' : Draft}
    (hdraft : reading.current = some draft) (hdraft' : reading'.current = some draft')
    (hrenamed : draft.Renamed r draft.kernel draft') (missing missing' : Diagnostic) :
    (reading.perform (inKernel missing (Draft.readLine place first tokens))).Renamed r
      (reading'.perform (inKernel missing' (Draft.readLine place' first' tokens'))) := by
  obtain ⟨hfirst, hrest⟩ := List.forall₂_cons.mp htokens
  have hstate : Draft.LineState.Renamed r draft.kernel ⟨draft, []⟩ ⟨draft', []⟩ := ⟨hrenamed, rfl⟩
  have hagree := @Draft.readLine_renamed r place place' ⟨draft, []⟩ ⟨draft', []⟩ hstate first first'
    hfirst tokens tokens' hrest
  generalize hread : Draft.readLine place first tokens ⟨draft, []⟩ = run at hagree
  generalize hread' : Draft.readLine place' first' tokens' ⟨draft', []⟩ = run' at hagree
  cases hagree with
  | @error diagnostic diagnostic' left left' hcode hleft =>
      -- both lines have left the open kernels as they were
      have hsame : left.draft = draft := Draft.keepsOnError_readLine _ _ _ hread
      have hsame' : left'.draft = draft' := Draft.keepsOnError_readLine _ _ _ hread'
      rw [perform_of_error (inKernel_of_error hdraft hread),
        perform_of_error (inKernel_of_error hdraft' hread'),
        resume_of_unchanged (by rw [hdraft, hsame]), resume_of_unchanged (by rw [hdraft', hsame'])]
      exact (h.warn hleft.codes).fail hcode
  | @ok next next' hnext =>
      have hsound := h.sound.resume hdraft hplain hkernel hread
      have hsound' := h.sound'.resume hdraft' hplain' hkernel' hread'
      rw [perform_of_ok (inKernel_of_ok hdraft hread), perform_of_ok (inKernel_of_ok hdraft' hread')]
      refine ⟨(h.warn hnext.codes).codes, h.kernels, ?_, hsound, hsound', fun other hother => ?_⟩
      · exact .some (hrenamed.of_readLine (h.sound.current draft hdraft)
          (h.sound'.current draft' hdraft') (h.fits draft hdraft) hkernel hread hnext.draft
          (hsound.current next.draft rfl) (hsound'.current next'.draft rfl))
      · cases hother
        exact (h.fits draft hdraft).of_readLine hkernel hread

end InKernel

/-- The same tokens are read by both readings. Without an open kernel both refuse them. -/
theorem Renamed.readTokens {place place' : Span} {first first' : Token}
    {tokens tokens' : List Token}
    (hplain : ∀ token ∈ first :: tokens, token.lexeme.Plain)
    (hplain' : ∀ token ∈ first' :: tokens', token.lexeme.Plain)
    (htokens : List.Forall₂ (Token.Renamed r) (first :: tokens) (first' :: tokens')) :
    (reading.perform (readTokens place first tokens)).Renamed r
      (reading'.perform (readTokens place' first' tokens')) := by
  obtain ⟨hfirst, hrest⟩ := List.forall₂_cons.mp htokens
  have hiff : first'.lexeme = .word "kernel" ↔ first.lexeme = .word "kernel" := by
    rw [show first'.lexeme = r.lexeme first.lexeme from hfirst]
    exact Renaming.lexeme_eq_iff nofun
  unfold Reading.readTokens
  by_cases hkernel : first.lexeme = .word "kernel"
  · rw [if_pos hkernel, if_pos (hiff.mpr hkernel)]
    exact h.openKernel (List.forall_mem_cons.mp hplain).2 (List.forall_mem_cons.mp hplain').2 hrest
  · have hkernel' := mt hiff.mp hkernel
    rw [if_neg hkernel, if_neg hkernel']
    have hcurrent := h.current
    generalize hdraft : reading.current = current at hcurrent
    generalize hdraft' : reading'.current = current' at hcurrent
    cases hcurrent with
    | none =>
        rw [perform_of_error (inKernel_of_none hdraft), perform_of_error (inKernel_of_none hdraft')]
        exact h.fail rfl
    | some hrenamed =>
        exact h.inKernel hplain hplain' htokens hkernel hkernel' hdraft hdraft' hrenamed _ _

/-- Lines with renamed tokens keep two readings in step. -/
theorem Renamed.readLine (hline : Agree (List.Forall₂ (Token.Renamed r)) (tokensOfLine line)
      (tokensOfLine line')) :
    (reading.readLine line).Renamed r (reading'.readLine line') := by
  have hplain : ∀ {line : SourceLine} {tokens : List Token}, tokensOfLine line = .ok tokens →
      ∀ token ∈ tokens, token.lexeme.Plain := plain_of_mem_tokensFrom
  unfold Reading.readLine
  cases hread : tokensOfLine line with
  | error diagnostic =>
      rw [hread] at hline
      generalize tokensOfLine line' = read' at hline ⊢
      cases hline with
      | error hcode => exact h.fail hcode
  | ok tokens =>
      rw [hread] at hline
      cases hread' : tokensOfLine line' with
      | error diagnostic =>
          rw [hread'] at hline
          cases hline
      | ok tokens' =>
          rw [hread'] at hline
          cases hline with
          | ok htokens =>
              cases htokens with
              | nil => exact h
              | cons hfirst hrest =>
                  exact h.readTokens (hplain hread) (hplain hread') (.cons hfirst hrest)

omit h in
theorem Renamed.foldl_readLine {lines lines' : List SourceLine} (h : reading.Renamed r reading')
    (hlines : List.Forall₂ (fun line line' => Agree (List.Forall₂ (Token.Renamed r))
      (tokensOfLine line) (tokensOfLine line')) lines lines') :
    (lines.foldl Reading.readLine reading).Renamed r (lines'.foldl Reading.readLine reading') := by
  induction hlines generalizing reading reading' with
  | nil => exact h
  | cons hline _ ih => exact ih (h.readLine hline)

end Step

end Reading

theorem codes_readListing (source : String) : (readListing source).codes =
    ((sourceLines source).foldl Reading.readLine Reading.start).closeKernel.outcome.codes := rfl

/-- Reading a source with renamed values gives diagnostics with the same codes, and the same kernels
but for the names. -/
theorem readListing_renamed (r : Renaming) (source : String) :
    (readListing (r.source source)).codes = (readListing source).codes ∧
      Option.Rel (List.Forall₂ fun listed listed' => listed.Renamed r listed.kernel listed')
        (readListing source).value (readListing (r.source source)).value := by
  have hread := Reading.renamed_start.foldl_readLine (@Renaming.forall₂_tokensOfLine r source)
  obtain ⟨hclosed, hkernels⟩ := hread.closed
  have hcodes : (readListing (r.source source)).codes = (readListing source).codes := by
    rw [codes_readListing, codes_readListing]
    exact hclosed
  refine ⟨hcodes, ?_⟩
  have hnone := (settled_readListing source).value_eq_none_iff
    (settled_readListing (r.source source)) hcodes
  cases hvalue : (readListing source).value with
  | none =>
      rw [hnone.mpr hvalue]
      exact .none
  | some kernels =>
      cases hvalue' : (readListing (r.source source)).value with
      | none =>
          rw [hnone.mp hvalue'] at hvalue
          cases hvalue
      | some kernels' =>
          rw [value_readListing hvalue, value_readListing hvalue']
          exact .some hkernels

end BufferPromotion
