import BufferPromotion.Listing.Reader
import BufferPromotion.Proofs.Diagnostic.Outcome
import BufferPromotion.Proofs.Kernel.Validity
import BufferPromotion.Proofs.Listing.Soundness

/-! # Readings of arbitrary sources

Whatever the source is, the open draft is sound at every moment, the kernels that are closed can
be listed, and if one of them has a parameter of unknown type then there is a warning about it. A
sound draft passes the check that closes it, so a kernel that was opened is never lost.
-/

set_option autoImplicit false

namespace BufferPromotion

/-! ## The check of a listable kernel -/

theorem Node.Listable.resultFits {node : Node} (h : node.Listable) : node.ResultFits := by
  obtain ⟨kind, type, operands⟩ := node
  have hform := h.form
  cases kind with
  | param => exact absurd hform id
  | other name => exact ⟨nofun, nofun, nofun⟩
  | store =>
      cases type with
      | none => exact ⟨nofun, fun _ => rfl, nofun⟩
      | some type => exact absurd hform id
  | extract field | reinterpret | address | load =>
      cases type with
      | none => exact absurd hform id
      | some type => exact ⟨nofun, nofun, fun _ => nofun⟩

theorem Kernel.Listable.check_eq_ok {kernel : Kernel} (h : kernel.Listable) :
    kernel.check = .ok () := by
  rw [check_eq_ok_iff]
  intro before op after hops
  have hop : op ∈ kernel.operations := by
    rw [hops]
    exact List.mem_append_right _ List.mem_cons_self
  have hnew := h.built.not_mem_of_order (order_of_operations hops)
  -- the operands have been shown before, and no id is defined twice
  refine ⟨(h.nodes op hop).count, fun operand hoperand => ⟨?_, ?_⟩, (h.nodes op hop).resultFits,
    fun hdefined => hnew (List.mem_append.mpr hdefined)⟩
  · exact h.built.lt_size_of_mem_order (h.shows_operand hop hoperand).mem_ids
  · exact List.mem_append.mp (h.operands before op after hops operand hoperand).mem_ids

/-! ## Sound readings -/

namespace Reading

/-- The parameters that have been read. -/
def params (reading : Reading) : List Parameter :=
  (reading.kernels.flatMap fun listed => listed.kernel.params) ++
    reading.current.toList.flatMap fun draft => draft.kernel.params

/-- What holds of every reading. -/
structure Sound (reading : Reading) : Prop where
  current : ∀ draft, reading.current = some draft → draft.Sound
  kernels : ∀ listed ∈ reading.kernels, listed.kernel.Named
  /-- Parameters of unknown type come with a warning. -/
  warned : ∀ param ∈ reading.params, param.type = none →
    ∃ warning ∈ reading.outcome.warnings, warning.code = .untypedParam

theorem sound_start : start.Sound := ⟨nofun, nofun, nofun⟩

/-- A sound draft is closed as it is. -/
theorem closeKernel_eq {reading : Reading} {draft : Draft} (hdraft : reading.current = some draft)
    (h : draft.Sound) :
    reading.closeKernel =
      { reading with kernels := reading.kernels ++ [draft.toListedKernel], current := none } := by
  have hfinish : draft.finish = .ok draft.toListedKernel := by
    unfold Draft.finish
    rw [h.named.listable.check_eq_ok]
    rfl
  unfold closeKernel
  rw [hdraft]
  dsimp only
  rw [hfinish]

variable {reading : Reading} (h : reading.Sound)

include h

/-- Whether or not a kernel is open, none is open afterwards. -/
theorem closeKernel_eq_of_sound :
    reading.closeKernel = ⟨reading.outcome,
      reading.kernels ++ reading.current.toList.map (·.toListedKernel), none⟩ := by
  obtain ⟨outcome, kernels, current⟩ := reading
  cases current with
  | none => simp [closeKernel]
  | some draft => exact closeKernel_eq rfl (h.current draft rfl)

theorem Sound.fail (diagnostic : Diagnostic) : (reading.fail diagnostic).Sound := by
  refine ⟨h.current, h.kernels, fun param hparam htype => ?_⟩
  unfold Reading.fail
  rw [Outcome.warnings_fail]
  exact h.warned param hparam htype

theorem Sound.closeKernel : reading.closeKernel.Sound := by
  cases hdraft : reading.current with
  | none =>
      unfold Reading.closeKernel
      rw [hdraft]
      exact h
  | some draft =>
      rw [closeKernel_eq hdraft (h.current draft hdraft)]
      -- the parameters of the draft become those of a closed kernel
      have hparams : params { reading with
          kernels := reading.kernels ++ [draft.toListedKernel], current := none } =
            reading.params := by
        unfold params
        rw [hdraft, List.flatMap_append]
        exact List.append_nil _
      refine ⟨nofun, fun listed hlisted => ?_, fun param hparam htype => ?_⟩
      · rcases List.mem_append.mp hlisted with hold | hnew
        · exact h.kernels listed hold
        · rw [List.mem_singleton.mp hnew]
          exact (h.current draft hdraft).named
      · rw [hparams] at hparam
        exact h.warned param hparam htype

variable {line : Span} {first : Token} {tokens : List Token}

omit h in
/-- The name of a kernel is a word. -/
theorem isWord_of_readKernelName (hplain : ∀ token ∈ tokens, token.lexeme.Plain) {name : Word}
    (hname : readKernelName line tokens = .ok name) : IsWord name.text := by
  obtain ⟨⟨word, rest⟩, hword, hname⟩ := bind_eq_ok_iff.mp hname
  obtain ⟨_, -, hname⟩ := bind_eq_ok_iff.mp hname
  cases hname
  rw [expectWord_eq_ok_iff.mp hword] at hplain
  exact hplain _ List.mem_cons_self

theorem Sound.openKernel (hplain : ∀ token ∈ tokens, token.lexeme.Plain) :
    (reading.perform (openKernel line tokens)).Sound := by
  cases hname : readKernelName line tokens with
  | error diagnostic =>
      rw [perform_of_error (openKernel_of_error hname)]
      exact h.fail diagnostic
  | ok name =>
      rw [perform_of_ok (openKernel_of_ok hname)]
      have hclosed := h.closeKernel
      refine ⟨fun draft hdraft => ?_, hclosed.kernels, fun param hparam htype => ?_⟩
      · cases hdraft
        exact Draft.sound_opened (isWord_of_readKernelName hplain hname) line
      · refine hclosed.warned param ?_ htype
        -- the kernel that is opened has no parameters yet
        have hold : param ∈
            reading.closeKernel.kernels.flatMap fun listed => listed.kernel.params := by
          rcases List.mem_append.mp hparam with hold | hnew
          · exact hold
          · exact absurd hnew List.not_mem_nil
        exact List.mem_append_left _ hold

theorem Sound.warn (warnings : List Diagnostic) :
    Sound { reading with outcome := warnings.foldl Outcome.warn reading.outcome } := by
  refine ⟨h.current, h.kernels, fun param hparam htype => ?_⟩
  obtain ⟨warning, hwarning, hcode⟩ := h.warned param hparam htype
  refine ⟨warning, ?_, hcode⟩
  rw [Outcome.warnings_foldl_warn]
  exact List.mem_append_left _ hwarning

/-- An accepted line leaves a sound draft, and warns about a parameter of unknown type. -/
theorem Sound.resume {draft result : Draft} (hdraft : reading.current = some draft)
    (hplain : ∀ token ∈ first :: tokens, token.lexeme.Plain)
    (hfirst : first.lexeme ≠ .word "kernel") {warnings : List Diagnostic}
    (hread : Draft.readLine line first tokens ⟨draft, []⟩ = .ok () ⟨result, warnings⟩) :
    (reading.resume ⟨result, warnings⟩).Sound := by
  have hwarned := h.warn warnings
  refine ⟨fun draft' hdraft' => ?_, h.kernels, fun param hparam htype => ?_⟩
  · cases hdraft'
    exact (h.current draft hdraft).of_readLine hplain hfirst hread
  · -- a parameter of a closed kernel, an old one of the draft, or the one of this line
    rcases List.mem_append.mp hparam with hclosed | hopen
    · exact hwarned.warned param (List.mem_append_left _ hclosed) htype
    · have hparam : param ∈ result.kernel.params := by
        rw [List.mem_flatMap] at hopen
        obtain ⟨draft', hdraft', hparam⟩ := hopen
        rw [List.mem_singleton.mp hdraft'] at hparam
        exact hparam
      rcases Draft.warned_of_readLine hfirst hread hparam htype with hold | hne
      · refine hwarned.warned param (List.mem_append_right _ ?_) htype
        rw [hdraft]
        exact List.mem_flatMap.mpr ⟨draft, List.mem_singleton_self _, hold⟩
      · obtain ⟨warning, hwarning⟩ := List.exists_mem_of_ne_nil _ hne
        have hcode := @Draft.code_of_mem_readLine draft line tokens first warning
        rw [Action.left_of_ok hread] at hcode
        refine ⟨warning, ?_, hcode hwarning⟩
        show warning ∈ (warnings.foldl Outcome.warn reading.outcome).warnings
        rw [Outcome.warnings_foldl_warn]
        exact List.mem_append_right _ hwarning

/-- A line inside a kernel adds warnings, and changes the draft only if it is accepted. -/
theorem Sound.inKernel {draft : Draft} (hdraft : reading.current = some draft)
    (hplain : ∀ token ∈ first :: tokens, token.lexeme.Plain)
    (hfirst : first.lexeme ≠ .word "kernel") (missing : Diagnostic) :
    (reading.perform (inKernel missing (Draft.readLine line first tokens))).Sound := by
  cases hread : Draft.readLine line first tokens ⟨draft, []⟩ with
  | error diagnostic left =>
      have hleft : left.draft = draft := Draft.keepsOnError_readLine _ _ _ hread
      rw [perform_of_error (inKernel_of_error hdraft hread),
        resume_of_unchanged (by rw [hdraft, hleft])]
      exact (h.warn left.warnings).fail diagnostic
  | ok _ next =>
      rw [perform_of_ok (inKernel_of_ok hdraft hread)]
      exact h.resume hdraft hplain hfirst hread

/-- Every line keeps a reading sound, whatever the line is. -/
theorem Sound.readLine (line : SourceLine) : (reading.readLine line).Sound := by
  unfold Reading.readLine
  split
  · exact h.fail _
  · exact h
  · next first tokens htokens =>
    have hplain := plain_of_mem_tokensFrom htokens
    unfold readTokens
    split
    · exact h.openKernel fun token htoken => hplain token (List.mem_cons_of_mem _ htoken)
    · next hfirst =>
      cases hcurrent : reading.current with
      | none =>
          rw [perform_of_error (inKernel_of_none hcurrent)]
          exact h.fail _
      | some draft => exact h.inKernel hcurrent hplain hfirst _

omit h

theorem Sound.foldl_readLine (h : reading.Sound) (lines : List SourceLine) :
    (lines.foldl Reading.readLine reading).Sound :=
  List.foldlRecOn lines Reading.readLine h fun _ h line _ => h.readLine line

theorem sound_foldl_readLine (lines : List SourceLine) : (lines.foldl readLine start).Sound :=
  sound_start.foldl_readLine lines

end Reading

/-! ## Listings -/

section Listing

variable {source : String} {kernels : List ListedKernel}

/-- Every kernel of a listing can be listed again. -/
theorem named_of_readListing (h : (readListing source).value = some kernels) :
    ∀ listed ∈ kernels, listed.kernel.Named := by
  have hclosed := (Reading.sound_foldl_readLine (sourceLines source)).closeKernel
  obtain ⟨_, -, rfl⟩ := Option.map_eq_some_iff.mp h
  exact hclosed.kernels

/-- A parameter of unknown type in a listing comes with a warning. -/
theorem warned_of_readListing (h : (readListing source).value = some kernels)
    {listed : ListedKernel} (hlisted : listed ∈ kernels) {param : Parameter}
    (hparam : param ∈ listed.kernel.params) (htype : param.type = none) :
    ∃ warning ∈ (readListing source).warnings, warning.code = .untypedParam := by
  have hclosed := (Reading.sound_foldl_readLine (sourceLines source)).closeKernel
  obtain ⟨_, -, rfl⟩ := Option.map_eq_some_iff.mp h
  refine hclosed.warned param (List.mem_append_left _ ?_) htype
  exact List.mem_flatMap.mpr ⟨listed, hlisted, hparam⟩

end Listing

end BufferPromotion
