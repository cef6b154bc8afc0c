import BufferPromotion.Proofs.Listing.Copying
import BufferPromotion.Proofs.Listing.Reading
import Mathlib.Data.List.Forall2

/-! # Printed kernels are read back

Kernels that are printed one after the other, with empty lines between them, are read back as
copies, in the same order and without an error. A copy is printed as the kernel itself is, so
printing and reading again changes nothing.
-/

set_option autoImplicit false

namespace BufferPromotion

/-! ## Printed kernels as lines -/

namespace Kernel

/-- The lexemes of the lines of a kernel. -/
def lexemeLines (kernel : Kernel) : List (List Lexeme) :=
  [.word "kernel", .word kernel.name] ::
    (kernel.params.map kernel.paramLexemes ++ kernel.operations.map kernel.operationLexemes)

theorem map_toList_listingLines {kernel : Kernel} (h : kernel.Listable) :
    kernel.listingLines.map String.toList = kernel.lexemeLines.map lineText := by
  have hname : ("kernel " ++ kernel.name).toList =
      lineText [.word "kernel", .word kernel.name] := by
    rw [String.toList_append]
    show _ = "kernel".toList ++ ((' ' :: kernel.name.toList) ++ [])
    rw [List.append_nil]
    rfl
  have hops : kernel.operations.map (fun op => (kernel.operationLine op).toList) =
      kernel.operations.map fun op => lineText (kernel.operationLexemes op) :=
    List.map_congr_left fun op hop => toList_operationLine (h.nodes op hop)
  have hparams : kernel.params.map (fun param => (kernel.paramLine param).toList) =
      kernel.params.map fun param => lineText (kernel.paramLexemes param) :=
    List.map_congr_left fun param _ => toList_paramLine kernel param
  unfold listingLines lexemeLines
  simp only [List.map_append, List.map_cons, List.map_nil, List.map_map]
  rw [hname]
  exact congrArg (_ :: ·) (congrArg₂ (· ++ ·) hparams hops)

theorem toList_listing {kernel : Kernel} (h : kernel.Listable) :
    kernel.listing.toList = (kernel.lexemeLines.map lineText).flatMap (· ++ ['\n']) := by
  unfold listing
  rw [String.toList_join, ← map_toList_listingLines h, List.flatMap_map, List.flatMap_map]
  refine List.flatMap_congr fun line _ => ?_
  rw [String.toList_append]
  rfl

theorem plain_lexemeLines {kernel : Kernel} (h : kernel.Listable) :
    ∀ line ∈ kernel.lexemeLines, line ≠ [] ∧ ∀ lexeme ∈ line, lexeme.Plain := by
  intro line hline
  unfold lexemeLines at hline
  rw [List.mem_cons, List.mem_append] at hline
  rcases hline with rfl | hline | hline
  · refine ⟨List.cons_ne_nil _ _, fun lexeme hlexeme => ?_⟩
    rcases List.mem_cons.mp hlexeme with rfl | hlexeme
    · decide
    · rw [List.mem_singleton.mp hlexeme]
      exact h.name
  · obtain ⟨param, hparam, rfl⟩ := List.mem_map.mp hline
    exact ⟨List.cons_ne_nil _ _, h.plain_paramLexemes hparam⟩
  · obtain ⟨op, hop, rfl⟩ := List.mem_map.mp hline
    obtain ⟨first, rest, hlexemes, -⟩ := kernel.exists_head_operationLexemes (h.nodes op hop)
    refine ⟨?_, h.plain_operationLexemes hop⟩
    rw [hlexemes]
    exact List.cons_ne_nil _ _

end Kernel

/-- The lexemes of the lines of kernels, with an empty line between two of them. -/
def lexemeLines (kernels : List Kernel) : List (List Lexeme) :=
  List.intercalate [[]] (kernels.map Kernel.lexemeLines)

theorem lexemeLines_cons_cons (kernel second : Kernel) (kernels : List Kernel) :
    lexemeLines (kernel :: second :: kernels) =
      kernel.lexemeLines ++ [] :: lexemeLines (second :: kernels) :=
  rfl

theorem lexemeLines_singleton (kernel : Kernel) : lexemeLines [kernel] = kernel.lexemeLines :=
  List.append_nil _

theorem toList_listings {kernels : List Kernel} (h : ∀ kernel ∈ kernels, kernel.Listable) :
    (String.intercalate "\n" (kernels.map Kernel.listing)).toList =
      ((lexemeLines kernels).map lineText).flatMap (· ++ ['\n']) := by
  induction kernels with
  | nil => rfl
  | cons kernel kernels ih =>
      rw [List.forall_mem_cons] at h
      cases kernels with
      | nil =>
          rw [List.map_singleton, String.intercalate_singleton, lexemeLines_singleton]
          exact kernel.toList_listing h.1
      | cons second kernels =>
          have hrest := ih h.2
          rw [List.map_cons, List.map_cons, String.intercalate_cons_cons, ← List.map_cons,
            String.toList_append, String.toList_append, hrest, kernel.toList_listing h.1,
            lexemeLines_cons_cons, List.map_append, List.flatMap_append, List.map_cons,
            List.flatMap_cons, List.append_assoc]
          rfl

theorem plain_of_mem_lexemeLines {kernels : List Kernel} (h : ∀ kernel ∈ kernels, kernel.Listable) :
    ∀ line ∈ lexemeLines kernels, ∀ lexeme ∈ line, lexeme.Plain := by
  intro line hline
  induction kernels with
  | nil => cases hline
  | cons kernel kernels ih =>
      rw [List.forall_mem_cons] at h
      cases kernels with
      | nil =>
          rw [lexemeLines_singleton] at hline
          exact (kernel.plain_lexemeLines h.1 line hline).2
      | cons second kernels =>
          rw [lexemeLines_cons_cons, List.mem_append, List.mem_cons] at hline
          rcases hline with hline | rfl | hline
          · exact (kernel.plain_lexemeLines h.1 line hline).2
          · nofun
          · exact ih h.2 hline

theorem isClean_lineText {lexemes : List Lexeme} (h : ∀ lexeme ∈ lexemes, lexeme.Plain) :
    IsClean (lineText lexemes) := by
  cases lexemes with
  | nil => nofun
  | cons first rest =>
      rw [List.forall_mem_cons] at h
      exact isClean_line h.1 h.2

/-- The lines of printed kernels are those they were printed as. -/
theorem map_text_sourceLines {kernels : List Kernel} (h : ∀ kernel ∈ kernels, kernel.Listable) :
    (sourceLines (String.intercalate "\n" (kernels.map Kernel.listing))).map (·.text) =
      (lexemeLines kernels).map lineText := by
  unfold sourceLines
  rw [toList_listings h]
  refine map_text_linesFrom (fun line hline => ?_) 0
  obtain ⟨lexemes, hlexemes, rfl⟩ := List.mem_map.mp hline
  exact isClean_lineText (plain_of_mem_lexemeLines h lexemes hlexemes)

/-! ## Reading one printed line -/

/-- A kernel that was read as a copy of another one. -/
structure Kernel.ReadAs (kernel : Kernel) (listed : ListedKernel) : Prop where
  named : listed.kernel.Named
  copies : kernel.Copies kernel.params kernel.operations listed.kernel

/-- The only diagnostics are warnings about parameters of unknown type, and there are none unless
there can be such parameters. -/
structure OnlyUntyped (untyped : Prop) (outcome : Outcome Unit) : Prop where
  value : outcome.value = some ()
  entries : ∀ entry ∈ outcome.diagnostics,
    entry.1 = .warning ∧ entry.2.code = .untypedParam ∧ untyped

theorem OnlyUntyped.warn {untyped : Prop} {outcome : Outcome Unit} (h : OnlyUntyped untyped outcome)
    {warnings : List Diagnostic}
    (hwarnings : ∀ warning ∈ warnings, warning.code = .untypedParam ∧ untyped) :
    OnlyUntyped untyped (warnings.foldl Outcome.warn outcome) := by
  rw [Outcome.foldl_warn]
  refine ⟨h.value, fun entry hentry => ?_⟩
  rcases List.mem_append.mp hentry with hold | hnew
  · exact h.entries entry hold
  · obtain ⟨warning, hwarning, rfl⟩ := List.mem_map.mp hnew
    exact ⟨rfl, hwarnings warning hwarning⟩

namespace Reading

variable {reading : Reading} {line : SourceLine} {untyped : Prop} {done : List Kernel}
  {kernel : Kernel}

/-- Some kernels have been read as copies, and the open kernel copies a part of another one. -/
structure Copying (untyped : Prop) (done : List Kernel) (kernel : Kernel) (params : List Parameter)
    (ops : List Operation) (reading : Reading) : Prop where
  current : ∃ draft, reading.current = some draft ∧ draft.Copies kernel params ops
  kernels : List.Forall₂ Kernel.ReadAs done reading.kernels
  outcome : OnlyUntyped untyped reading.outcome

/-- Some kernels have been read as copies once the open kernel is closed. -/
structure Copied (untyped : Prop) (done : List Kernel) (reading : Reading) : Prop where
  kernels : List.Forall₂ Kernel.ReadAs done reading.closeKernel.kernels
  outcome : OnlyUntyped untyped reading.closeKernel.outcome

theorem readLine_blank (htext : line.text = lineText []) : reading.readLine line = reading := by
  unfold readLine tokensOfLine
  rw [htext]
  rfl

/-- The tokens of a printed line are its lexemes. -/
theorem exists_readTokens {lexemes : List Lexeme} (hne : lexemes ≠ [])
    (hplain : ∀ lexeme ∈ lexemes, lexeme.Plain) (htext : line.text = lineText lexemes) :
    ∃ first tokens, (first :: tokens).map (·.lexeme) = lexemes ∧
      reading.readLine line =
        reading.perform (readTokens (lineSpan first tokens) first tokens) := by
  cases lexemes with
  | nil => exact absurd rfl hne
  | cons first rest =>
      have hclean := isClean_lineText hplain
      rw [List.forall_mem_cons] at hplain
      obtain ⟨span, tokens, htokens, hlexemes⟩ :=
        exists_tokens_of_line hplain.1 hplain.2 line.offset
      refine ⟨⟨first, span⟩, tokens, by rw [List.map_cons, hlexemes], ?_⟩
      have hline : tokensOfLine line = .ok (⟨first, span⟩ :: tokens) := by
        unfold tokensOfLine
        rw [htext, dropComment_of_clean hclean]
        exact htokens
      unfold readLine
      rw [hline]

/-- The line that opens a kernel closes the kernel before it. -/
theorem Copied.next_kernel (h : reading.Copied untyped done) (hkernel : kernel.Listable)
    (htext : line.text = lineText [.word "kernel", .word kernel.name]) :
    (reading.readLine line).Copying untyped done kernel [] [] := by
  have hplain : ∀ lexeme ∈ [Lexeme.word "kernel", .word kernel.name], lexeme.Plain :=
    (kernel.plain_lexemeLines hkernel _ List.mem_cons_self).2
  -- the line has the two tokens that open a kernel
  obtain ⟨first, tokens, hlexemes, hread⟩ :=
    @exists_readTokens reading line _ (List.cons_ne_nil _ _) hplain htext
  obtain ⟨(hfirst : first.lexeme = _), htokens⟩ := List.cons.inj hlexemes
  obtain ⟨⟨name, span⟩, rfl, hname⟩ := List.map_eq_singleton_iff.mp htokens
  cases hname
  have hopen : reading.readLine line = { reading.closeKernel with
      current :=
        some (Draft.opened kernel.name (lineSpan first [⟨.word kernel.name, span⟩])) } := by
    have hname : readKernelName (lineSpan first [⟨.word kernel.name, span⟩])
        [⟨.word kernel.name, span⟩] = .ok ⟨kernel.name, span⟩ := rfl
    unfold readTokens at hread
    rw [if_pos hfirst] at hread
    exact hread.trans (perform_of_ok (openKernel_of_ok hname))
  rw [hopen]
  exact ⟨⟨_, rfl, Draft.sound_opened hkernel.name _, kernel.copies_empty⟩, h.kernels, h.outcome⟩

/-- A line that the draft accepts as the next part of the kernel. -/
theorem Copying.accepts {params params' : List Parameter} {ops ops' : List Operation}
    (h : reading.Copying untyped done kernel params ops) {first : Token} {tokens : List Token}
    (hread : reading.readLine line =
      reading.perform (readTokens (lineSpan first tokens) first tokens))
    (hfirst : first.lexeme ≠ .word "kernel")
    (hnext : ∀ draft : Draft, draft.Copies kernel params ops → ∃ warnings copied,
      Draft.readLine (lineSpan first tokens) first tokens ⟨draft, []⟩ =
          .ok () ⟨copied, warnings⟩ ∧
        copied.Copies kernel params' ops' ∧ (warnings ≠ [] → untyped)) :
    (reading.readLine line).Copying untyped done kernel params' ops' := by
  obtain ⟨draft, hdraft, hcopies⟩ := h.current
  obtain ⟨warnings, copied, hline, hcopied, hwarned⟩ := hnext draft hcopies
  have haccept : reading.readLine line = { reading with
      outcome := warnings.foldl Outcome.warn reading.outcome, current := some copied } := by
    unfold readTokens at hread
    rw [if_neg hfirst, perform_of_ok (inKernel_of_ok hdraft hline)] at hread
    exact hread
  rw [haccept]
  refine ⟨⟨copied, rfl, hcopied⟩, h.kernels, h.outcome.warn fun warning hwarning => ⟨?_, ?_⟩⟩
  · refine @Draft.code_of_mem_readLine draft (lineSpan first tokens) tokens first warning ?_
    rw [Action.left_of_ok hline]
    exact hwarning
  · exact hwarned (List.ne_nil_of_mem hwarning)

theorem Copying.next_param {params rest : List Parameter} {param : Parameter}
    (h : reading.Copying untyped done kernel params []) (hkernel : kernel.Listable)
    (hparams : kernel.params = params ++ param :: rest) (huntyped : param.type = none → untyped)
    (htext : line.text = lineText (kernel.paramLexemes param)) :
    (reading.readLine line).Copying untyped done kernel (params ++ [param]) [] := by
  have hparam : param ∈ kernel.params := by
    rw [hparams]
    exact List.mem_append_right _ List.mem_cons_self
  obtain ⟨first, tokens, hlexemes, hread⟩ := @exists_readTokens reading line _
    (List.cons_ne_nil _ _) (hkernel.plain_paramLexemes hparam) htext
  have hfirst : first.lexeme = .word "param" := (List.cons.inj hlexemes).1
  refine h.accepts hread (by rw [hfirst]; decide) fun draft hcopies => ?_
  obtain ⟨warnings, copied, hline, hcopied, hwarned⟩ :=
    hcopies.next_param hkernel hparams hlexemes
  exact ⟨warnings, copied, hline, hcopied, fun hne => huntyped (hwarned hne)⟩

theorem Copying.next_operation {ops rest : List Operation} {op : Operation}
    (h : reading.Copying untyped done kernel kernel.params ops) (hkernel : kernel.Listable)
    (hops : kernel.operations = ops ++ op :: rest)
    (htext : line.text = lineText (kernel.operationLexemes op)) :
    (reading.readLine line).Copying untyped done kernel kernel.params (ops ++ [op]) := by
  have hop : op ∈ kernel.operations := by
    rw [hops]
    exact List.mem_append_right _ List.mem_cons_self
  obtain ⟨head, others, hhead, hfirst⟩ := kernel.exists_head_operationLexemes (hkernel.nodes op hop)
  obtain ⟨first, tokens, hlexemes, hread⟩ := @exists_readTokens reading line _
    (by rw [hhead]; exact List.cons_ne_nil _ _) (hkernel.plain_operationLexemes hop) htext
  have hlexeme : first.lexeme = head := (List.cons.inj (hlexemes.trans hhead)).1
  refine h.accepts hread (by rw [hlexeme]; exact hfirst) fun draft hcopies => ?_
  obtain ⟨copied, hline, hcopied⟩ := hcopies.next_operation hkernel hops hlexemes
  exact ⟨[], copied, hline, hcopied, fun hne => absurd rfl hne⟩

/-- The kernel whose last line has been read is closed as a copy. -/
theorem Copying.closed (h : reading.Copying untyped done kernel kernel.params kernel.operations) :
    reading.Copied untyped (done ++ [kernel]) := by
  obtain ⟨draft, hdraft, hcopies⟩ := h.current
  constructor
  · rw [closeKernel_eq hdraft hcopies.sound]
    exact List.rel_append h.kernels (.cons ⟨hcopies.sound.named, hcopies.copies⟩ .nil)
  · rw [closeKernel_eq hdraft hcopies.sound]
    exact h.outcome

/-! ## Reading all lines -/

variable {lines : List SourceLine}

theorem Copying.run_params {params rest : List Parameter}
    (h : reading.Copying untyped done kernel params []) (hkernel : kernel.Listable)
    (hparams : kernel.params = params ++ rest)
    (huntyped : ∀ param ∈ kernel.params, param.type = none → untyped)
    (htexts : lines.map (·.text) = rest.map fun param => lineText (kernel.paramLexemes param)) :
    (lines.foldl readLine reading).Copying untyped done kernel kernel.params [] := by
  induction rest generalizing reading params lines with
  | nil =>
      rw [List.map_eq_nil_iff.mp htexts, hparams, List.append_nil]
      exact h
  | cons param rest ih =>
      obtain ⟨line, others, rfl, htext, hothers⟩ := List.map_eq_cons_iff.mp htexts
      have hparam : param ∈ kernel.params := by
        rw [hparams]
        exact List.mem_append_right _ List.mem_cons_self
      have hstep := h.next_param hkernel hparams (huntyped param hparam) htext
      rw [List.foldl_cons]
      exact ih hstep (by rw [hparams, List.append_cons]) hothers

theorem Copying.run_operations {ops rest : List Operation}
    (h : reading.Copying untyped done kernel kernel.params ops) (hkernel : kernel.Listable)
    (hops : kernel.operations = ops ++ rest)
    (htexts : lines.map (·.text) = rest.map fun op => lineText (kernel.operationLexemes op)) :
    (lines.foldl readLine reading).Copying untyped done kernel kernel.params kernel.operations := by
  induction rest generalizing reading ops lines with
  | nil =>
      rw [List.map_eq_nil_iff.mp htexts, hops, List.append_nil]
      exact h
  | cons op rest ih =>
      obtain ⟨line, others, rfl, htext, hothers⟩ := List.map_eq_cons_iff.mp htexts
      rw [List.foldl_cons]
      exact ih (h.next_operation hkernel hops htext) (by rw [hops, List.append_cons]) hothers

theorem Copied.run_kernel (h : reading.Copied untyped done) (hkernel : kernel.Listable)
    (huntyped : ∀ param ∈ kernel.params, param.type = none → untyped)
    (htexts : lines.map (·.text) = kernel.lexemeLines.map lineText) :
    (lines.foldl readLine reading).Copied untyped (done ++ [kernel]) := by
  unfold Kernel.lexemeLines at htexts
  rw [List.map_cons, List.map_append, List.map_map, List.map_map] at htexts
  obtain ⟨line, others, rfl, htext, hothers⟩ := List.map_eq_cons_iff.mp htexts
  obtain ⟨params, ops, rfl, hparams, hops⟩ := List.map_eq_append_iff.mp hothers
  rw [List.foldl_cons, List.foldl_append]
  -- first the line of the name, then those of the parameters, then those of the operations
  have hopened := h.next_kernel hkernel htext
  have hread := hopened.run_params hkernel (List.nil_append _).symm huntyped hparams
  exact (hread.run_operations hkernel (List.nil_append _).symm hops).closed

theorem Copied.run_kernels {kernels : List Kernel} (h : reading.Copied untyped done)
    (hkernels : ∀ kernel ∈ kernels, kernel.Listable)
    (huntyped : ∀ kernel ∈ kernels, ∀ param ∈ kernel.params, param.type = none → untyped)
    (htexts : lines.map (·.text) = (lexemeLines kernels).map lineText) :
    (lines.foldl readLine reading).Copied untyped (done ++ kernels) := by
  induction kernels generalizing reading done lines with
  | nil =>
      rw [List.map_eq_nil_iff.mp htexts, List.append_nil]
      exact h
  | cons kernel kernels ih =>
      rw [List.forall_mem_cons] at hkernels huntyped
      cases kernels with
      | nil =>
          rw [lexemeLines_singleton] at htexts
          exact h.run_kernel hkernels.1 huntyped.1 htexts
      | cons second kernels =>
          -- the empty line between two kernels is read over
          rw [lexemeLines_cons_cons, List.map_append, List.map_cons] at htexts
          obtain ⟨first, others, rfl, hfirst, hothers⟩ := List.map_eq_append_iff.mp htexts
          obtain ⟨blank, others, rfl, hblank, hothers⟩ := List.map_eq_cons_iff.mp hothers
          rw [List.foldl_append, List.foldl_cons, readLine_blank hblank, List.append_cons]
          exact ih (h.run_kernel hkernels.1 huntyped.1 hfirst) hkernels.2 huntyped.2 hothers

theorem copied_start (untyped : Prop) : start.Copied untyped [] := ⟨.nil, rfl, nofun⟩

end Reading

/-- Printed kernels are read back as copies, and the only diagnostics are warnings about their
parameters of unknown type. -/
theorem exists_copies {kernels : List Kernel} (h : ∀ kernel ∈ kernels, kernel.Listable) :
    ∃ copies,
      (readListing (String.intercalate "\n" (kernels.map Kernel.listing))).value = some copies ∧
        List.Forall₂ Kernel.ReadAs kernels copies ∧
        ∀ warning ∈ (readListing (String.intercalate "\n" (kernels.map Kernel.listing))).warnings,
          warning.code = .untypedParam ∧
            ∃ kernel ∈ kernels, ∃ param ∈ kernel.params, param.type = none := by
  -- the whole run, from an empty reading to the last line
  have hcopied := (Reading.copied_start (∃ kernel ∈ kernels, ∃ param ∈ kernel.params,
    param.type = none)).run_kernels h
      (fun kernel hkernel param hparam htype => ⟨kernel, hkernel, param, hparam, htype⟩)
      (map_text_sourceLines h)
  refine ⟨_, ?_, hcopied.kernels, fun warning hwarning => ?_⟩
  · exact Option.map_eq_some_iff.mpr ⟨(), hcopied.outcome.value, rfl⟩
  · obtain ⟨entry, hentry, rfl⟩ := List.mem_map.mp hwarning
    exact (hcopied.outcome.entries entry (List.mem_filter.mp hentry).1).2

/-! ## Copies are printed alike -/

/-- The copy of a value has been given the word of the value. -/
theorem Kernel.Copies.shownName_rank {kernel copy : Kernel}
    (h : kernel.Copies kernel.params kernel.operations copy) {id : ValueId}
    (hid : kernel.Shows id) : copy.shownName (kernel.rank id) = kernel.shownName id := by
  rw [shownName_eq, shownName_eq]
  unfold wordOf
  rw [h.names id hid]
  rfl

theorem Kernel.Copies.listing_eq {kernel copy : Kernel}
    (h : kernel.Copies kernel.params kernel.operations copy) (hkernel : kernel.Listable) :
    copy.listing = kernel.listing := by
  -- all that is printed of a value is its word
  have hshown : ∀ id, kernel.Shows id → copy.shownName (kernel.rank id) = kernel.shownName id :=
    fun id hid => h.shownName_rank hid
  have hparams : copy.params.map copy.paramLine = kernel.params.map kernel.paramLine := by
    rw [h.params, List.map_map]
    refine List.map_congr_left fun param hparam => ?_
    have hid := hshown param.id (Or.inl (List.mem_map_of_mem hparam))
    show copy.paramLine (kernel.copiedParam param) = kernel.paramLine param
    unfold paramLine copiedParam
    rw [hid]
  have hops : copy.operations.map copy.operationLine =
      kernel.operations.map kernel.operationLine := by
    rw [h.operations, List.map_map]
    refine List.map_congr_left fun op hop => ?_
    have hoperands : (op.renumber kernel.rank).operands.map copy.shownName =
        op.operands.map kernel.shownName := by
      show (op.operands.map kernel.rank).map copy.shownName = _
      rw [List.map_map]
      exact List.map_congr_left fun id hid => hshown id (hkernel.shows_operand hop hid)
    have hresult : copy.resultText (op.renumber kernel.rank) = kernel.resultText op := by
      show (if op.type.isSome then copy.shownName (kernel.rank op.id) ++ " = " else "") =
        if op.type.isSome then kernel.shownName op.id ++ " = " else ""
      by_cases htype : op.type.isSome = true
      · rw [if_pos htype, if_pos htype, hshown op.id (Or.inr ⟨op, hop, rfl, htype⟩)]
      · rw [if_neg htype, if_neg htype]
    have hjoined : copy.operandsText (op.renumber kernel.rank) = kernel.operandsText op := by
      unfold operandsText
      rw [hoperands]
      show (if (op.operands.map kernel.rank).isEmpty then "" else _) = _
      rw [List.isEmpty_map]
    show copy.operationLine (op.renumber kernel.rank) = kernel.operationLine op
    unfold operationLine
    rw [hresult, hjoined]
    rfl
  unfold listing listingLines
  rw [h.name, hparams, hops]

end BufferPromotion
