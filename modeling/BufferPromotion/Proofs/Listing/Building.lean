import BufferPromotion.Proofs.Kernel.Growth
import BufferPromotion.Proofs.Listing.Tables

/-! # Kernels that are built while a listing is read

Every accepted line takes some steps of building the kernel that is open, and a kernel that is
closed takes no more (`Reading.exists_listed_after`). So what a line finds out about a value of the
open kernel, such as the image in a buffer that it declares, still holds of the kernel that the
listing gives in the end. Together with what holds of all steps of building, this is the main
statement (`building_keeps_identity`).
-/

set_option autoImplicit false

namespace BufferPromotion

/-! ## Lines are steps -/

/-- Whatever an accepted line does to the kernel is done by steps of building. -/
theorem Draft.exists_steps_of_readLine {draft next : Draft} {line : Span} {first : Token}
    {tokens : List Token} {warnings : List Diagnostic} (hfirst : first.lexeme ≠ .word "kernel")
    (h : readLine line first tokens ⟨draft, []⟩ = .ok () ⟨next, warnings⟩) :
    ∃ steps, next.kernel = draft.kernel.after steps := by
  rcases readLine_cases hfirst h with ⟨-, h⟩ | ⟨-, name, -, h⟩ | ⟨-, -, h⟩ | ⟨-, text, -, -, h⟩ |
    ⟨-, hsets⟩
  · obtain ⟨phrase, -, -, -, rfl⟩ := readParam_eq_ok_iff.mp h
    exact ⟨[.parameter phrase.name.name phrase.type phrase.isFilter,
      .name draft.kernel.nextId phrase.name.name], rfl⟩
  · obtain ⟨-, -, _, _, _, _, _, _, kind, _, type, ids, -, -, -, -, -, -, -, rfl⟩ :=
      readDefinition_eq_ok_iff.mp h
    exact ⟨[.operation ⟨kind, some type, ids⟩, .name draft.kernel.nextId name], rfl⟩
  · obtain ⟨_, ids, -, -, -, rfl⟩ := readStore_eq_ok_iff.mp h
    exact ⟨[.operation ⟨.store, none, ids⟩], rfl⟩
  · obtain ⟨_, ids, -, -, rfl⟩ := readCall_eq_ok_iff.mp h
    exact ⟨[.operation ⟨.other text, none, ids⟩], rfl⟩
  · exact ⟨[], hsets.unchanged.1⟩

namespace Reading

/-- A line keeps every kernel, up to steps of building. -/
theorem exists_listed_readLine {reading : Reading} (h : reading.Sound) (line : SourceLine)
    {number : Nat} {listed : ListedKernel} (hlisted : reading.listed[number]? = some listed) :
    ∃ later steps, (reading.readLine line).listed[number]? = some later ∧
      later.kernel = listed.kernel.after steps := by
  rw [readLine_eq h]
  cases heffect : lineEffect reading.current line with
  | nothing | refused warnings diagnostic => exact ⟨listed, [], hlisted, rfl⟩
  | opened name span =>
      refine ⟨listed, [], ?_, rfl⟩
      show (reading.listed ++ [_])[number]? = _
      rw [List.getElem?_append_left (List.getElem?_eq_some_iff.mp hlisted).1]
      exact hlisted
  | accepted warnings next =>
      obtain ⟨draft, first, tokens, hcurrent, -, hfirst, hread⟩ :=
        exists_readLine_of_accepted heffect
      obtain ⟨steps, hsteps⟩ := Draft.exists_steps_of_readLine hfirst hread
      have hbefore : reading.listed = reading.kernels ++ [draft.toListedKernel] := by
        unfold Reading.listed
        rw [hcurrent]
        rfl
      have hafter : (LineEffect.apply reading (.accepted warnings next)).listed =
          reading.kernels ++ [next.toListedKernel] := rfl
      rw [hbefore, getElem?_concat] at hlisted
      rw [hafter, getElem?_concat]
      -- the line is about the kernel that is open, which is the last one
      split at hlisted
      · next hlast =>
        cases hlisted
        rw [if_pos hlast]
        exact ⟨_, steps, rfl, hsteps⟩
      · next hlast =>
        rw [if_neg hlast]
        exact ⟨listed, [], hlisted, rfl⟩

/-- Lines keep every kernel, up to steps of building. -/
theorem exists_listed_after {reading : Reading} (h : reading.Sound) (lines : List SourceLine)
    {number : Nat} {listed : ListedKernel} (hlisted : reading.listed[number]? = some listed) :
    ∃ later steps, (lines.foldl readLine reading).listed[number]? = some later ∧
      later.kernel = listed.kernel.after steps := by
  induction lines generalizing reading listed with
  | nil => exact ⟨listed, [], hlisted, rfl⟩
  | cons line lines ih =>
      obtain ⟨next, steps, hnext, hkernel⟩ := exists_listed_readLine h line hlisted
      obtain ⟨later, more, hlater, hkernel'⟩ := ih (h.readLine line) hnext
      refine ⟨later, steps ++ more, hlater, ?_⟩
      rw [Kernel.after_append, ← hkernel, hkernel']

end Reading

/-! ## Names of a draft -/

/-- In the kernel of a draft every base exists, so every value that a name stands for has a way
back that exists. -/
theorem Draft.Sound.wayExists {draft : Draft} (h : draft.Sound) {name : String}
    {definition : Definition} (hlookup : draft.lookup name = some definition) :
    draft.kernel.WayExists definition.id := by
  have hbuilt := h.named.listable.built
  have hshown : draft.kernel.Shows definition.id := by
    rw [← h.named.shown, (h.lookup name definition.id).mp (by rw [hlookup]; rfl)]
    rfl
  refine Kernel.wayExists_of_bases ?_ (hbuilt.lt_size_of_mem_order hshown.mem_ids)
  intro id _ base hbase
  obtain ⟨op, hop, hfollow⟩ := Option.bind_eq_some_iff.mp hbase
  have hoperand := h.named.shows_operand hop (Node.mem_operands_of_base hfollow)
  exact hbuilt.lt_size_of_mem_order hoperand.mem_ids

/-- **Building keeps the identity of values.** Whatever steps build a kernel, a created value has
the number of the values before it as its id. The ids of parameters and those of the schedule are
increasing, and together they are all ids. Further steps change no node, no descriptor of a
parameter and no position of the schedule. For a value whose way back along the bases exists, the
walks to its parameter, to its buffer and along its fields end as before and with the same answer,
which is that of the chain, and the image in its buffer is the same. A listing is read by such
steps, so what a line says about the buffer that it names holds of the kernel when all lines have
been read. Nothing that is built is scheduled twice. -/
theorem building_keeps_identity (name : String) (before after : List BuildStep) :
    let kernel := (Kernel.empty name).after before
    let later := kernel.after after
    (∀ front step back node, before = front ++ step :: back → step.created? = some node →
      let id := (BuildStep.created front).length
      kernel.operation? id = some ⟨node, id⟩ ∧
        (∀ name type isFilter, step = .parameter name type isFilter →
          ⟨id, name, type, isFilter⟩ ∈ kernel.params) ∧
        (step = .operation node → id ∈ kernel.schedule)) ∧
    kernel.size = (BuildStep.created before).length ∧ kernel.Numbered ∧
    kernel.Extends later ∧
    (∀ id, kernel.WayExists id → kernel.AnswersAlike later id) ∧
    (∀ id limit,
      (∀ param, (Walk.toParam kernel).run kernel limit id = some param →
        kernel.rootParam id = param) ∧
      (∀ start, Walk.toBuffer.run kernel limit id = some start → kernel.bufferStart id = start) ∧
      ∀ path, (Walk.alongFields kernel).run kernel limit id = some path →
        kernel.memberPath id = path) ∧
    (∀ (lines more : List SourceLine) (draft : Draft),
      let reading := lines.foldl Reading.readLine Reading.start
      reading.current = some draft → ∃ (listed : ListedKernel) (steps : List BuildStep),
        (more.foldl Reading.readLine reading).listed[reading.kernels.length]? = some listed ∧
        (∀ source kernels, sourceLines source = lines ++ more →
          (readListing source).value = some kernels →
          kernels[reading.kernels.length]? = some listed) ∧
        listed.kernel = draft.kernel.after steps ∧
        ∀ name definition, draft.lookup name = some definition →
          draft.kernel.AnswersAlike listed.kernel definition.id) ∧
    ∀ id, kernel.check ≠ .error (.scheduledAgain id) := by
  intro kernel later
  have hbuilt : kernel.Built := (Kernel.Built.empty name).after before
  have hextends : kernel.Extends later := kernel.extends_after after
  refine ⟨?_, Kernel.nextId_after_empty name before, hbuilt.numbered, hextends,
    fun id hway => hextends.answersAlike hway, fun id limit => ⟨?_, ?_, ?_⟩, ?_,
    hbuilt.check_ne_scheduledAgain⟩
  · rintro front step back node hbefore hnode
    subst hbefore
    exact Kernel.operation?_after hnode
  · intro param hrun
    rw [Kernel.rootParam_eq_along]
    exact Kernel.along_chain_of_run hrun
  · intro start hrun
    rw [Kernel.bufferStart_eq_along]
    exact Kernel.along_chain_of_run hrun
  · intro path hrun
    rw [Kernel.memberPath_eq_along]
    exact Kernel.along_chain_of_run hrun
  · intro lines more draft reading hcurrent
    have hsound : reading.Sound := Reading.sound_foldl_readLine lines
    have hopen : reading.listed[reading.kernels.length]? = some draft.toListedKernel := by
      unfold Reading.listed
      rw [hcurrent]
      exact List.getElem?_concat_length
    obtain ⟨listed, steps, hlisted, hkernel⟩ := Reading.exists_listed_after hsound more hopen
    refine ⟨listed, steps, hlisted, fun source kernels hlines hvalue => ?_, hkernel,
      fun name definition hlookup => ?_⟩
    · rw [← listed_of_readListing hvalue, hlines, List.foldl_append]
      exact hlisted
    · rw [hkernel]
      exact (draft.kernel.extends_after steps).answersAlike
        ((hsound.current draft hcurrent).wayExists hlookup)

/-- The struct of the extraction is declared after it, and a name is given to an id that no value
has. The listing has two more lines after the one that defines the buffer. -/
theorem late_parameter_keeps_buffer :
    let kernel := (Kernel.empty "k").after [.operation (.extractOf 1 "data" .pointer),
      .parameter "img" (some (.struct "Image")) false, .name 9 "x"]
    let later := kernel.after [.operation (.reinterpretOf 0), .operation (.loadOf 2)]
    let source := "kernel k\nparam %img : struct S\n%d = extract %img, data : ptr\n" ++
      "param %x : scalar\nstore %d, %x\n"
    let reading := ((sourceLines source).take 3).foldl Reading.readLine Reading.start
    kernel.operation? 1 = some ⟨⟨.param, some (.struct "Image"), []⟩, 1⟩ ∧
      kernel.WayExists 0 ∧ later.memberPath 0 = kernel.memberPath 0 ∧
      kernel.memberPath 0 = some ["img", "data"] ∧
      ∃ draft listed definition, reading.current = some draft ∧
        (readListing source).value = some [listed] ∧ draft.lookup "d" = some definition ∧
        draft.kernel.size < listed.kernel.size ∧
        ImageBuffer.ofValue listed.kernel definition.id =
          ImageBuffer.ofValue draft.kernel definition.id := by
  intro kernel later source reading
  obtain ⟨hcreated, -, -, -, halike, -, hlines, -⟩ := building_keeps_identity "k"
    [.operation (.extractOf 1 "data" .pointer), .parameter "img" (some (.struct "Image")) false,
      .name 9 "x"] [.operation (.reinterpretOf 0), .operation (.loadOf 2)]
  have hway : kernel.WayExists 0 := Kernel.wayExists_of_bases (by decide +kernel) (by decide)
  have hdraft : (reading.current.map fun draft => (draft.kernel.size, (draft.lookup "d").isSome)) =
      some (2, true) := by decide +kernel
  have hvalue : ((readListing source).value.map fun kernels => kernels.map (·.kernel.size)) =
      some [4] := by decide +kernel
  obtain ⟨draft, hcurrent, hparts⟩ := Option.map_eq_some_iff.mp hdraft
  obtain ⟨hsize, hlookup⟩ := Prod.mk.inj hparts
  obtain ⟨definition, hlookup⟩ := Option.isSome_iff_exists.mp hlookup
  obtain ⟨kernels, hkernels, hsizes⟩ := Option.map_eq_some_iff.mp hvalue
  obtain ⟨listed, rfl, hlater⟩ := List.map_eq_singleton_iff.mp hsizes
  obtain ⟨found, -, -, hfound, -, hsame⟩ :=
    hlines ((sourceLines source).take 3) ((sourceLines source).drop 3) draft hcurrent
  have hclosed : reading.kernels.length = 0 := by decide +kernel
  have hlast := hfound source [listed] (List.take_append_drop ..).symm hkernels
  rw [hclosed] at hlast
  cases hlast
  refine ⟨(hcreated [_] _ [_] _ rfl rfl).1, hway, (halike 0 hway).memberPath, by decide +kernel,
    draft, listed, definition, hcurrent, hkernels, hlookup, ?_,
    (hsame "d" definition hlookup).ofValue⟩
  rw [hsize, hlater]
  decide

end BufferPromotion
