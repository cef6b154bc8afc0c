import BufferPromotion.Proofs.Listing.Places

/-! # Places that are recorded

A kernel remembers the line that opens it, the lines of its launch configuration and of its buffers,
and the line of every value. A line that is accepted is about one of these, which can be told from
its first tokens, and records its own place for it and nothing else (`Draft.records_readLine`,
`placeAt_readLine`). So once the lines of a source have been read, what is recorded for a part of a
kernel is the place of the last line that was about it (`placeAt_foldl_readLine`).
-/

set_option autoImplicit false

namespace BufferPromotion

/-- A part of a kernel that comes from a line of its own. -/
inductive Kernel.Part where
  /-- The kernel itself, which comes from the line that opens it. -/
  | kernel
  | block
  | filter
  | buffer (id : ValueId)
  /-- A parameter or an operation, also one without a result. -/
  | value (id : ValueId)
  deriving DecidableEq, Repr

namespace ListedKernel

/-- The place that is recorded for a part of a kernel. -/
def placeOf (listed : ListedKernel) : Kernel.Part → Option Span
  | .kernel => some listed.span
  | .block => listed.block.map (·.span)
  | .filter => listed.filter.map (·.span)
  | .buffer id => listed.bufferLines[id]?
  | .value id => listed.spans[id]?

/-- A kernel that is opened has no place but its own. -/
theorem placeOf_opened (name : String) (line : Span) (part : Kernel.Part) :
    (opened name line).placeOf part = if part = .kernel then some line else none := by
  cases part with
  | kernel | block | filter => rfl
  | buffer id | value id => exact Std.ExtTreeMap.getElem?_empty

/-- A place has been recorded for one part of a kernel, and all others are as they were. -/
def Records (listed : ListedKernel) (part : Kernel.Part) (line : Span) (next : ListedKernel) :
    Prop :=
  ∀ other, next.placeOf other = if other = part then some line else listed.placeOf other

/-- A new value has its line, whatever it does to the kernel. -/
theorem records_value (listed : ListedKernel) (kernel : Kernel) (id : ValueId) (line : Span) :
    listed.Records (.value id) line
      { listed with kernel := kernel, spans := listed.spans.insert id line } := by
  intro other
  cases other with
  | value other =>
      simp only [placeOf, Kernel.getElem?_insert_value, Kernel.Part.value.injEq]
  | kernel | block | filter | buffer other => rfl

end ListedKernel

/-! ## A line inside a kernel -/

namespace Draft

/-- The value that the first of some tokens names. -/
def named? (draft : Draft) : List Token → Option ValueId
  | ⟨.value name, _⟩ :: _ => (draft.lookup name).map (·.id)
  | _ => none

/-- The part of a kernel that a line is about, if the line is accepted. Whatever is no directive
about the launch or a buffer makes the next value. -/
def subject? (draft : Draft) (first : Token) (tokens : List Token) : Option Kernel.Part :=
  if first.lexeme = .word "block" then some .block
  else if first.lexeme = .word "filter" then some .filter
  else if first.lexeme = .word "buffer" then (draft.named? tokens).map .buffer
  else some (.value draft.kernel.nextId)

variable {draft next : Draft} {line : Span} {first : Token} {tokens : List Token}

theorem subject?_eq_value (h : ∀ word ∈ ["block", "filter", "buffer"], first.lexeme ≠ .word word) :
    draft.subject? first tokens = some (.value draft.kernel.nextId) := by
  unfold subject?
  rw [if_neg (h "block" (by decide)), if_neg (h "filter" (by decide)),
    if_neg (h "buffer" (by decide))]

/-- An accepted line about the launch or a buffer records its place for that. -/
theorem Sets.records (h : draft.Sets line first tokens next) :
    ∃ part, draft.subject? first tokens = some part ∧
      draft.Records part line next.toListedKernel := by
  unfold subject?
  cases h with
  | block size hfirst hsize =>
      refine ⟨.block, if_pos hfirst, fun other => ?_⟩
      cases other <;> rfl
  | filter size hfirst hsize =>
      refine ⟨.filter, by rw [hfirst]; rfl, fun other => ?_⟩
      cases other <;> rfl
  | buffer id image hfirst hvalue hstart hstride =>
      obtain ⟨value, more, rfl, hid⟩ := hvalue
      refine ⟨.buffer id, ?_, fun other => ?_⟩
      · have hnamed : draft.named? (value.token :: more) = some id := hid
        rw [hfirst, hnamed]
        rfl
      · cases other with
        | buffer other =>
            simp only [declareBuffer, ListedKernel.placeOf, Kernel.getElem?_insert_value,
              Kernel.Part.buffer.injEq]
        | kernel | block | filter | value other => rfl

/-- An accepted line records its place for what it is about, and for nothing else. -/
theorem records_readLine (hfirst : first.lexeme ≠ .word "kernel") {warnings : List Diagnostic}
    (h : readLine line first tokens ⟨draft, []⟩ = .ok () ⟨next, warnings⟩) :
    ∃ part, draft.subject? first tokens = some part ∧
      draft.Records part line next.toListedKernel := by
  rcases adds_or_sets_of_readLine hfirst h with ⟨hother, hadds⟩ | hsets
  · refine ⟨_, subject?_eq_value hother, ?_⟩
    rw [hadds.rest]
    exact draft.records_value next.kernel _ line
  · exact hsets.records

end Draft

/-! ## A line of a source -/

theorem getElem?_concat {α : Type} (items : List α) (item : α) (index : Nat) :
    (items ++ [item])[index]? = if index = items.length then some item else items[index]? := by
  by_cases hindex : index = items.length
  · rw [if_pos hindex, hindex]
    exact List.getElem?_concat_length
  · rw [if_neg hindex, List.getElem?_append]
    split
    · rfl
    · rw [List.getElem?_eq_none (by simp; omega), List.getElem?_eq_none (by omega)]

namespace Reading

/-- The kernels that have been read, the open one last. -/
def listed (reading : Reading) : List ListedKernel :=
  reading.kernels ++ reading.current.toList.map (·.toListedKernel)

/-- The place that is recorded for a part of a kernel, which is given by its number. -/
def placeAt (reading : Reading) (key : Nat × Kernel.Part) : Option Span :=
  reading.listed[key.1]?.bind (·.placeOf key.2)

/-- What a line is about: the part of a kernel, and the number of the kernel. A line without tokens
and one that is refused is about nothing. -/
def subject? (reading : Reading) (line : SourceLine) : Option (Nat × Kernel.Part) :=
  match lineEffect reading.current line, tokensOfLine line with
  | .opened _ _, _ => some (reading.listed.length, .kernel)
  | .accepted _ _, .ok (first :: tokens) =>
      reading.current.bind fun draft =>
        (draft.subject? first tokens).map (Prod.mk reading.kernels.length)
  | _, _ => none

variable {reading : Reading}

theorem subject?_of_keepsKernels {line : SourceLine}
    (h : (lineEffect reading.current line).KeepsKernels) : reading.subject? line = none := by
  unfold subject?
  cases heffect : lineEffect reading.current line with
  | nothing | refused warnings diagnostic => rfl
  | opened name span | accepted warnings draft =>
      rw [heffect] at h
      exact absurd h id

/-- A line that changes a kernel has tokens, and does what they do. -/
theorem exists_tokens_of_lineEffect {current : Option Draft} {line : SourceLine}
    (h : ¬ (lineEffect current line).KeepsKernels) :
    ∃ first tokens, tokensOfLine line = .ok (first :: tokens) ∧
      lineEffect current line = tokensEffect current line.extent first tokens := by
  unfold lineEffect at h ⊢
  cases htokens : tokensOfLine line with
  | error diagnostic =>
      rw [htokens] at h
      exact absurd trivial h
  | ok tokens =>
      rw [htokens] at h
      cases tokens with
      | nil => exact absurd trivial h
      | cons first tokens =>
          refine ⟨first, tokens, rfl, ?_⟩
          show tokensEffect current (lineSpan first tokens) first tokens = _
          rw [(lineSpan_eq_extent htokens).2.2]

/-- A kernel that is opened has the place of its line. -/
theorem eq_extent_of_opened {current : Option Draft} {line : SourceLine} {name : String}
    {span : Span} (h : lineEffect current line = .opened name span) : span = line.extent := by
  obtain ⟨first, tokens, -, heffect⟩ :=
    exists_tokens_of_lineEffect (by rw [h]; exact id : ¬ (lineEffect current line).KeepsKernels)
  rw [h] at heffect
  unfold tokensEffect at heffect
  split at heffect
  · cases hname : readKernelName line.extent tokens with
    | error diagnostic =>
        rw [hname] at heffect
        cases heffect
    | ok word =>
        rw [hname] at heffect
        exact (LineEffect.opened.inj heffect).2
  · cases current with
    | none => cases heffect
    | some draft =>
        unfold Draft.effect at heffect
        dsimp only at heffect
        split at heffect <;> cases heffect

/-- A line that is accepted is read inside the kernel that is open. -/
theorem exists_readLine_of_accepted {current : Option Draft} {line : SourceLine}
    {warnings : List Diagnostic} {next : Draft}
    (h : lineEffect current line = .accepted warnings next) :
    ∃ draft first tokens, current = some draft ∧ tokensOfLine line = .ok (first :: tokens) ∧
      first.lexeme ≠ .word "kernel" ∧
      Draft.readLine line.extent first tokens ⟨draft, []⟩ = .ok () ⟨next, warnings⟩ := by
  obtain ⟨first, tokens, htokens, heffect⟩ :=
    exists_tokens_of_lineEffect (by rw [h]; exact id : ¬ (lineEffect current line).KeepsKernels)
  rw [h] at heffect
  unfold tokensEffect at heffect
  split at heffect
  · cases hname : readKernelName line.extent tokens <;> rw [hname] at heffect <;> cases heffect
  · next hkernel =>
    cases current with
    | none => cases heffect
    | some draft =>
        refine ⟨draft, first, tokens, rfl, htokens, hkernel, ?_⟩
        have haccepted : LineEffect.accepted warnings next =
            draft.effect line.extent first tokens := heffect
        unfold Draft.effect at haccepted
        cases hread : Draft.readLine line.extent first tokens ⟨draft, []⟩ with
        | error diagnostic left =>
            rw [hread] at haccepted
            cases haccepted
        | ok _ found =>
            rw [hread] at haccepted
            obtain ⟨rfl, rfl⟩ := LineEffect.accepted.inj haccepted
            rfl

/-- A line records its place for what it is about, and for nothing else. -/
theorem placeAt_readLine (h : reading.Sound) (line : SourceLine) (key : Nat × Kernel.Part) :
    (reading.readLine line).placeAt key =
      if reading.subject? line = some key then some line.extent else reading.placeAt key := by
  obtain ⟨number, part⟩ := key
  rw [readLine_eq h]
  cases heffect : lineEffect reading.current line with
  | nothing | refused warnings diagnostic =>
      have hkeeps : (lineEffect reading.current line).KeepsKernels := by
        rw [heffect]
        trivial
      rw [subject?_of_keepsKernels hkeeps]
      rfl
  | opened name span =>
      -- there is one more kernel, of which nothing was recorded before
      obtain rfl := eq_extent_of_opened heffect
      have hsubject : reading.subject? line = some (reading.listed.length, .kernel) := by
        unfold subject?
        rw [heffect]
      have hlisted : (LineEffect.apply reading (.opened name line.extent)).listed =
          reading.listed ++ [ListedKernel.opened name line.extent] := rfl
      unfold placeAt
      rw [hlisted, hsubject, getElem?_concat]
      by_cases hnumber : number = reading.listed.length
      · rw [if_pos hnumber, hnumber, List.getElem?_eq_none (Nat.le_refl _), Option.bind_some,
          ListedKernel.placeOf_opened]
        simp [eq_comm]
      · rw [if_neg hnumber, if_neg fun heq => hnumber (Prod.mk.inj (Option.some.inj heq)).1.symm]
  | accepted warnings next =>
      obtain ⟨draft, first, tokens, hcurrent, htokens, hfirst, hread⟩ :=
        exists_readLine_of_accepted heffect
      obtain ⟨subject, hsubject, hplaces⟩ := Draft.records_readLine hfirst hread
      have habout : reading.subject? line = some (reading.kernels.length, subject) := by
        unfold subject?
        rw [heffect, htokens, hcurrent]
        dsimp only [Option.bind_some]
        rw [hsubject]
        rfl
      -- the open kernel, which is the last one, becomes the one that the line makes of it
      have hbefore : reading.listed = reading.kernels ++ [draft.toListedKernel] := by
        unfold listed
        rw [hcurrent]
        rfl
      have hlisted : (LineEffect.apply reading (.accepted warnings next)).listed =
          reading.kernels ++ [next.toListedKernel] := rfl
      unfold placeAt
      rw [hlisted, hbefore, habout, getElem?_concat, getElem?_concat]
      by_cases hnumber : number = reading.kernels.length
      · rw [if_pos hnumber, if_pos hnumber, hnumber, Option.bind_some, Option.bind_some, hplaces]
        simp [eq_comm]
      · rw [if_neg hnumber, if_neg hnumber,
          if_neg fun heq => hnumber (Prod.mk.inj (Option.some.inj heq)).1.symm]

/-! ## The lines of a source -/

/-- The last of some lines that is about a part of a kernel, when they are read one after the
other. -/
def LastAbout (key : Nat × Kernel.Part) (lines : List SourceLine) (line : SourceLine) : Prop :=
  ∃ before after, lines = before ++ line :: after ∧
    (before.foldl readLine start).subject? line = some key ∧
    ∀ between later rest, after = between ++ later :: rest →
      ((before ++ line :: between).foldl readLine start).subject? later ≠ some key

theorem LastAbout.mem {key : Nat × Kernel.Part} {lines : List SourceLine} {line : SourceLine}
    (h : LastAbout key lines line) : line ∈ lines := by
  obtain ⟨before, after, rfl, -⟩ := h
  exact List.mem_append_right _ List.mem_cons_self

/-- A line that is about something has tokens. -/
theorem LastAbout.exists_tokens {key : Nat × Kernel.Part} {lines : List SourceLine}
    {line : SourceLine} (h : LastAbout key lines line) :
    ∃ first tokens, tokensOfLine line = .ok (first :: tokens) := by
  obtain ⟨before, after, -, hsubject, -⟩ := h
  have hchanges : ¬ (lineEffect (before.foldl readLine start).current line).KeepsKernels := by
    intro hkeeps
    rw [subject?_of_keepsKernels hkeeps] at hsubject
    cases hsubject
  obtain ⟨first, tokens, htokens, -⟩ := exists_tokens_of_lineEffect hchanges
  exact ⟨first, tokens, htokens⟩

/-- One more line is the last one, if it is about the same. -/
theorem lastAbout_concat {key : Nat × Kernel.Part} {lines : List SourceLine}
    {next line : SourceLine} :
    LastAbout key (lines ++ [next]) line ↔
      if (lines.foldl readLine start).subject? next = some key then line = next
      else LastAbout key lines line := by
  by_cases habout : (lines.foldl readLine start).subject? next = some key
  · rw [if_pos habout]
    constructor
    · rintro ⟨before, after, hlines, -, hlater⟩
      rcases List.eq_nil_or_concat after with rfl | ⟨between, last, rfl⟩
      · exact (List.singleton_inj.mp (List.append_inj' hlines rfl).2).symm
      · -- the line that was added comes later, and is about the same
        rw [List.concat_eq_append, ← List.cons_append, ← List.append_assoc] at hlines
        obtain ⟨hbefore, hlast⟩ := List.append_inj' hlines rfl
        refine absurd habout ?_
        rw [hbefore, List.singleton_inj.mp hlast]
        exact hlater between last [] List.concat_eq_append
    · rintro rfl
      refine ⟨lines, [], rfl, habout, fun between later rest hnil => ?_⟩
      exact absurd hnil.symm (List.append_ne_nil_of_right_ne_nil _ (List.cons_ne_nil _ _))
  · rw [if_neg habout]
    constructor
    · rintro ⟨before, after, hlines, hsubject, hlater⟩
      rcases List.eq_nil_or_concat after with rfl | ⟨between, last, rfl⟩
      · obtain ⟨rfl, hlast⟩ := List.append_inj' hlines rfl
        rw [List.singleton_inj.mp hlast] at habout
        exact absurd hsubject habout
      · rw [List.concat_eq_append, ← List.cons_append, ← List.append_assoc] at hlines
        obtain ⟨hbefore, -⟩ := List.append_inj' hlines rfl
        refine ⟨before, between, hbefore, hsubject, fun middle later rest hbetween => ?_⟩
        refine hlater middle later (rest ++ [last]) ?_
        rw [List.concat_eq_append, hbetween, List.append_assoc]
        rfl
    · rintro ⟨before, after, rfl, hsubject, hlater⟩
      refine ⟨before, after ++ [next], by simp, hsubject, fun between later rest hafter => ?_⟩
      rcases List.eq_nil_or_concat rest with rfl | ⟨others, last, rfl⟩
      · obtain ⟨rfl, hlast⟩ := List.append_inj' hafter rfl
        rw [← List.singleton_inj.mp hlast]
        exact habout
      · rw [List.concat_eq_append, ← List.cons_append, ← List.append_assoc] at hafter
        exact hlater between later others (List.append_inj' hafter rfl).1

/-- Once some lines have been read, the place of the last line that was about a part of a kernel is
recorded for it. -/
theorem placeAt_foldl_readLine {lines : List SourceLine} {key : Nat × Kernel.Part} {span : Span} :
    (lines.foldl readLine start).placeAt key = some span ↔
      ∃ line, LastAbout key lines line ∧ span = line.extent := by
  induction lines using List.reverseRecOn with
  | nil =>
      constructor
      · intro h
        have hnone : start.placeAt key = none := rfl
        rw [List.foldl_nil, hnone] at h
        cases h
      · rintro ⟨line, ⟨before, after, hnil, -⟩, -⟩
        exact absurd hnil.symm (List.append_ne_nil_of_right_ne_nil _ (List.cons_ne_nil _ _))
  | append_singleton lines next ih =>
      simp only [List.foldl_append, List.foldl_cons, List.foldl_nil, lastAbout_concat,
        placeAt_readLine (sound_foldl_readLine lines)]
      by_cases habout : (lines.foldl readLine start).subject? next = some key
      · simp only [if_pos habout, exists_eq_left, Option.some.injEq]
        exact eq_comm
      · simp only [if_neg habout, ih]

end Reading

/-- The kernels of a listing are those that have been read once its lines are. -/
theorem listed_of_readListing {source : String} {kernels : List ListedKernel}
    (h : (readListing source).value = some kernels) :
    ((sourceLines source).foldl Reading.readLine Reading.start).listed = kernels := by
  rw [value_readListing h,
    Reading.closeKernel_eq_of_sound (Reading.sound_foldl_readLine (sourceLines source))]
  rfl

/-- What is recorded in a kernel of a listing is the place of the last line about it. -/
theorem placeOf_eq_some_iff {source : String} {kernels : List ListedKernel}
    (h : (readListing source).value = some kernels) {number : Nat} {listed : ListedKernel}
    (hlisted : kernels[number]? = some listed) {part : Kernel.Part} {span : Span} :
    listed.placeOf part = some span ↔
      ∃ line, Reading.LastAbout (number, part) (sourceLines source) line ∧ span = line.extent := by
  rw [← Reading.placeAt_foldl_readLine]
  unfold Reading.placeAt
  rw [listed_of_readListing h, hlisted]
  rfl

end BufferPromotion
