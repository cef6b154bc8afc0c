import BufferPromotion.Proofs.Alias.Feed
import BufferPromotion.Proofs.Alias.Origins

/-! # Sets that are told things in any order

A set may be told about operations before their bases, about parameters after the values that come
from them, and about either more than once. What it holds is coherent all the same. A tracked
pointer points into a buffer whose start is a tracked pointer in the same place, whatever the set
was told (`startsKnown_foldl_learn`). If it was told about one kernel, which need not be valid, then
every root is a parameter that it was told to track, and only such a parameter is both a reference
and a pointer (`Coherent`). So it does not matter which of the two maps is asked for a root, and a
root once known never changes.
-/

set_option autoImplicit false

namespace BufferPromotion

/-- A feed tells a set to track a parameter. -/
def Registered (feed : List Notice) (param : Parameter) : Prop :=
  ∃ params, Notice.register params ∈ feed ∧ param ∈ params

namespace AliasSet

variable {kernel : Kernel} {set later : AliasSet} {param : Parameter} {op : Operation}
  {id root : ValueId} {source : PointerSource}

/-! ## Starts of buffers -/

/-- The buffer of every tracked pointer starts at a tracked pointer in the same place. -/
def StartsKnown (set : AliasSet) : Prop :=
  ∀ (id : ValueId) (source : PointerSource), set.pointers[id]? = some source →
    set.pointers[source.buffer]? = some source

theorem startsKnown_empty : empty.StartsKnown := by
  intro id source h
  rw [pointers_empty] at h
  cases h

/-- A new pointer starts a buffer or stays in one that is known. -/
theorem StartsKnown.of_gains {key : ValueId} {new : Option PointerSource} (hset : set.StartsKnown)
    (hgains : set.pointers.Gains key new later.pointers)
    (hnew : ∀ source, new = some source →
      source.buffer = key ∨ ∃ base : ValueId, set.pointers[base]? = some source) :
    later.StartsKnown := by
  intro id source h
  rcases hgains.eq_some h with hold | ⟨rfl, hgain⟩
  · exact hgains.within_self _ _ (hset id source hold)
  · rcases hnew source hgain with hstart | ⟨base, hbase⟩
    · rw [hstart]
      exact h
    · exact hgains.within_self _ _ (hset base source hbase)

theorem startsKnown_seedParam (hset : set.StartsKnown) : (set.seedParam param).StartsKnown := by
  refine hset.of_gains (pointers_seedParam set param) fun source hsource => Or.inl ?_
  obtain ⟨-, -, rfl⟩ := seedSource?_eq_some_iff.mp hsource
  rfl

theorem startsKnown_follow (hset : set.StartsKnown) : (set.follow op).StartsKnown := by
  refine hset.of_gains (pointers_follow set op) fun source hsource => ?_
  rcases sourceOf?_eq_some_iff.mp hsource with ⟨_, _, _, -, -, -, -, rfl⟩ | ⟨base, -, -, hbase⟩
  · exact Or.inl rfl
  · exact Or.inr ⟨base, hbase⟩

/-- A tracked pointer has a buffer, which starts at a tracked pointer. -/
theorem StartsKnown.exists_start (hset : set.StartsKnown) (h : set.hasPointer id = true) :
    ∃ start, set.bufferStart id = some start ∧ set.hasPointer start = true ∧
      set.bufferStart start = some start ∧ set.paramOf start = set.paramOf id := by
  obtain ⟨source, hsource⟩ := hasPointer_iff.mp h
  have hstart := hset id source hsource
  refine ⟨source.buffer, ?_, hasPointer_iff.mpr ⟨source, hstart⟩, ?_, ?_⟩
  · unfold bufferStart
    rw [hsource]
    rfl
  · unfold bufferStart
    rw [hstart]
    rfl
  · unfold paramOf
    rw [hstart, hsource]

theorem startsKnown_foldl_learn (feed : List Notice) : (feed.foldl learn empty).StartsKnown :=
  foldl_learn_induction startsKnown_empty (fun _ _ _ _ _ => startsKnown_seedParam)
    fun _ _ _ => startsKnown_follow

theorem startsKnown_ofKernel (kernel : Kernel) : (ofKernel kernel).StartsKnown :=
  ofKernel_induction startsKnown_empty (fun _ _ _ => startsKnown_seedParam)
    fun _ _ _ => startsKnown_follow

/-! ## Roots -/

/-- A value is its own root, and a parameter of a buffer that may be tracked. -/
structure IsRoot (set : AliasSet) (registered : Parameter → Prop) (root : ValueId) : Prop where
  references : set.references[root]? = some root
  param : ∃ param, registered param ∧ param.isFilter = false ∧ param.type.isSome = true ∧
    param.id = root

/-- An operation that takes a struct out of a struct. -/
def TakesStruct (op : Operation) : Prop :=
  (∃ field, op.kind = .extract field) ∧ op.givesStruct = true

/-- A value is tracked for one of two reasons. It is a parameter that the set was told to track, or
the result of an operation of the kernel; and no operation gives both a reference and a pointer. -/
structure Coherent (kernel : Kernel) (registered : Parameter → Prop) (set : AliasSet) : Prop where
  reference : ∀ id root, set.references[id]? = some root → set.IsRoot registered root ∧
    (id = root ∨ ∃ op, kernel.operation? id = some op ∧ TakesStruct op)
  pointer : ∀ id source, set.pointers[id]? = some source → set.IsRoot registered source.root ∧
    ((id = source.root ∧ ∃ param, registered param ∧ param.isFilter = false ∧
        param.type = some .pointer ∧ param.id = id) ∨
      ∃ op, kernel.operation? id = some op ∧ op.kind ≠ .param ∧ ¬ TakesStruct op)

section Roots

variable {registered : Parameter → Prop}

theorem IsRoot.mono (h : set.IsRoot registered root) (hgrow : set.Within later) :
    later.IsRoot registered root :=
  ⟨hgrow.references root root h.references, h.param⟩

theorem coherent_empty : Coherent kernel registered empty := by
  refine ⟨fun id root h => ?_, fun id source h => ?_⟩
  · rw [references_empty] at h
    cases h
  · rw [pointers_empty] at h
    cases h

/-- Either map gives the root of a value. -/
theorem Coherent.isRoot_of_paramOf (hset : Coherent kernel registered set)
    (h : set.paramOf id = some root) : set.IsRoot registered root := by
  unfold paramOf at h
  cases hpointer : set.pointers[id]? with
  | none =>
      rw [hpointer] at h
      exact (hset.reference id root h).1
  | some source =>
      rw [hpointer] at h
      cases h
      exact (hset.pointer id source hpointer).1

/-- An operation does not give a pointer where it takes a struct out of a struct. -/
theorem not_takesStruct_of_sourceOf? (h : set.sourceOf? op = some source) : ¬ TakesStruct op := by
  rintro ⟨⟨field, hkind⟩, hstruct⟩
  rcases sourceOf?_eq_some_iff.mp h with ⟨_, _, _, -, -, hpointer, -, -⟩ | ⟨_, hderives, -, -⟩
  · rw [Node.givesStruct_of_givesPointer hpointer] at hstruct
    cases hstruct
  · rw [hkind] at hderives
    cases hderives

theorem kind_ne_param_of_sourceOf? (h : set.sourceOf? op = some source) : op.kind ≠ .param := by
  intro hkind
  rcases sourceOf?_eq_some_iff.mp h with ⟨_, _, _, hextract, -⟩ | ⟨_, hderives, -, -⟩
  · rw [hkind] at hextract
    cases hextract
  · rw [hkind] at hderives
    cases hderives

theorem coherent_follow (hset : Coherent kernel registered set)
    (hop : kernel.operation? op.id = some op) : Coherent kernel registered (set.follow op) where
  reference := by
    intro id root h
    rcases (references_follow set op).eq_some h with hold | ⟨rfl, hnew⟩
    · obtain ⟨hroot, hreason⟩ := hset.reference id root hold
      exact ⟨hroot.mono (within_follow set op), hreason⟩
    · obtain ⟨field, base, hkind, -, hstruct, -, hbase⟩ := referenceOf?_eq_some_iff.mp hnew
      exact ⟨(hset.isRoot_of_paramOf hbase).mono (within_follow set op),
        Or.inr ⟨op, hop, ⟨field, hkind⟩, hstruct⟩⟩
  pointer := by
    intro id source h
    rcases (pointers_follow set op).eq_some h with hold | ⟨rfl, hnew⟩
    · obtain ⟨hroot, hreason⟩ := hset.pointer id source hold
      exact ⟨hroot.mono (within_follow set op), hreason⟩
    · refine ⟨IsRoot.mono ?_ (within_follow set op), Or.inr ⟨op, hop,
        kind_ne_param_of_sourceOf? hnew, not_takesStruct_of_sourceOf? hnew⟩⟩
      rcases sourceOf?_eq_some_iff.mp hnew with
        ⟨_, _, _, -, -, -, ⟨-, hbase⟩, rfl⟩ | ⟨base, -, -, hbase⟩
      · exact hset.isRoot_of_paramOf hbase
      · exact (hset.pointer base source hbase).1

section Built

variable (hbuilt : kernel.Built) (hregistered : ∀ param, registered param → param ∈ kernel.params)

include hbuilt hregistered

/-- The node of a parameter takes nothing out of a struct. -/
theorem not_takesStruct_param (hparam : registered param)
    (hop : kernel.operation? param.id = some op) : op.kind = .param ∧ ¬ TakesStruct op := by
  rw [hbuilt.operation?_param (hregistered param hparam)] at hop
  cases hop
  exact ⟨rfl, fun ⟨⟨_, hkind⟩, _⟩ => nomatch hkind⟩

/-- A parameter that is tracked as a reference is its own root. -/
theorem Coherent.eq_of_references_param (hset : Coherent kernel registered set)
    (hparam : registered param) (h : set.references[param.id]? = some root) : param.id = root := by
  rcases (hset.reference _ _ h).2 with hself | ⟨op, hop, htakes⟩
  · exact hself
  · exact absurd htakes (not_takesStruct_param hbuilt hregistered hparam hop).2

theorem coherent_seedParam (hset : Coherent kernel registered set) (hparam : registered param) :
    Coherent kernel registered (set.seedParam param) where
  reference := by
    intro id root h
    rcases (references_seedParam set param).eq_some h with hold | ⟨rfl, hnew⟩
    · obtain ⟨hroot, hreason⟩ := hset.reference id root hold
      exact ⟨hroot.mono (within_seedParam set param), hreason⟩
    · obtain ⟨hfilter, htype, rfl⟩ := seedRoot?_eq_some_iff.mp hnew
      exact ⟨⟨h, param, hparam, hfilter, htype, rfl⟩, Or.inl rfl⟩
  pointer := by
    intro id source h
    rcases (pointers_seedParam set param).eq_some h with hold | ⟨rfl, hnew⟩
    · obtain ⟨hroot, hreason⟩ := hset.pointer id source hold
      exact ⟨hroot.mono (within_seedParam set param), hreason⟩
    · obtain ⟨hfilter, htype, rfl⟩ := seedSource?_eq_some_iff.mp hnew
      have htyped : param.type.isSome = true := by
        rw [htype]
        rfl
      -- a pointer parameter is seeded as a reference as well, if it is not one already
      have hself : (set.seedParam param).references[param.id]? = some param.id := by
        rw [(references_seedParam set param).self]
        cases hold : set.references[param.id]? with
        | none => exact seedRoot?_eq_some_iff.mpr ⟨hfilter, htyped, rfl⟩
        | some root =>
            rw [← hset.eq_of_references_param hbuilt hregistered hparam hold]
            rfl
      exact ⟨⟨hself, param, hparam, hfilter, htyped, rfl⟩,
        Or.inl ⟨rfl, param, hparam, hfilter, htype, rfl⟩⟩

/-- A value that is both a reference and a pointer is a pointer parameter that the set was told to
track, and both maps give it the same root. -/
theorem Coherent.of_both (hset : Coherent kernel registered set)
    (hreference : set.references[id]? = some root) (hpointer : set.pointers[id]? = some source) :
    root = source.root ∧ ∃ param, registered param ∧ param.isFilter = false ∧
      param.type = some .pointer ∧ param.id = id := by
  obtain ⟨hroot, hreason⟩ := hset.reference id root hreference
  obtain ⟨-, hreason'⟩ := hset.pointer id source hpointer
  rcases hreason' with ⟨hself, param, hparam, hfilter, htype, rfl⟩ | ⟨op, hop, hkind, htakes⟩
  · have hroot := hset.eq_of_references_param hbuilt hregistered hparam hreference
    exact ⟨hroot.symm.trans hself, param, hparam, hfilter, htype, rfl⟩
  · -- the result of an operation is not a root, and not a struct if it is a pointer
    rcases hreason with rfl | ⟨op', hop', htakes'⟩
    · obtain ⟨param, hparam, -, -, rfl⟩ := hroot.param
      exact absurd (not_takesStruct_param hbuilt hregistered hparam hop).1 hkind
    · rw [hop] at hop'
      cases hop'
      exact absurd htakes' htakes

/-- A root is the root of itself. -/
theorem Coherent.paramOf_root (hset : Coherent kernel registered set)
    (h : set.IsRoot registered root) : set.paramOf root = some root := by
  unfold paramOf
  cases hpointer : set.pointers[root]? with
  | none => exact h.references
  | some source =>
      rw [(hset.of_both hbuilt hregistered h.references hpointer).1]

/-- A set that holds more gives every value the same root. -/
theorem Coherent.paramOf_eq (hlater : Coherent kernel registered later) (hgrow : set.Within later)
    (h : set.paramOf id = some root) : later.paramOf id = some root := by
  unfold paramOf at h ⊢
  cases hpointer : set.pointers[id]? with
  | some source =>
      rw [hpointer] at h
      rw [hgrow.pointers id source hpointer]
      exact h
  | none =>
      rw [hpointer] at h
      have hreference := hgrow.references id root h
      -- a reference may have become a pointer since
      cases hpointer' : later.pointers[id]? with
      | none => exact hreference
      | some source => rw [(hlater.of_both hbuilt hregistered hreference hpointer').1]

end Built

end Roots

/-- Whatever a set is told about a kernel, valid or not, it is coherent. -/
theorem coherent_foldl_learn {registered : Parameter → Prop} {feed : List Notice}
    (hbuilt : kernel.Built) (hregistered : ∀ param, registered param → param ∈ kernel.params)
    (habout : ∀ notice ∈ feed, notice.IsAbout kernel)
    (hfeed : ∀ param, Registered feed param → registered param) :
    Coherent kernel registered (feed.foldl learn empty) := by
  refine foldl_learn_induction coherent_empty ?_ ?_
  · intro params hmem param hparam known hknown
    exact coherent_seedParam hbuilt hregistered hknown (hfeed param ⟨params, hmem, hparam⟩)
  · intro op hmem known hknown
    exact coherent_follow hknown (habout (.observe op) hmem)

end AliasSet

/-- **What a set holds is coherent, whatever it is told about a kernel.** The kernel need not be
valid, and the set may be told anything about it, in any order and more than once. A value once
tracked stays tracked, with its root and its buffer. The buffer of a tracked pointer starts at a
tracked pointer that is its own buffer, with the same root. Every root is a parameter of known type
and not a filter that the set was told to track; it is a reference, and its own root. Only such a
pointer parameter is both a reference and a pointer. -/
theorem tracking_is_coherent {kernel : Kernel} (hbuilt : kernel.Built) {feed : List Notice}
    (habout : ∀ notice ∈ feed, notice.IsAbout kernel) :
    let aliases := feed.foldl AliasSet.learn .empty
    (∀ before, before <+: feed → ∀ id,
      let earlier := before.foldl AliasSet.learn .empty
      (earlier.tracks id = true →
        aliases.tracks id = true ∧ aliases.paramOf id = earlier.paramOf id) ∧
      (earlier.hasReference id = true → aliases.hasReference id = true) ∧
      (earlier.hasPointer id = true →
        aliases.hasPointer id = true ∧ aliases.bufferStart id = earlier.bufferStart id)) ∧
    (∀ id, aliases.hasPointer id = true →
      ∃ start, aliases.bufferStart id = some start ∧ aliases.hasPointer start = true ∧
        aliases.bufferStart start = some start ∧ aliases.paramOf start = aliases.paramOf id) ∧
    (∀ id, aliases.tracks id = true →
      ∃ param, Registered feed param ∧ param.isFilter = false ∧ param.type.isSome = true ∧
        aliases.paramOf id = some param.id ∧ aliases.hasReference param.id = true ∧
          aliases.paramOf param.id = some param.id) ∧
    ∀ id, aliases.hasReference id = true → aliases.hasPointer id = true →
      ∃ param, Registered feed param ∧ param.isFilter = false ∧ param.type = some .pointer ∧
        param.id = id := by
  intro aliases
  have hregistered : ∀ param, Registered feed param → param ∈ kernel.params :=
    fun param ⟨params, hmem, hparam⟩ => habout (.register params) hmem hparam
  have hset : AliasSet.Coherent kernel (Registered feed) aliases :=
    AliasSet.coherent_foldl_learn hbuilt hregistered habout fun _ h => h
  refine ⟨?_, ?_, ?_, ?_⟩
  · rintro before ⟨after, hfeed⟩ id earlier
    have hgrow : earlier.Within aliases := by
      show earlier.Within (feed.foldl AliasSet.learn .empty)
      rw [← hfeed, List.foldl_append]
      exact AliasSet.within_foldl_learn earlier after
    refine ⟨fun htracks => ?_, fun hreference => ?_, fun hpointer => ?_⟩
    · obtain ⟨root, hroot⟩ := AliasSet.tracks_iff_exists_paramOf.mp htracks
      have hlater := hset.paramOf_eq hbuilt hregistered hgrow hroot
      exact ⟨AliasSet.tracks_iff_exists_paramOf.mpr ⟨root, hlater⟩, hlater.trans hroot.symm⟩
    · obtain ⟨root, hroot⟩ := AliasSet.hasReference_iff.mp hreference
      exact AliasSet.hasReference_iff.mpr ⟨root, hgrow.references id root hroot⟩
    · obtain ⟨source, hsource⟩ := AliasSet.hasPointer_iff.mp hpointer
      have hlater := hgrow.pointers id source hsource
      refine ⟨AliasSet.hasPointer_iff.mpr ⟨source, hlater⟩, ?_⟩
      unfold AliasSet.bufferStart
      rw [hlater, hsource]
  · intro id hpointer
    exact (AliasSet.startsKnown_foldl_learn feed).exists_start hpointer
  · intro id htracks
    obtain ⟨root, hpath⟩ := AliasSet.tracks_iff_exists_paramOf.mp htracks
    have hroot := hset.isRoot_of_paramOf hpath
    obtain ⟨param, hparam, hfilter, htype, rfl⟩ := hroot.param
    exact ⟨param, hparam, hfilter, htype, hpath,
      AliasSet.hasReference_iff.mpr ⟨param.id, hroot.references⟩,
      hset.paramOf_root hbuilt hregistered hroot⟩
  · intro id hreference hpointer
    obtain ⟨root, hroot⟩ := AliasSet.hasReference_iff.mp hreference
    obtain ⟨source, hsource⟩ := AliasSet.hasPointer_iff.mp hpointer
    exact (hset.of_both hbuilt hregistered hroot hsource).2

/-- A kernel with two structs that are taken out of each other, an address of itself and a
parameter that comes late, about which a set is told backwards and twice. -/
theorem scrambled_feed_is_coherent :
    let kernel := ((((((((Kernel.empty "k").addParameter "img" (some (.struct "Image")) false
      ).append (.extractOf 2 "a" (.struct "Part"))).append (.extractOf 1 "b" (.struct "Part"))
        ).append (.addressOf 3 [])).append (.extractOf 0 "data" .pointer)).append
          (.addressOf 7 [3])).append (.addressOf 4 [3])).addParameter "out" (some .pointer) false
    let feed : List Notice := [.observe ⟨.addressOf 7 [3], 5⟩, .register kernel.params,
      .observe ⟨.addressOf 4 [3], 6⟩, .observe ⟨.extractOf 0 "data" .pointer, 4⟩,
      .observe ⟨.extractOf 2 "a" (.struct "Part"), 1⟩, .observe ⟨.addressOf 3 [], 3⟩,
      .register kernel.params, .observe ⟨.addressOf 4 [3], 6⟩, .observe ⟨.addressOf 7 [3], 5⟩]
    let aliases := feed.foldl AliasSet.learn .empty
    kernel.Built ∧ kernel.check ≠ .ok () ∧ (∀ notice ∈ feed, notice.IsAbout kernel) ∧
      aliases.hasPointer 6 = true ∧ aliases.bufferStart 6 = some 4 ∧
      (∃ start, aliases.bufferStart 6 = some start ∧ aliases.hasPointer start = true ∧
        aliases.bufferStart start = some start ∧ aliases.paramOf start = aliases.paramOf 6) ∧
      aliases.hasReference 7 = true ∧ aliases.hasPointer 7 = true ∧
      (∃ param, Registered feed param ∧ param.isFilter = false ∧ param.type = some .pointer ∧
        param.id = 7) ∧
      aliases.tracks 1 = false ∧ aliases.tracks 3 = false := by
  intro kernel feed aliases
  have hbuilt : kernel.Built :=
    .addParameter (.append (.append (.append (.append (.append (.append (.addParameter
      (.empty "k") ..) _) _) _) _) _) _) ..
  have habout : ∀ notice ∈ feed, notice.IsAbout kernel := by decide
  obtain ⟨-, hstart, -, hboth⟩ := tracking_is_coherent hbuilt habout
  have hpointer : aliases.hasPointer 6 = true := by decide +kernel
  have hreference : aliases.hasReference 7 = true := by decide +kernel
  have hparam : aliases.hasPointer 7 = true := by decide +kernel
  exact ⟨hbuilt, by decide +kernel, habout, hpointer, by decide +kernel, hstart 6 hpointer,
    hreference, hparam, hboth 7 hreference hparam, by decide +kernel, by decide +kernel⟩

end BufferPromotion
