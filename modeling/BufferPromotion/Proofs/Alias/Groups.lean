import BufferPromotion.Alias.Analysis
import BufferPromotion.Proofs.Alias.Coherence

/-! # The groups of promoted pointers

A block keeps one tile for each group of promoted pointers. The groups are made by inserting one
pointer after the other into the group of the place it comes from. They stay in strict order, there
is one for every place that a pointer comes from, and it holds the pointers from there
(`Grouping`). So no place has two groups; and since the start of a buffer is itself a tracked
pointer, which comes from one place, no buffer has two groups either (`nodup_buffers`). A promoted
pointer is always tracked, so it has a group (`groups_partition_promoted`).
-/

set_option autoImplicit false

namespace BufferPromotion

/-! ## Places with a group -/

namespace PointerGroup

/-- The place that the pointers of a group come from. -/
def place (group : PointerGroup) : PointerSource := ⟨group.root, group.buffer⟩

theorem place_eq_iff {group : PointerGroup} {source : PointerSource} :
    group.place = source ↔ group.root = source.root ∧ group.buffer = source.buffer := by
  unfold place
  cases source
  exact PointerSource.mk.injEq _ _ _ _ ▸ Iff.rfl

/-- Some group is that of a place. -/
def Covers (groups : List PointerGroup) (source : PointerSource) : Prop :=
  ∃ group ∈ groups, group.root = source.root ∧ group.buffer = source.buffer

variable {groups : List PointerGroup} {source other : PointerSource} {pointer : ValueId}

theorem covers_cons {group : PointerGroup} :
    Covers (group :: groups) other ↔ group.place = other ∨ Covers groups other := by
  unfold Covers
  rw [List.exists_mem_cons_iff, place_eq_iff]

/-- A pointer is added to the group of its place, and the groups of other places stay. -/
theorem covers_insert :
    Covers (insert source pointer groups) other ↔ source = other ∨ Covers groups other := by
  induction groups with
  | nil => exact covers_cons
  | cons group rest ih =>
      rw [insert]
      split
      · next h =>
        -- the group is there already and gets one more pointer
        have hplace : group.place = source := place_eq_iff.mpr h
        rw [covers_cons, covers_cons, ← hplace]
        exact or_self_left.symm
      · split
        · exact covers_cons
        · rw [covers_cons, covers_cons, ih]
          exact or_left_comm

theorem covers_of_mem {group : PointerGroup} (h : group ∈ groups) :
    Covers groups group.place :=
  ⟨group, h, rfl, rfl⟩

/-! ## The order of the groups -/

/-- The order of the groups: first by the parameter, then by the buffer. -/
def Precedes (first second : PointerGroup) : Prop :=
  first.root < second.root ∨ (first.root = second.root ∧ first.buffer < second.buffer)

theorem Precedes.trans {first second third : PointerGroup} (h : first.Precedes second)
    (h' : second.Precedes third) : first.Precedes third := by
  rcases h with hroot | ⟨hroot, hbuffer⟩ <;> rcases h' with hroot' | ⟨hroot', hbuffer'⟩
  · exact Or.inl (hroot.trans hroot')
  · exact Or.inl (hroot'.symm ▸ hroot)
  · exact Or.inl (hroot ▸ hroot')
  · exact Or.inr ⟨hroot.trans hroot', hbuffer.trans hbuffer'⟩

theorem Precedes.place_ne {first second : PointerGroup} (h : first.Precedes second) :
    first.place ≠ second.place := by
  intro hplace
  obtain ⟨hroot, hbuffer⟩ := place_eq_iff.mp hplace
  rcases h with hless | ⟨-, hless⟩
  · exact hless.ne hroot
  · exact hless.ne hbuffer

theorem isAfter_iff {group : PointerGroup} {pointers : List ValueId} :
    group.isAfter source = true ↔ Precedes ⟨source.root, source.buffer, pointers⟩ group := by
  unfold isAfter Precedes
  rw [Bool.or_eq_true, Bool.and_eq_true, beq_iff_eq, decide_eq_true_iff, decide_eq_true_iff]

/-- A group that is not that of a place and not after it comes before it. -/
theorem precedes_of_not_isAfter {group : PointerGroup} {pointers : List ValueId}
    (hother : ¬ (group.root = source.root ∧ group.buffer = source.buffer))
    (hafter : ¬ group.isAfter source = true) :
    group.Precedes ⟨source.root, source.buffer, pointers⟩ := by
  have hnot : ¬ Precedes ⟨source.root, source.buffer, pointers⟩ group := mt isAfter_iff.mpr hafter
  rcases lt_trichotomy group.root source.root with hless | hroot | hgreater
  · exact Or.inl hless
  · rcases lt_trichotomy group.buffer source.buffer with hless | hbuffer | hgreater
    · exact Or.inr ⟨hroot, hless⟩
    · exact absurd ⟨hroot, hbuffer⟩ hother
    · exact absurd (Or.inr ⟨hroot.symm, hgreater⟩) hnot
  · exact absurd (Or.inl hgreater) hnot

/-- A new group takes its place in the order. -/
theorem pairwise_insert (h : groups.Pairwise Precedes) :
    (insert source pointer groups).Pairwise Precedes := by
  induction groups with
  | nil => exact List.pairwise_singleton _ _
  | cons group rest ih =>
      obtain ⟨hfirst, hrest⟩ := List.pairwise_cons.mp h
      rw [insert]
      split
      · -- neither parameter nor buffer of the group change
        exact List.pairwise_cons.mpr ⟨hfirst, hrest⟩
      · next hother =>
        split
        · next hafter =>
          have hnew : Precedes ⟨source.root, source.buffer, [pointer]⟩ group :=
            isAfter_iff.mp hafter
          refine List.pairwise_cons.mpr ⟨?_, h⟩
          intro later hlater
          rcases List.mem_cons.mp hlater with rfl | hmem
          · exact hnew
          · exact hnew.trans (hfirst later hmem)
        · next hafter =>
          refine List.pairwise_cons.mpr ⟨?_, ih hrest⟩
          intro later hlater
          -- what comes later is the new group, or has the place of one that came later before
          rcases covers_insert.mp (covers_of_mem hlater) with rfl | ⟨found, hfound, hroot, hbuffer⟩
          · exact precedes_of_not_isAfter hother hafter
          · have hprecedes := hfirst found hfound
            unfold Precedes at hprecedes ⊢
            rw [hroot, hbuffer] at hprecedes
            exact hprecedes

/-! ## What the groups hold -/

/-- An insertion adds a pointer to what is held for its place, and to nothing else. -/
theorem pointers_of_mem_insert {content : PointerSource → List ValueId}
    (hordered : groups.Pairwise Precedes)
    (hcontent : ∀ group ∈ groups, group.pointers = content group.place)
    (hempty : ¬ Covers groups source → content source = []) {group : PointerGroup}
    (h : group ∈ insert source pointer groups) :
    (group.place = source ∧ group.pointers = content source ++ [pointer]) ∨
      (group.place ≠ source ∧ group.pointers = content group.place) := by
  -- without the order, a new group could be put before an old one of the same place
  induction groups with
  | nil =>
      rw [List.mem_singleton.mp h, hempty fun ⟨_, hmem, _⟩ => nomatch hmem]
      exact Or.inl ⟨rfl, rfl⟩
  | cons first rest ih =>
      obtain ⟨hfirst, hrest⟩ := List.pairwise_cons.mp hordered
      obtain ⟨hhead, htail⟩ := List.forall_mem_cons.mp hcontent
      rw [insert] at h
      split at h
      · next hfound =>
        have hplace : first.place = source := place_eq_iff.mpr hfound
        rcases List.mem_cons.mp h with rfl | hlater
        · refine Or.inl ⟨hplace, ?_⟩
          rw [hhead, hplace]
        · -- the groups that come later are those of other places
          refine Or.inr ⟨fun hsame => ?_, htail group hlater⟩
          exact (hfirst group hlater).place_ne (hplace.trans hsame.symm)
      · next hother =>
        split at h
        · next hafter =>
          have hnew : Precedes ⟨source.root, source.buffer, [pointer]⟩ first :=
            isAfter_iff.mp hafter
          -- all groups come after the place, so it has none
          have hlate : ∀ old ∈ first :: rest, old.place ≠ source := by
            intro old hold
            rcases List.mem_cons.mp hold with rfl | hlater
            · exact hnew.place_ne.symm
            · exact (hnew.trans (hfirst old hlater)).place_ne.symm
          rcases List.mem_cons.mp h with rfl | hold
          · rw [hempty fun ⟨old, hold, hplace⟩ => hlate old hold (place_eq_iff.mpr hplace)]
            exact Or.inl ⟨rfl, rfl⟩
          · exact Or.inr ⟨hlate group hold, hcontent group hold⟩
        · rcases List.mem_cons.mp h with rfl | hlater
          · exact Or.inr ⟨mt place_eq_iff.mp hother, hhead⟩
          · refine ih hrest htail (fun hnone => hempty ?_) hlater
            rw [covers_cons, place_eq_iff, not_or]
            exact ⟨hother, hnone⟩

end PointerGroup

/-! ## The groups of an analysis -/

/-- The pointers among some that come from a place. -/
def AliasSet.pointersFrom (aliases : AliasSet) (pointers : List ValueId) (source : PointerSource) :
    List ValueId :=
  pointers.filter fun pointer => aliases.pointers[pointer]? = some source

/-- The groups of some pointers: in strict order, one for each place that a pointer comes from, and
with all pointers from there. -/
structure Grouping (aliases : AliasSet) (pointers : List ValueId) (groups : List PointerGroup) :
    Prop where
  ordered : groups.Pairwise PointerGroup.Precedes
  covers : ∀ source, PointerGroup.Covers groups source ↔
    ∃ pointer ∈ pointers, aliases.pointers[pointer]? = some source
  pointers : ∀ group ∈ groups, group.pointers = aliases.pointersFrom pointers group.place

section Grouping

variable {aliases : AliasSet} {pointers : List ValueId} {groups : List PointerGroup}
  {pointer : ValueId} {source : PointerSource}

theorem AliasSet.mem_pointersFrom :
    pointer ∈ aliases.pointersFrom pointers source ↔
      pointer ∈ pointers ∧ aliases.pointers[pointer]? = some source := by
  unfold pointersFrom
  rw [List.mem_filter, decide_eq_true_iff]

theorem AliasSet.pointersFrom_concat :
    aliases.pointersFrom (pointers ++ [pointer]) source = aliases.pointersFrom pointers source ++
      if aliases.pointers[pointer]? = some source then [pointer] else [] := by
  unfold pointersFrom
  rw [List.filter_append, List.filter_singleton]
  simp only [Bool.cond_decide]

theorem Grouping.pointersFrom_eq_nil (h : Grouping aliases pointers groups)
    (hnone : ¬ PointerGroup.Covers groups source) : aliases.pointersFrom pointers source = [] := by
  rw [h.covers source] at hnone
  refine List.eq_nil_iff_forall_not_mem.mpr fun pointer hmem => hnone ⟨pointer, ?_⟩
  exact AliasSet.mem_pointersFrom.mp hmem

theorem Grouping.concat (h : Grouping aliases pointers groups) :
    Grouping aliases (pointers ++ [pointer]) (Analysis.group aliases groups pointer) := by
  unfold Analysis.group
  cases hsource : aliases.pointers[pointer]? with
  | none =>
      refine ⟨h.ordered, fun source => ?_, fun group hgroup => ?_⟩
      · rw [h.covers source]
        simp [hsource, or_and_right, exists_or]
      · rw [h.pointers group hgroup, AliasSet.pointersFrom_concat, hsource, if_neg nofun,
          List.append_nil]
  | some found =>
      refine ⟨PointerGroup.pairwise_insert h.ordered, fun source => ?_, fun group hgroup => ?_⟩
      · rw [PointerGroup.covers_insert, h.covers source]
        simp [hsource, or_and_right, exists_or, or_comm]
      · rw [AliasSet.pointersFrom_concat, hsource]
        rcases PointerGroup.pointers_of_mem_insert h.ordered h.pointers h.pointersFrom_eq_nil
          hgroup with ⟨hplace, hcontent⟩ | ⟨hplace, hcontent⟩
        · rw [if_pos (congrArg some hplace.symm), hcontent, hplace]
        · rw [if_neg fun hsame => hplace (Option.some.inj hsame).symm, hcontent, List.append_nil]

variable (aliases pointers) in
/-- Grouping pointers one after the other groups all of them. -/
theorem grouping_foldl_group :
    Grouping aliases pointers (pointers.foldl (Analysis.group aliases) []) := by
  induction pointers using List.reverseRecOn with
  | nil =>
      refine ⟨List.Pairwise.nil, fun source => ?_, fun group hgroup => nomatch hgroup⟩
      simp [PointerGroup.Covers]
  | append_singleton pointers pointer ih =>
      rw [List.foldl_concat]
      exact ih.concat

end Grouping

namespace Analysis

variable {analysis : Analysis} {source : PointerSource} {group : PointerGroup} {pointer : ValueId}

theorem grouping_pointerGroups (analysis : Analysis) :
    Grouping analysis.aliases analysis.promotion.promoted.toList analysis.pointerGroups :=
  grouping_foldl_group _ _

/-- There is a group for each place that a promoted pointer comes from, and no other. -/
theorem covers_pointerGroups :
    PointerGroup.Covers analysis.pointerGroups source ↔
      ∃ pointer ∈ analysis.promotion.promoted,
        analysis.aliases.pointers[pointer]? = some source := by
  rw [(grouping_pointerGroups analysis).covers source]
  simp only [Std.ExtTreeSet.mem_toList]

/-- A group holds the promoted pointers that come from its place. -/
theorem mem_pointers_iff (h : group ∈ analysis.pointerGroups) :
    pointer ∈ group.pointers ↔ pointer ∈ analysis.promotion.promoted ∧
      analysis.aliases.pointers[pointer]? = some group.place := by
  rw [(grouping_pointerGroups analysis).pointers group h, AliasSet.mem_pointersFrom,
    Std.ExtTreeSet.mem_toList]

section Starts

variable (hstarts : analysis.aliases.StartsKnown)

include hstarts

/-- The buffer of a group is itself a tracked pointer, which starts where it points. -/
theorem pointers_buffer_of_mem (h : group ∈ analysis.pointerGroups) :
    analysis.aliases.pointers[group.buffer]? = some group.place := by
  obtain ⟨pointer, -, hsource⟩ := covers_pointerGroups.mp (PointerGroup.covers_of_mem h)
  exact hstarts pointer group.place hsource

/-- No two groups are about one buffer. -/
theorem nodup_buffers : (analysis.pointerGroups.map (·.buffer)).Nodup := by
  refine List.pairwise_map.mpr ((grouping_pointerGroups _).ordered.imp_of_mem ?_)
  intro first second hfirst hsecond hprecedes hbuffer
  -- groups with one buffer would come from one place
  have hplace := pointers_buffer_of_mem hstarts hfirst
  rw [hbuffer, pointers_buffer_of_mem hstarts hsecond] at hplace
  exact hprecedes.place_ne (Option.some.inj hplace).symm

end Starts

/-- The promoted pointers in the order of their ids. -/
theorem pairwise_promoted (analysis : Analysis) :
    analysis.promotion.promoted.toList.Pairwise (· < ·) :=
  Std.ExtTreeSet.ordered_toList.imp compare_lt_iff_lt.mp

theorem pairwise_pointers (h : group ∈ analysis.pointerGroups) :
    group.pointers.Pairwise (· < ·) := by
  rw [(grouping_pointerGroups analysis).pointers group h]
  exact (pairwise_promoted analysis).filter _

/-- No place has two groups. -/
theorem nodup_places (analysis : Analysis) : (analysis.pointerGroups.map (·.place)).Nodup :=
  List.pairwise_map.mpr ((grouping_pointerGroups analysis).ordered.imp
    PointerGroup.Precedes.place_ne)

/-- No pointer is in two groups. -/
theorem eq_of_mem_pointers {other : PointerGroup} (hgroup : group ∈ analysis.pointerGroups)
    (hother : other ∈ analysis.pointerGroups) (hpointer : pointer ∈ group.pointers)
    (hpointer' : pointer ∈ other.pointers) : group = other := by
  have hplace := ((mem_pointers_iff hgroup).mp hpointer).2
  rw [((mem_pointers_iff hother).mp hpointer').2] at hplace
  exact List.inj_on_of_nodup_map (nodup_places analysis) hgroup hother (Option.some.inj hplace).symm

theorem nodup_flatMap_pointers (analysis : Analysis) :
    (analysis.pointerGroups.flatMap (·.pointers)).Nodup := by
  refine List.nodup_flatMap.mpr ⟨fun group hgroup => (pairwise_pointers hgroup).imp LT.lt.ne, ?_⟩
  refine (grouping_pointerGroups analysis).ordered.imp_of_mem ?_
  intro first second hfirst hsecond hprecedes pointer hpointer hpointer'
  have hsame := eq_of_mem_pointers hfirst hsecond hpointer hpointer'
  exact hprecedes.place_ne (congrArg PointerGroup.place hsame)

end Analysis

/-- **Grouping by buffer loses and duplicates nothing.** Whatever a set was told, and whatever
operations the pointers are promoted by, the groups taken together are the promoted pointers. Each
of them is in one group only, that of its parameter and its buffer. A group is not empty, and its
pointers are in the order of their ids. The groups are in the order of their parameters and
buffers, and no two of them have the same buffer. -/
theorem groups_partition_promoted (feed : List Notice) (ops : List Operation) :
    let aliases := feed.foldl AliasSet.learn .empty
    let analysis : Analysis := ⟨aliases, Promotion.ofOperations aliases ops⟩
    let groups := analysis.pointerGroups
    (groups.flatMap (·.pointers)).Perm analysis.promotion.promoted.toList ∧
    (∀ pointer ∈ analysis.promotion.promoted, ∃ group ∈ groups,
      pointer ∈ group.pointers ∧ aliases.paramOf pointer = some group.root ∧
        aliases.bufferStart pointer = some group.buffer ∧
          ∀ other ∈ groups, pointer ∈ other.pointers → other = group) ∧
    (∀ group ∈ groups, group.pointers ≠ [] ∧ group.pointers.Pairwise (· < ·)) ∧
    groups.Pairwise PointerGroup.Precedes ∧ (groups.map (·.buffer)).Nodup := by
  intro aliases analysis groups
  have hgroup : ∀ pointer ∈ analysis.promotion.promoted, ∃ group ∈ groups,
      pointer ∈ group.pointers ∧ aliases.pointers[pointer]? = some group.place := by
    intro pointer hpointer
    -- only tracked pointers are promoted
    obtain ⟨source, hsource⟩ :=
      AliasSet.hasPointer_iff.mp (Promotion.mem_promoted_ofOperations.mp hpointer).2.1
    obtain ⟨group, hgroup, hplace⟩ := Analysis.covers_pointerGroups.mpr ⟨pointer, hpointer, hsource⟩
    have hfound : aliases.pointers[pointer]? = some group.place := by
      rw [PointerGroup.place_eq_iff.mpr hplace]
      exact hsource
    exact ⟨group, hgroup, (Analysis.mem_pointers_iff hgroup).mpr ⟨hpointer, hfound⟩, hfound⟩
  refine ⟨?_, ?_, ?_, (Analysis.grouping_pointerGroups analysis).ordered,
    Analysis.nodup_buffers (AliasSet.startsKnown_foldl_learn feed)⟩
  · refine (List.perm_ext_iff_of_nodup (Analysis.nodup_flatMap_pointers analysis)
      ((Analysis.pairwise_promoted analysis).imp LT.lt.ne)).mpr fun pointer => ?_
    rw [List.mem_flatMap, Std.ExtTreeSet.mem_toList]
    constructor
    · rintro ⟨group, hmem, hpointer⟩
      exact ((Analysis.mem_pointers_iff hmem).mp hpointer).1
    · intro hpointer
      obtain ⟨group, hmem, hpointers, -⟩ := hgroup pointer hpointer
      exact ⟨group, hmem, hpointers⟩
  · intro pointer hpointer
    obtain ⟨group, hmem, hpointers, hplace⟩ := hgroup pointer hpointer
    refine ⟨group, hmem, hpointers, ?_, ?_, fun other hother hpointer' => ?_⟩
    · unfold AliasSet.paramOf
      rw [hplace]
      rfl
    · unfold AliasSet.bufferStart
      rw [hplace]
      rfl
    · exact Analysis.eq_of_mem_pointers hother hmem hpointer' hpointers
  · intro group hmem
    obtain ⟨pointer, hpointer, hplace⟩ :=
      Analysis.covers_pointerGroups.mp (PointerGroup.covers_of_mem hmem)
    exact ⟨List.ne_nil_of_mem ((Analysis.mem_pointers_iff hmem).mpr ⟨hpointer, hplace⟩),
      Analysis.pairwise_pointers hmem⟩

end BufferPromotion
