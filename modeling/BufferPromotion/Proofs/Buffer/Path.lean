import BufferPromotion.Proofs.Alias.Rules

/-! # The path to a buffer

Generated names of a buffer are made from the path to it: the name of a parameter and the fields on
the way to the buffer. Every tracked buffer has a path, which starts at its parameter
(`hasPath_of_pointers`). The words of a path are joined by `_`, so only paths without `_` in their
words can be read off a name again (`intercalate_inj`).
-/

set_option autoImplicit false

namespace BufferPromotion

namespace Kernel

variable {kernel : Kernel}

/-- A value has a path that starts at a parameter. -/
def HasPath (kernel : Kernel) (id root : ValueId) : Prop :=
  ∃ param ∈ kernel.params, param.id = root ∧
    ∃ fields, kernel.memberPath id = some (param.name :: fields)

theorem hasPath_param (hbuilt : kernel.Built) {param : Parameter}
    (hparam : param ∈ kernel.params) : kernel.HasPath param.id param.id :=
  ⟨param, hparam, rfl, [], memberPath_param hbuilt hparam⟩

/-- A field of a value is reached from the same parameter. -/
theorem HasPath.extract (hbuilt : kernel.Built) (hvalid : kernel.check = .ok ())
    {op : Operation} (hop : op ∈ kernel.operations) {field : String} {base root : ValueId}
    (hkind : op.kind = .extract field) (hbase : op.base = some base)
    (h : kernel.HasPath base root) : kernel.HasPath op.id root := by
  obtain ⟨param, hparam, hroot, fields, hpath⟩ := h
  refine ⟨param, hparam, hroot, fields ++ [field], ?_⟩
  rw [memberPath_extract hbuilt hvalid hop hkind, hbase, Option.bind_some, hpath]
  rfl

end Kernel

/-! ## Paths of tracked values -/

/-- The buffer of a tracked pointer has a path, which starts at the parameter of the pointer. -/
theorem AliasSet.hasPath_of_pointers {kernel : Kernel} (hbuilt : kernel.Built)
    (hvalid : kernel.check = .ok ()) {id : ValueId} {source : PointerSource}
    (h : (ofKernel kernel).pointers[id]? = some source) :
    kernel.HasPath source.buffer source.root := by
  -- paths obey the rules of aliasing, and what is tracked follows from these rules
  have hrules : AliasRules kernel kernel.HasPath
      (fun _ source => kernel.HasPath source.buffer source.root) := {
    parameter := fun param hparam _ _ => Kernel.hasPath_param hbuilt hparam
    pointerParameter := fun param hparam _ _ => Kernel.hasPath_param hbuilt hparam
    extractedStruct := fun op hop field base root hkind hbase _ h =>
      h.extract hbuilt hvalid hop hkind hbase
    extractedPointer := fun op hop field base root hkind hbase _ h =>
      h.extract hbuilt hvalid hop hkind hbase
    derivedPointer := fun op hop base source _ _ h => h }
  exact (ofKernel_le_of_aliasRules hbuilt hvalid hrules).2 id source h

/-! ## Names made from paths -/

/-- Words that are joined by a character which is in none of them can be read back. -/
theorem intercalate_inj {separator : Char} {words others : List String} (hwords : words ≠ [])
    (hothers : others ≠ []) (hfree : ∀ word ∈ words, separator ∉ word.toList)
    (hfree' : ∀ word ∈ others, separator ∉ word.toList) :
    String.intercalate (String.singleton separator) words =
      String.intercalate (String.singleton separator) others ↔ words = others := by
  have hsplit : ∀ texts : List String, texts ≠ [] → (∀ text ∈ texts, separator ∉ text.toList) →
      ((String.intercalate (String.singleton separator) texts).toList.splitOn separator) =
        texts.map String.toList := by
    intro texts htexts hnone
    rw [String.toList_intercalate, String.toList_singleton]
    refine List.splitOn_intercalate separator ?_ (by simpa using htexts)
    intro characters hcharacters
    obtain ⟨text, hmem, rfl⟩ := List.mem_map.mp hcharacters
    exact hnone text hmem
  constructor
  · intro h
    have hlists : words.map String.toList = others.map String.toList := by
      rw [← hsplit words hwords hfree, h, hsplit others hothers hfree']
    exact List.map_injective_iff.mpr (fun _ _ h => String.toList_inj.mp h) hlists
  · exact fun h => by rw [h]

theorem Kernel.bufferStem_of_memberPath {kernel : Kernel} {buffer : ValueId} {path : List String}
    (h : kernel.memberPath buffer = some path) :
    kernel.bufferStem buffer = String.intercalate "_" path := by
  unfold bufferStem
  rw [h]

end BufferPromotion
