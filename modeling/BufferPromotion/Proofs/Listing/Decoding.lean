import BufferPromotion.Proofs.Kernel.Derivation
import BufferPromotion.Proofs.Listing.Report
import BufferPromotion.Proofs.Listing.RoundTrip

/-! # Listings of kernels that were built

A kernel need not come from a listing. If it was built step by step and is valid, its listing is
read back as the kernel with its values numbered in the order of the listing, provided that its
names are words that mean nothing else where they stand, and that its values are shown under names
that differ (`listing_decodes`). Validity gives the rest of what a listing needs: operations have
the operands and results that their kinds ask for, and use values only after their lines.
-/

set_option autoImplicit false

namespace BufferPromotion

/-! ## Names -/

/-- Ids are printed with digits only. -/
theorem isWord_toString (number : Nat) : IsWord (toString number) := by
  have htext : (toString number).toList = Nat.toDigits 10 number := by
    show (Nat.repr number).toList = _
    rw [Nat.toList_repr]
  constructor
  · rw [htext]
    exact Nat.toDigits_ne_nil
  · intro c hc
    rw [htext] at hc
    have hdigit : c.isDigit = true := Nat.isDigit_of_mem_toDigits (by decide) (by decide) hc
    simp [Lexeme.belongsToWord, Char.isAlphanum, hdigit]

instance : DecidablePred ValueType.Listable
  | .struct name => inferInstanceAs (Decidable (IsWord name))
  | .scalar | .pointer => isTrue trivial

/-- The name in an operation is a word, and none that stands for something else in its place. -/
def Node.WellNamed (node : Node) : Prop :=
  match node.kind with
  | .extract field => IsWord field
  | .other name => IsWord name ∧ name ∉ if node.type.isSome then operationWords else directiveWords
  | _ => True

instance : DecidablePred Node.WellNamed := fun node => by
  unfold Node.WellNamed
  split <;> infer_instance

namespace Kernel

/-- The values that are shown: parameters and results of operations. -/
def shownIds (kernel : Kernel) : List ValueId :=
  kernel.params.map (·.id) ++ (kernel.operations.filter (·.type.isSome)).map (·.id)

/-- The names of a kernel are words that mean nothing else in a listing, what operations work on
is shown, and no two values are shown under the same name. -/
structure WellNamed (kernel : Kernel) : Prop where
  name : IsWord kernel.name
  given : ∀ id ∈ kernel.shownIds, ∀ name ∈ kernel.givenName? id, IsWord name
  paramType : ∀ param ∈ kernel.params, ∀ type ∈ param.type, type.Listable
  resultType : ∀ op ∈ kernel.operations, ∀ type ∈ op.type, type.Listable
  node : ∀ op ∈ kernel.operations, op.toNode.WellNamed
  operands : ∀ op ∈ kernel.operations, ∀ operand ∈ op.operands, operand ∈ kernel.shownIds
  distinct : (kernel.shownIds.map kernel.shownName).Nodup

instance : DecidablePred WellNamed := fun kernel =>
  decidable_of_iff (IsWord kernel.name ∧
      (∀ id ∈ kernel.shownIds, ∀ name ∈ kernel.givenName? id, IsWord name) ∧
      (∀ param ∈ kernel.params, ∀ type ∈ param.type, type.Listable) ∧
      (∀ op ∈ kernel.operations, ∀ type ∈ op.type, type.Listable) ∧
      (∀ op ∈ kernel.operations, op.toNode.WellNamed) ∧
      (∀ op ∈ kernel.operations, ∀ operand ∈ op.operands, operand ∈ kernel.shownIds) ∧
      (kernel.shownIds.map kernel.shownName).Nodup)
    ⟨fun ⟨name, given, paramType, resultType, node, operands, distinct⟩ =>
        ⟨name, given, paramType, resultType, node, operands, distinct⟩,
      fun h => ⟨h.name, h.given, h.paramType, h.resultType, h.node, h.operands, h.distinct⟩⟩

/-- Another kernel says the same under other numbers: those of the positions in the listing. -/
structure DecodedAs (kernel copy : Kernel) : Prop where
  name : copy.name = kernel.name
  params : copy.params = kernel.params.map kernel.copiedParam
  operations : copy.operations = kernel.operations.map (Operation.renumber kernel.rank)
  shown : ∀ id ∈ kernel.shownIds, copy.shownName (kernel.rank id) = kernel.shownName id
  order : copy.order = List.range copy.size

variable {kernel : Kernel}

theorem mem_shownIds {id : ValueId} : id ∈ kernel.shownIds ↔ kernel.Shows id := by
  simp [shownIds, Shows, ShownIn, and_assoc, and_comm]

theorem WellNamed.isWord_wordOf (h : kernel.WellNamed) {id : ValueId} (hid : kernel.Shows id) :
    IsWord (kernel.wordOf id) := by
  unfold wordOf
  cases hname : kernel.givenName? id with
  | none => exact isWord_toString id
  | some name => exact h.given id (mem_shownIds.mpr hid) name hname

/-! ## Valid kernels can be listed -/

/-- A valid operation has the form that a line can say, if its names are words. -/
theorem WellNamed.listable_node (h : kernel.WellNamed) {op : Operation}
    (hop : op ∈ kernel.operations) (hcount : op.kind.accepts op.operands.length = true)
    (hresult : op.toNode.ResultFits) : op.toNode.Listable := by
  have hname := h.node op hop
  refine ⟨hcount, h.resultType op hop, ?_⟩
  rw [← checkResult_eq_ok_iff] at hresult
  unfold checkResult at hresult
  unfold Node.WellNamed at hname
  -- the check leaves one form for every kind but the unknown ones, which may have a result
  cases hkind : op.kind with
  | param => simp [hkind] at hresult
  | extract field | reinterpret | address | load | store =>
      cases htype : op.type <;> simp_all
  | other name => cases htype : op.type <;> simp_all

/-- An operand that has a name is shown before it is used. -/
theorem WellNamed.shownIn_before (h : kernel.WellNamed) {before after : List Operation}
    {op : Operation} (hops : kernel.operations = before ++ op :: after)
    (hfits : kernel.Fits before op) {operand : ValueId} (hoperand : operand ∈ op.operands) :
    ShownIn kernel.params before operand := by
  have hop : op ∈ kernel.operations := by simp [hops]
  rcases hfits.defined operand hoperand with hparam | hbefore
  · exact Or.inl hparam
  · -- the operation that defines the operand is the one that shows it
    obtain ⟨earlier, hearlier, rfl⟩ := List.mem_map.mp hbefore
    have hmem : earlier ∈ kernel.operations := by simp [hops, hearlier]
    rcases mem_shownIds.mp (h.operands op hop earlier.id hoperand) with
      hparam | ⟨shown, hshown, hid, hresult⟩
    · exact Or.inl hparam
    · rw [eq_of_mem_operations hshown hmem hid] at hresult
      exact Or.inr ⟨earlier, hearlier, rfl, hresult⟩

/-- What was built and is valid can be listed, if its names can. -/
theorem WellNamed.listable (h : kernel.WellNamed) (hbuilt : kernel.Built)
    (hvalid : kernel.check = .ok ()) : kernel.Listable where
  built := hbuilt
  name := h.name
  paramType := h.paramType
  nodes op hop := by
    obtain ⟨before, after, hops⟩ := List.append_of_mem hop
    have hfits := check_eq_ok_iff.mp hvalid before op after hops
    exact h.listable_node hop hfits.count hfits.result
  words _ hid := h.isWord_wordOf hid
  distinct id other hid hother hword := by
    have hshown : kernel.shownName id = kernel.shownName other := by
      rw [shownName_eq, shownName_eq, hword]
    exact List.inj_on_of_nodup_map h.distinct (mem_shownIds.mpr hid) (mem_shownIds.mpr hother) hshown
  operands before op after hops operand hoperand :=
    h.shownIn_before hops (check_eq_ok_iff.mp hvalid before op after hops) hoperand

theorem ReadAs.decodedAs {listed : ListedKernel} (h : kernel.ReadAs listed) :
    kernel.DecodedAs listed.kernel where
  name := h.copies.name
  params := h.copies.params
  operations := h.copies.operations
  shown _ hid := h.copies.shownName_rank (mem_shownIds.mp hid)
  order := h.copies.order

end Kernel

/-! ## Listings -/

/-- **Decoding undoes encoding.** The listing of a kernel that was built, is valid and is well
named is read without an error, and gives one kernel, which is the kernel itself up to the numbers
of its values. -/
theorem listing_decodes {kernel : Kernel} (hbuilt : kernel.Built) (hvalid : kernel.check = .ok ())
    (hnamed : kernel.WellNamed) :
    (readListing kernel.listing).hasError = false ∧
      ∃ listed, (readListing kernel.listing).value = some [listed] ∧
        kernel.DecodedAs listed.kernel := by
  have hlistable : ∀ single ∈ [kernel], single.Listable := by
    simpa using hnamed.listable hbuilt hvalid
  obtain ⟨copies, hvalue, hcopies, -⟩ := exists_copies hlistable
  rw [List.map_singleton, String.intercalate_singleton] at hvalue
  -- one kernel was printed, so one is read
  obtain ⟨listed, rest, hlisted, hrest, rfl⟩ := List.forall₂_cons_left_iff.mp hcopies
  obtain rfl := List.forall₂_nil_left_iff.mp hrest
  exact ⟨(settled_readListing _).hasError_eq_false hvalue, listed, hvalue, hlisted.decodedAs⟩

/-- A filter of unknown type that is added late is listed with the other parameter, so all values
after it move; those without a name get the number under which they were shown as theirs. -/
theorem late_filter_is_decoded :
    let kernel := (((((((Kernel.empty "blur.2").addParameter "image" (some (.struct "Image"))
      false).append (Node.extractOf 0 "data" .pointer)).addParameter "mask" none true).append
      (Node.otherOf "tid.x" [] (some .scalar))).withName 3 "x").append
      (Node.addressOf 1 [3])).append (Node.storeOf 4 2) |>.append (Node.otherOf "sync" [3] none)
    kernel.listing = "kernel blur.2\nparam %image : struct Image\nparam %mask : filter ?\n" ++
        "%1 = extract %image, data : ptr\n%x = tid.x : scalar\n%4 = lea %1, %x : ptr\n" ++
        "store %4, %mask\nsync %x\n" ∧
      (readListing kernel.listing).hasError = false ∧
      ∃ listed, (readListing kernel.listing).value = some [listed] ∧
        kernel.DecodedAs listed.kernel ∧
        listed.kernel.operations.map (·.operands) = [[0], [], [2, 3], [4, 1], [3]] := by
  intro kernel
  have hbuilt : kernel.Built :=
    .append (.append (.append (.withName (.append (.addParameter (.append (.addParameter
      (.empty _) _ _ _) _) _ _ _) _) _ _) _) _) _
  obtain ⟨hread, listed, hvalue, hdecoded⟩ :=
    listing_decodes hbuilt (by decide +kernel) (by decide +kernel)
  refine ⟨by decide +kernel, hread, listed, hvalue, hdecoded, ?_⟩
  rw [hdecoded.operations]
  decide +kernel

end BufferPromotion
