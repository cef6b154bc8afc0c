import BufferPromotion.Buffer.Image
import BufferPromotion.Proofs.Kernel.Chain

/-! # Strides of images

The image in a buffer is made of up to three parts: its own declaration, that of the parameter it
comes from, and what holds without any declaration. The stride is always that of a declaration of
the table, or one element per pixel (`stride_image`). So what holds of the declared strides and of
one holds of the strides of all images.
-/

set_option autoImplicit false

namespace BufferPromotion

theorem one_le_toNat {number : UInt32} (h : number ≠ 0) : 1 ≤ number.toNat :=
  Nat.one_le_iff_ne_zero.mpr fun hzero => h (UInt32.toNat_inj.mp hzero)

/-- Without a declaration there is one element per pixel. -/
theorem ImageBuffer.stride_ofParam (param : Parameter) : (ofParam param).stride = 1 := by
  unfold ofParam
  split <;> rfl

theorem ImageBuffer.stride_ofValue (kernel : Kernel) (buffer : ValueId) :
    (ofValue kernel buffer).stride = 1 := by
  unfold ofValue
  split
  · exact stride_ofParam _
  · split
    · split <;> rfl
    · rfl

/-- The image of a value without a declaration stays what it was when the kernel grows. -/
theorem ImageBuffer.ofValue_of_grown {kernel later : Kernel} (hbuilt : kernel.Built)
    (hvalid : kernel.check = .ok ()) (hbuilt' : later.Built) (hvalid' : later.check = .ok ())
    (hparams : kernel.params ⊆ later.params) (hops : kernel.operations ⊆ later.operations)
    {id : ValueId} (hid : id ∈ kernel.order) : ofValue later id = ofValue kernel id := by
  have hparam := Kernel.param?_of_grown hbuilt hvalid hbuilt' hvalid' hparams hops hid
  have hpath := Kernel.memberPath_of_grown hbuilt hvalid hbuilt' hvalid' hparams hops id hid
  unfold ofValue Kernel.varName
  rw [hparam, hpath]

namespace BufferTable

variable {buffers : BufferTable}

theorem get?_insert (buffers : BufferTable) (id other : ValueId) (image : ImageBuffer) :
    (buffers.insert id image).get? other =
      if other = id then some image else buffers.get? other :=
  Kernel.getElem?_insert_value buffers.entries id other image

theorem mem_toList_iff {id : ValueId} {image : ImageBuffer} :
    (id, image) ∈ buffers.toList ↔ buffers.get? id = some image :=
  Std.ExtTreeMap.mem_toList_iff_getElem?_eq_some

/-- Where the stride of an image comes from. -/
theorem stride_image (kernel : Kernel) (buffer : ValueId) :
    (buffers.image kernel buffer).stride = 1 ∨
      ∃ id declared, buffers.get? id = some declared ∧
        (buffers.image kernel buffer).stride = declared.stride := by
  unfold image
  split
  · next declared hdeclared => exact Or.inr ⟨buffer, declared, hdeclared, rfl⟩
  · dsimp only
    split
    · -- the declaration of the parameter keeps everything but the place of the pixels
      next declared hdeclared =>
      obtain ⟨param, -, hparam⟩ := Option.bind_eq_some_iff.mp hdeclared
      exact Or.inr ⟨param.id, declared, hparam, rfl⟩
    · exact Or.inl (ImageBuffer.stride_ofValue kernel buffer)

/-- What holds of one and of all declared strides holds of the stride of every image. -/
theorem stride_image_of_declared {motive : UInt32 → Prop} (one : motive 1)
    (declared : ∀ id image, buffers.get? id = some image → motive image.stride) (kernel : Kernel)
    (buffer : ValueId) : motive (buffers.image kernel buffer).stride := by
  rcases stride_image kernel buffer with hplain | ⟨id, image, himage, hsame⟩
  · rw [hplain]
    exact one
  · rw [hsame]
    exact declared id image himage

end BufferTable

end BufferPromotion
