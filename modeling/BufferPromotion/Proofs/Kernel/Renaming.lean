import BufferPromotion.Alias.Analysis
import BufferPromotion.Buffer.Image
import BufferPromotion.Proofs.Kernel.Chain

/-! # Kernels with other names

The names of a kernel are on its parameters and in the table of names, and nothing that identifies
a value looks at them. So a kernel with other names has the same operations, is valid if it was
before, and has the same chains, buffers and analysis (`analysis_rename`).
-/

set_option autoImplicit false

namespace BufferPromotion

/-- A parameter with another name. -/
def Parameter.rename (name : String → String) (param : Parameter) : Parameter :=
  { param with name := name param.name }

namespace Kernel

variable {kernel later : Kernel} {name : String → String} {id : ValueId}

/-- A kernel with other names for its values. The kernel itself keeps its name. -/
def rename (name : String → String) (kernel : Kernel) : Kernel :=
  { kernel with
    params := kernel.params.map (Parameter.rename name)
    names := kernel.names.map fun _ given => name given }

/-! ## Steps of the builder -/

theorem withName_rename (id : ValueId) (given : String) :
    (kernel.rename name).withName id (name given) = (kernel.withName id given).rename name := by
  unfold withName rename
  simp only [map_insert_value]

theorem addParameter_rename (given : String) (type : Option ValueType) (isFilter : Bool) :
    (kernel.rename name).addParameter (name given) type isFilter =
      (kernel.addParameter given type isFilter).rename name := by
  unfold addParameter rename
  simp only [map_insert_value, List.map_append, List.map_singleton]
  rfl

theorem append_rename (node : Node) :
    (kernel.rename name).append node = (kernel.append node).rename name := rfl

/-! ## What a kernel says about its values -/

theorem operations_rename : (kernel.rename name).operations = kernel.operations := rfl

theorem order_rename : (kernel.rename name).order = kernel.order := by
  unfold order
  rw [operations_rename]
  show List.map _ (kernel.params.map (Parameter.rename name)) ++ _ = _
  rw [List.map_map]
  rfl

theorem param?_rename : (kernel.rename name).param? id =
    (kernel.param? id).map (Parameter.rename name) := by
  unfold param?
  exact List.find?_map

theorem chain_rename : (kernel.rename name).chain id = kernel.chain id := by
  have hwithin : ∀ fuel id, (kernel.rename name).chainWithin fuel id =
      kernel.chainWithin fuel id := by
    intro fuel
    induction fuel with
    | zero => exact fun _ => rfl
    | succ fuel ih =>
        intro id
        have hsame : (kernel.rename name).operation? id = kernel.operation? id := rfl
        unfold chainWithin
        rw [hsame]
        simp only [ih]
  exact hwithin kernel.size id

theorem rootParam_rename {id : ValueId} :
    (kernel.rename name).rootParam id = (kernel.rootParam id).map (Parameter.rename name) := by
  unfold rootParam
  rw [chain_rename]
  cases (kernel.chain id).find? (·.kind == .param) with
  | none => rfl
  | some op => exact param?_rename

theorem bufferStart_rename : (kernel.rename name).bufferStart id = kernel.bufferStart id := by
  unfold bufferStart
  rw [chain_rename]

theorem derivationBases_rename :
    (kernel.rename name).derivationBases id = kernel.derivationBases id := by
  unfold derivationBases
  rw [chain_rename]

/-! ## Analysis -/

theorem seed_rename (set : AliasSet) (params : List Parameter) :
    set.seed (params.map (Parameter.rename name)) = set.seed params := by
  unfold AliasSet.seed
  rw [List.foldl_map]
  rfl

/-- Which values are tracked, promoted and blacklisted does not depend on names. -/
theorem analysis_rename : Analysis.ofKernel (kernel.rename name) = Analysis.ofKernel kernel := by
  have haliases : AliasSet.ofKernel (kernel.rename name) = AliasSet.ofKernel kernel := by
    unfold AliasSet.ofKernel
    rw [operations_rename]
    exact congrArg (List.foldl AliasSet.follow · kernel.operations) (seed_rename _ _)
  unfold Analysis.ofKernel
  rw [haliases, operations_rename]

end Kernel

end BufferPromotion
