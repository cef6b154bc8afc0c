import BufferPromotion.Kernel.Basic

/-! # Valid kernels

In a valid kernel every operand is defined before it is used, every operation has as many
operands as its kind takes, exactly the right operations produce a value, and nothing runs
twice. The schedule is checked from the front, and the first fault found is the one
reported. At one position the number of operands is checked first, then the operands from
the left, then the result, and last whether the position repeats an earlier one.
-/

set_option autoImplicit false

namespace BufferPromotion

/-- Why a kernel is not valid. -/
inductive KernelFault where
  | noSuchOperand (op operand : ValueId)
  | usedTooEarly (op operand : ValueId)
  | operandCount (op : ValueId) (kind : NodeKind) (found : Nat)
  | lacksResult (op : ValueId) (kind : NodeKind)
  | needlessResult (op : ValueId)
  | paramInSchedule (op : ValueId)
  | scheduledAgain (op : ValueId)
  deriving DecidableEq, Repr

namespace KernelFault

/-- The numbers of operands that a kind takes, both ends included. -/
def operandRange (kind : NodeKind) : String :=
  match kind.maxOperands with
  | some most => s!"{kind.minOperands}..={most}"
  | none => s!"{kind.minOperands}.."

/-- The wording shown to the user. -/
def message : KernelFault → String
  | noSuchOperand op operand =>
      s!"operand {valueIdText operand} of {valueIdText op} does not exist in this kernel"
  | usedTooEarly op operand =>
      s!"operand {valueIdText operand} of {valueIdText op} is used before it is defined"
  | operandCount op kind found =>
      "`" ++ kind.keyword ++ "` " ++
        s!"{valueIdText op} takes {operandRange kind} operands, found {found}"
  | lacksResult op kind =>
      "`" ++ kind.keyword ++ "` " ++ s!"{valueIdText op} must produce a value"
  | needlessResult op => "`store` " ++ valueIdText op ++ " can't produce a value"
  | paramInSchedule op => s!"parameter {valueIdText op} can't be scheduled as an operation"
  | scheduledAgain op => s!"{valueIdText op} is scheduled more than once"

end KernelFault

namespace Kernel

/-- Checks that an operand exists and is defined. -/
def checkOperand (kernel : Kernel) (defined : ValueSet) (op operand : ValueId) :
    Except KernelFault Unit :=
  if kernel.nodes.size ≤ operand then .error (.noSuchOperand op operand)
  else if operand ∈ defined then .ok () else .error (.usedTooEarly op operand)

/-- Checks that an operation may be scheduled, and produces a value if and only if it has
to. -/
def checkResult (op : Operation) : Except KernelFault Unit :=
  match op.kind with
  | .param => .error (.paramInSchedule op.id)
  | .store => if op.type.isSome then .error (.needlessResult op.id) else .ok ()
  | .other _ => .ok ()
  | kind => if op.type.isNone then .error (.lacksResult op.id kind) else .ok ()

/-- Checks one operation, given the values defined before it. -/
def checkOperation (kernel : Kernel) (defined : ValueSet) (op : Operation) :
    Except KernelFault Unit := do
  if !op.kind.accepts op.operands.length then
    throw (.operandCount op.id op.kind op.operands.length)
  op.operands.forM (kernel.checkOperand defined op.id)
  checkResult op
  if op.id ∈ defined then throw (.scheduledAgain op.id)

/-- Checks operations in order, given the values defined before the first. -/
def checkOperations (kernel : Kernel) (defined : ValueSet) :
    List Operation → Except KernelFault Unit
  | [] => .ok ()
  | op :: rest => do
      kernel.checkOperation defined op
      kernel.checkOperations (defined.insert op.id) rest

/-- The values that are defined before the first operation. -/
def paramIds (kernel : Kernel) : ValueSet :=
  Std.ExtTreeSet.ofList (kernel.params.map (·.id)) compare

/-- Checks a whole kernel. -/
def check (kernel : Kernel) : Except KernelFault Unit :=
  kernel.checkOperations kernel.paramIds kernel.operations

end Kernel

end BufferPromotion
