import BufferPromotion.Kernel.Validity
import BufferPromotion.Launch.Size
import BufferPromotion.Source.Span

/-! # Diagnostics

A diagnostic names a problem and the place in the listing where it shows. Every problem has
a code, by which a user can turn a warning into an error, and a message. Some problems point
at further places; each of these can have a label of its own.
-/

set_option autoImplicit false

namespace BufferPromotion

/-- The codes of problems. A code's number is its position here, and stays the same. -/
inductive Code where
  /-- Not the code of any problem. -/
  | reserved
  | unexpectedToken
  | unknownWord
  | noOpenKernel
  | undefinedName
  | repeatedName
  | wrongOperands
  | untypedParam
  | unknownElementType
  | evenFilter
  | wrongLaunch
  | linearAccess
  deriving DecidableEq, Repr, Inhabited

namespace Code

/-- All codes in the order of their numbers. -/
def all : List Code :=
  [reserved, unexpectedToken, unknownWord, noOpenKernel, undefinedName, repeatedName,
   wrongOperands, untypedParam, unknownElementType, evenFilter, wrongLaunch,
   linearAccess]

/-- The number of a code. -/
def number (code : Code) : Nat := all.idxOf code

/-- A code as `#` and its number in four hexadecimal digits. -/
def text (code : Code) : String :=
  let digits := Nat.toDigits 16 code.number
  "#" ++ String.ofList (List.replicate (4 - digits.length) '0' ++ digits)

end Code

/-- What is wrong with the operands of a line, or with the line's place in the kernel. -/
inductive OperandFault where
  /-- A buffer is declared for a value that starts no buffer. -/
  | startsNoBuffer (value : String)
  /-- A name is given to the result of an operation that has none. -/
  | noResult (keyword : String)
  /-- An operation has too few or too many operands. -/
  | count (kind : NodeKind) (found : Nat)
  /-- A finished kernel is not valid. -/
  | invalidKernel (error : KernelFault)
  /-- Any other fault, in words. -/
  | described (reason : String)
  deriving DecidableEq, Repr

namespace OperandFault

/-- The numbers of operands that a kind takes, in words. -/
def countText (kind : NodeKind) : String :=
  match kind.maxOperands with
  | some most =>
      if kind.minOperands == most then toString most else s!"{kind.minOperands} to {most}"
  | none => s!"at least {kind.minOperands}"

/-- The wording shown to the user. -/
def message : OperandFault → String
  | startsNoBuffer value => "`" ++ value ++ "` is neither a parameter nor an extracted pointer"
  | noResult keyword => "`" ++ keyword ++ "` doesn't produce a value"
  | count kind found =>
      "`" ++ kind.keyword ++ "` takes " ++ s!"{countText kind} operands, found {found}"
  | invalidKernel error => error.message
  | described reason => reason

end OperandFault

/-- Why a kernel cannot be launched as configured. -/
inductive LaunchFault where
  | zeroBlock
  | zeroFilter
  /-- The tile has too many pixels. -/
  | oversizedTile (block filter : Size)
  /-- The tile has too many elements, `stride` for each of its pixels. -/
  | oversizedStride (pixels stride : UInt32)
  /-- Any other fault, in words. -/
  | described (reason : String)
  deriving DecidableEq, Repr

namespace LaunchFault

/-- The wording shown to the user. -/
def message : LaunchFault → String
  | zeroBlock => "block dimensions must be at least 1"
  | zeroFilter => "filter dimensions must be at least 1"
  | oversizedTile block filter =>
      s!"a {block.text} block with a {filter.text} filter needs a tile that is too large"
  | oversizedStride pixels stride =>
      s!"a tile of {pixels} pixels with {stride} elements per pixel is too large"
  | described reason => reason

end LaunchFault

/-- What a diagnostic reports. -/
inductive Problem where
  /-- A token stands where it cannot; the list says what could stand there. -/
  | unexpectedToken (found : String) (expected : List String)
  /-- A line starts with a word that is neither a directive nor a call. -/
  | unknownWord (directive : String)
  /-- A line stands before the first kernel. -/
  | noOpenKernel (directive : String)
  /-- A value is used that no line before defines. -/
  | undefinedName (name : String)
  /-- A value is defined again. -/
  | repeatedName (name : String) (first : Span)
  /-- The operands of a line do not fit. -/
  | wrongOperands (fault : OperandFault)
  /-- The type of a parameter is unknown, so the parameter is left alone. -/
  | untypedParam (name : String)
  /-- A buffer has elements of an unknown type. -/
  | unknownElementType (name : String)
  /-- A filter has no middle, so the halo is rounded down. -/
  | evenFilter (filter : Size)
  /-- A kernel cannot be launched as configured. -/
  | wrongLaunch (fault : LaunchFault)
  /-- An address in a promoted buffer cannot be found in the tile. -/
  | linearAccess (name : String)
  deriving DecidableEq, Repr

namespace Problem

/-- The code of a problem. -/
def code : Problem → Code
  | unexpectedToken .. => .unexpectedToken
  | unknownWord _ => .unknownWord
  | noOpenKernel _ => .noOpenKernel
  | undefinedName _ => .undefinedName
  | repeatedName .. => .repeatedName
  | wrongOperands _ => .wrongOperands
  | untypedParam _ => .untypedParam
  | unknownElementType _ => .unknownElementType
  | evenFilter _ => .evenFilter
  | wrongLaunch _ => .wrongLaunch
  | linearAccess _ => .linearAccess

/-- The wording shown to the user. -/
def message : Problem → String
  | unexpectedToken found [] => s!"unexpected token: {found}"
  | unexpectedToken found expected =>
      s!"unexpected token: {found}, expected one of: " ++ String.intercalate ", " expected
  | unknownWord directive => s!"unknown directive: {directive}"
  | noOpenKernel directive => "`" ++ directive ++ "` must appear after a `kernel` directive"
  | undefinedName name => "use of undefined value `" ++ name ++ "`"
  | repeatedName name _ => "value `" ++ name ++ "` is defined more than once"
  | wrongOperands fault => fault.message
  | untypedParam name =>
      "type of parameter `" ++ name ++
        "` is unknown; it will not be considered for promotion"
  | unknownElementType name =>
      "unknown element type `" ++ name ++ "`, expected one of: u8, i32, f32, f64"
  | evenFilter filter =>
      let halo : Size := ⟨filter.x / 2, filter.y / 2⟩
      s!"filter size {filter.text} is not odd; the halo is rounded down to {halo.text}"
  | wrongLaunch fault => s!"invalid launch configuration: {fault.message}"
  | linearAccess name =>
      "`" ++ name ++
        "` addresses a promoted buffer with a linear index; it keeps reading global memory"

/-- The further places that a problem always points at. -/
def ownLabels : Problem → List (Span × Option String)
  | repeatedName _ first => [(first, some "first defined here")]
  | _ => []

end Problem

/-- A problem at a place of a listing. -/
structure Diagnostic where
  problem : Problem
  span : Span
  /-- Further places that belong to this diagnostic. -/
  extraLabels : List (Span × Option String) := []
  deriving DecidableEq, Repr

namespace Diagnostic

/-- The code of the problem. -/
def code (diagnostic : Diagnostic) : Code := diagnostic.problem.code

/-- The message of the problem. -/
def message (diagnostic : Diagnostic) : String := diagnostic.problem.message

/-- All further places: those of this diagnostic, then those of its problem. -/
def labels (diagnostic : Diagnostic) : List (Span × Option String) :=
  diagnostic.extraLabels ++ diagnostic.problem.ownLabels

end Diagnostic

end BufferPromotion
