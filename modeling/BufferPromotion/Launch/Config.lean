import BufferPromotion.Launch.Size

/-! # Launch configuration

How a kernel is going to run: on which backend, in blocks of which size, with a filter of
which size, and what a block does with tile cells that lie outside the image.
-/

set_option autoImplicit false

namespace BufferPromotion

/-- The backend that runs the generated code. -/
inductive Target where
  /-- Runs many blocks in parallel; a block can keep a tile of a buffer in its own memory. -/
  | accelerator
  /-- Runs sequentially; there is no tile memory, so nothing is promoted. -/
  | host
  deriving DecidableEq, Repr, Inhabited

namespace Target

/-- The name of a target. -/
def name : Target → String
  | accelerator => "accelerator"
  | host => "host"

end Target

/-- What happens to tile cells whose pixel lies outside the image. -/
inductive BorderFill where
  /-- The cell is never written; code that reads the tile has to check the bounds. -/
  | leave
  /-- The cell is filled with zero. -/
  | zero
  deriving DecidableEq, Repr, Inhabited

/-- The size of the blocks a kernel runs in, and of the filter it applies. -/
structure LaunchConfig where
  block : Size
  filter : Size
  deriving DecidableEq, Repr

namespace LaunchConfig

/-- Blocks of 128 by 1 and a filter of 5 by 5. -/
def standard : LaunchConfig := ⟨⟨128, 1⟩, ⟨5, 5⟩⟩

end LaunchConfig

/-- Everything that determines the generated code of a kernel besides the kernel itself. -/
structure LaunchSettings where
  target : Target
  /-- Used for kernels that do not declare their own block or filter. -/
  launch : LaunchConfig
  border : BorderFill
  deriving DecidableEq, Repr

namespace LaunchSettings

/-- The accelerator with the standard launch configuration. -/
def standard : LaunchSettings := ⟨.accelerator, .standard, .leave⟩

/-- Whether buffers may be promoted to tile memory. -/
def usesTiles (settings : LaunchSettings) : Bool := settings.target == .accelerator

end LaunchSettings

end BufferPromotion
