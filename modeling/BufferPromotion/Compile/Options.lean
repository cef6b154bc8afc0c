import BufferPromotion.Diagnostic.Basic
import BufferPromotion.Tile.Geometry

/-! # Options of a compilation

What a listing is compiled to, for which launch configuration, and which warnings count as
errors. Options are checked before they are used: no dimension may be zero, and the tile of
the default block and filter must not be too large.
-/

set_option autoImplicit false

namespace BufferPromotion

/-- What a listing is compiled to. -/
inductive OutputKind where
  /-- The analysis of every kernel. -/
  | summary
  /-- The kernels as a listing. -/
  | listing
  /-- The generated code of every kernel. -/
  | kernel
  /-- The alias graph of every kernel. -/
  | aliasGraph
  /-- Everything that is known about the listed kernels. -/
  | dump
  deriving DecidableEq, Repr, Inhabited

namespace OutputKind

/-- The name of a format in messages. -/
def name : OutputKind → String
  | summary => "summary"
  | listing => "listing"
  | kernel => "kernel"
  | aliasGraph => "alias dot"
  | dump => "rust dbg"

end OutputKind

/-- The options of a compilation. -/
structure Options where
  format : OutputKind
  settings : LaunchSettings
  /-- The codes of warnings that count as errors. -/
  upgraded : List Code
  deriving DecidableEq, Repr

/-- Why options are rejected. -/
inductive OptionsError where
  | zeroBlock (block : Size)
  | zeroFilter (filter : Size)
  | oversizedTile (launch : LaunchConfig)
  deriving DecidableEq, Repr

namespace OptionsError

/-- The wording shown to the user. -/
def message : OptionsError → String
  | zeroBlock block => s!"Block dimensions must be at least 1, got {block.text}."
  | zeroFilter filter => s!"Filter dimensions must be at least 1, got {filter.text}."
  | oversizedTile launch =>
      s!"A {launch.block.text} block with a {launch.filter.text} filter needs a tile that is " ++
        "too large."

end OptionsError

namespace Options

/-- A summary for the accelerator in the standard launch configuration. -/
def standard : Options := ⟨.summary, .standard, []⟩

/-- Checks options. -/
def check (options : Options) : Except OptionsError Unit :=
  let launch := options.settings.launch
  if launch.block.hasZero then .error (.zeroBlock launch.block)
  else if launch.filter.hasZero then .error (.zeroFilter launch.filter)
  else if (TileGeometry.ofLaunch? launch).isNone then .error (.oversizedTile launch)
  else .ok ()

end Options

end BufferPromotion
