import BufferPromotion.Code.Kernel
import BufferPromotion.Compile.Options
import BufferPromotion.Listing.Printer
import BufferPromotion.Listing.Reader
import BufferPromotion.Report.AliasGraph
import BufferPromotion.Report.Dump
import BufferPromotion.Report.Summary

/-! # Compiling listings

A listing is read, and every kernel of it is turned into the output that the options ask
for. Kernels do not depend on each other: each gives its own output and its own diagnostics,
also when one before it has failed. The outputs are joined with an empty line between them,
and there is an output only if there is no error at all.
-/

set_option autoImplicit false

namespace BufferPromotion

namespace ListedKernel

/-! ## The launch of one kernel -/

/-- The launch configuration of a kernel: its own where it declares one. -/
def launchOf (listed : ListedKernel) (launch : LaunchConfig) : LaunchConfig :=
  ⟨listed.block.elim launch.block (·.size), listed.filter.elim launch.filter (·.size)⟩

/-- The warning about a filter that has no middle. -/
def filterWarnings (listed : ListedKernel) (launch : LaunchConfig) : List Diagnostic :=
  if launch.filter.x % 2 = 0 ∨ launch.filter.y % 2 = 0 then
    [⟨.evenFilter launch.filter, listed.filter.elim listed.span (·.span), []⟩]
  else []

/-- The error about a tile with too many pixels. It points at the declared block and filter,
or at the kernel if it declares neither. -/
def oversizedTile (listed : ListedKernel) (launch : LaunchConfig) : Diagnostic :=
  let problem : Problem := .wrongLaunch (.oversizedTile launch.block launch.filter)
  match listed.block, listed.filter with
  | some block, some filter => ⟨problem, block.span, [(filter.span, some "filter declared here")]⟩
  | some block, none => ⟨problem, block.span, []⟩
  | none, some filter => ⟨problem, filter.span, []⟩
  | none, none => ⟨problem, listed.span, []⟩

/-- The error about a tile with too many elements per pixel. -/
def oversizedStride (geometry : TileGeometry) (stride : UInt32) (span : Span) : Diagnostic :=
  ⟨.wrongLaunch (.oversizedStride geometry.pixelCount stride), span, []⟩

/-- The errors about declared buffers whose tile would have too many elements. -/
def strideErrors (listed : ListedKernel) (geometry : TileGeometry) : List Diagnostic :=
  (listed.buffers.toList.filter fun (_, buffer) => (geometry.rowElements buffer.stride).isNone).map
    fun (id, buffer) => oversizedStride geometry buffer.stride (listed.bufferLineOf id)

/-- The warnings about sites in promoted buffers that keep their address in global memory. -/
def accessWarnings (listed : ListedKernel) (context : SiteContext) : List Diagnostic :=
  (listed.kernel.operations.filter context.lacksCoordinate).map fun op =>
    ⟨.linearAccess (listed.kernel.shownName op.id), listed.lineOf op.id, []⟩

/-! ## The output of one kernel -/

/-- The generated code of a kernel. A tile that cannot be declared is an error. -/
def code (listed : ListedKernel) (emission : Emission) : Outcome String :=
  match emission.run with
  | .ok code => .ofValue code.source
  | .error tile =>
      .ofError (oversizedStride emission.geometry tile.buffer.stride listed.span)

/-- The output of a kernel whose launch configuration is fine. -/
def output (listed : ListedKernel) (options : Options) (geometry : TileGeometry)
    (analysis : Analysis) : Outcome String :=
  let settings := options.settings
  match options.format with
  | .summary =>
      let shown := if settings.usesTiles then some geometry else none
      .ofValue (Summary.text listed.kernel analysis shown)
  | .aliasGraph => .ofValue (AliasGraph.text listed.kernel analysis)
  | .kernel => listed.code ⟨listed.kernel, analysis, geometry, listed.buffers, settings⟩
  | .listing => .ofValue listed.kernel.listing
  | .dump => .ofValue (Dump.text [listed])

/-- Turns a kernel into its output: the launch configuration is checked, the kernel analysed,
and the output written. -/
def compile (listed : ListedKernel) (options : Options) : Outcome String :=
  let settings := options.settings
  let launch := listed.launchOf settings.launch
  let checked := (listed.filterWarnings launch).foldl Outcome.warn (Outcome.ofValue ())
  match TileGeometry.ofLaunch? launch with
  | none => (checked.fail (listed.oversizedTile launch)).map fun _ => ""
  | some geometry =>
      let fitted := (listed.strideErrors geometry).foldl Outcome.fail checked
      fitted.andThen fun _ =>
        let analysis := Analysis.ofKernel listed.kernel
        let context :=
          SiteContext.ofAnalysis listed.kernel analysis geometry listed.buffers settings.usesTiles
        let warned := (listed.accessWarnings context).foldl Outcome.warn (Outcome.ofValue ())
        warned.andThen fun _ => listed.output options geometry analysis

end ListedKernel

/-! ## The output of a listing -/

/-- Appends the output of the kernel with a number to the outputs of those before it. The first
one has no empty line before it. -/
def appendOutput (outputs : String) (number : Nat) (output : String) : String :=
  (if 0 < number then outputs.push '\n' else outputs) ++ output

/-- Adds the outcome of the kernel with a number: its output, unless there is none or an error
has taken away those before it, and all its diagnostics. -/
def Outcome.addOutput (outcome : Outcome String) (number : Nat) (next : Outcome String) :
    Outcome String :=
  let appended :=
    match outcome.value, next.value with
    | some outputs, some output => outcome.set (appendOutput outputs number output)
    | _, _ => outcome
  appended.reportAll next.diagnostics

/-- Turns every kernel into its output and joins the outputs. -/
def compileAll (options : Options) (kernels : List ListedKernel) : Outcome String :=
  kernels.zipIdx.foldl
    (fun outcome entry => outcome.addOutput entry.2 (entry.1.compile options))
    (Outcome.ofValue "")

/-- The listings of all kernels. -/
def listings (kernels : List ListedKernel) : String :=
  kernels.zipIdx.foldl (fun outputs entry => appendOutput outputs entry.2 entry.1.kernel.listing) ""

/-- Compiles a listing without making errors of warnings. -/
def compileLenient (source : String) (options : Options) : Outcome String :=
  let read := readListing source
  match options.format with
  | .listing => read.map listings
  | .dump => read.map Dump.text
  | _ => read.andThen (compileAll options)

/-- Compiles a listing. -/
def compile (source : String) (options : Options) : Outcome String :=
  (compileLenient source options).upgrade fun diagnostic =>
    options.upgraded.contains diagnostic.code

end BufferPromotion
