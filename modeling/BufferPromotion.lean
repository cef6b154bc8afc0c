import BufferPromotion.Command.Directory
import BufferPromotion.Main
import BufferPromotion.Proofs.Alias.Feed
import BufferPromotion.Proofs.Alias.OnePass
import BufferPromotion.Proofs.Compile.Listing
import BufferPromotion.Proofs.Site.Image
import BufferPromotion.Proofs.Site.Memory
import BufferPromotion.Proofs.Tile.Filling
import BufferPromotion.Proofs.Buffer.Image
import BufferPromotion.Proofs.Compile.Emission
import BufferPromotion.Proofs.Listing.Refusal
import BufferPromotion.Proofs.Site.Declared
import BufferPromotion.Proofs.Buffer.Path
import BufferPromotion.Proofs.Site.TileNames
import BufferPromotion.Proofs.Listing.Report
import BufferPromotion.Proofs.Compile.Independence
import BufferPromotion.Proofs.Listing.Decoding
import BufferPromotion.Proofs.Listing.Relocation.Directive
import BufferPromotion.Proofs.Listing.Relocation.Line
import BufferPromotion.Proofs.Listing.Relocation.Reading
import BufferPromotion.Proofs.Listing.BadLine
import BufferPromotion.Proofs.Listing.Concatenation
import BufferPromotion.Proofs.Tile.Limit
import BufferPromotion.Proofs.Kernel.Fault
import BufferPromotion.Proofs.Compile.Upgrade
import BufferPromotion.Proofs.Compile.Places
import BufferPromotion.Proofs.Listing.Places
import BufferPromotion.Proofs.Listing.Recorded
import BufferPromotion.Proofs.Kernel.Walk
import BufferPromotion.Proofs.Alias.Coherence
import BufferPromotion.Proofs.Listing.Tables
import BufferPromotion.Proofs.Tile.Entry
import BufferPromotion.Proofs.Code.Scoping
import BufferPromotion.Proofs.Code.Targets
import BufferPromotion.Proofs.Listing.Definition
import BufferPromotion.Proofs.Report.AliasGraph
import BufferPromotion.Proofs.Tile.Counters
import BufferPromotion.Proofs.Code.Hygiene
import BufferPromotion.Proofs.Compile.Renaming
import BufferPromotion.Proofs.Site.Marking
import BufferPromotion.Proofs.Listing.Scanning
import BufferPromotion.Proofs.Listing.Building
import BufferPromotion.Proofs.Command.Run
