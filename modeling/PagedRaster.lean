import PagedRaster.Canvas
import PagedRaster.Device
import PagedRaster.Draw.Journal
import PagedRaster.Draw.Tracker
import PagedRaster.Gpu.Host
import PagedRaster.Log.Setup
import PagedRaster.Program.Basic
import PagedRaster.Triangle.Overlap
import PagedRaster.Proofs.Draw.Wrapped
import PagedRaster.Proofs.Draw.Observed
import PagedRaster.Proofs.Draw.Ledger
import PagedRaster.Proofs.Draw.Immediate
import PagedRaster.Proofs.Draw.Coherence
import PagedRaster.Proofs.Draw.Atomicity
import PagedRaster.Proofs.Draw.FrameStorage
import PagedRaster.Proofs.Draw.Setters
import PagedRaster.Proofs.Memory.Bits
import PagedRaster.Proofs.Memory.BitArray
import PagedRaster.Proofs.Memory.Layout
import PagedRaster.Proofs.Memory.ExactAddress
import PagedRaster.Proofs.Memory.Pixels
import PagedRaster.Proofs.Fragment.Footprint
import PagedRaster.Proofs.Fragment.Confined
import PagedRaster.Proofs.Fragment.Commute
import PagedRaster.Proofs.Fragment.ReadFootprint
import PagedRaster.Proofs.Fragment.HiddenSurface
import PagedRaster.Proofs.Fragment.TopBytes
import PagedRaster.Proofs.Program.Text
import PagedRaster.Proofs.Program.Reading
import PagedRaster.Proofs.Program.Vocabulary
import PagedRaster.Proofs.Program.Bindings
import PagedRaster.Proofs.Program.Peeling
import PagedRaster.Proofs.Program.Effect
import PagedRaster.Proofs.Fragment.Alike
import PagedRaster.Proofs.Program.EqualTexts
import PagedRaster.Proofs.Triangle.Serialization
import PagedRaster.Proofs.Triangle.FewestRuns
import PagedRaster.Proofs.Gpu.Device
import PagedRaster.Proofs.Gpu.ProgramOrder
import PagedRaster.Proofs.Gpu.Slots
import PagedRaster.Proofs.Gpu.Ring
import PagedRaster.Proofs.Binary32.Rounding
import PagedRaster.Proofs.Binary32.Range
import PagedRaster.Proofs.Format.PackedColor
import PagedRaster.Proofs.Fragment.BlendedColor
import PagedRaster.Proofs.Fragment.WriteMask
import PagedRaster.Proofs.Binary32.Signed
import PagedRaster.Proofs.Fragment.PaletteLookup
import PagedRaster.Proofs.Triangle.Emission
import PagedRaster.Proofs.Triangle.Tiling
import PagedRaster.Proofs.Binary32.Division
import PagedRaster.Proofs.Triangle.Weights
import PagedRaster.Proofs.Fragment.FlatAlpha
import PagedRaster.Proofs.Binary32.Symmetry
import PagedRaster.Proofs.Triangle.Winding
import PagedRaster.Proofs.Draw.InsertOnce
import PagedRaster.Proofs.Program.Accesses
import PagedRaster.Proofs.Binary32.Truncation
import PagedRaster.Proofs.Binary32.Levels
import PagedRaster.Proofs.Format.RoundTrip
import PagedRaster.Proofs.Fragment.Wrapping
import PagedRaster.Proofs.Fragment.ExpandedAlpha
import PagedRaster.Proofs.Gpu.Clipping
import PagedRaster.Proofs.Memory.Building
import PagedRaster.Proofs.Fragment.BuiltTables
