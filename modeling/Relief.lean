import Relief.Main
import Relief.Project.Printer
import Relief.Render.Canvas
import Relief.Proofs.Tiling
import Relief.Proofs.Session
import Relief.Proofs.Partition
import Relief.Proofs.Scanlines
import Relief.Proofs.Agreement
import Relief.Proofs.Semantics
import Relief.Proofs.Writing
import Relief.Proofs.Streaming
import Relief.Proofs.Jobs
import Relief.Proofs.Mosaics
import Relief.Proofs.Images
import Relief.Proofs.Previews
import Relief.Proofs.Refusals
import Relief.Proofs.Canvases
import Relief.Proofs.Kinds
import Relief.Proofs.Policies
import Relief.Proofs.Packing
import Relief.Proofs.Rounding
import Relief.Proofs.Scaling
import Relief.Proofs.Shortest
import Relief.Proofs.Separation
import Relief.Proofs.Rereading
import Relief.Proofs.Numerals
import Relief.Proofs.Records
import Relief.Proofs.Reloading
import Relief.Proofs.Deliveries
import Relief.Proofs.Galleries
import Relief.Proofs.Lifecycle
import Relief.Proofs.Overlays
import Relief.Proofs.Channels
import Relief.Proofs.Surfaces
import Relief.Proofs.Places
import Relief.Proofs.Exports
import Relief.Proofs.Axes
import Relief.Proofs.Interleavings
import Relief.Proofs.Breakdowns
import Relief.Proofs.Literals
import Relief.Proofs.Spelling
import Relief.Proofs.Grammar
import Relief.Proofs.Readings
import Relief.Proofs.Values
import Relief.Proofs.Members
import Relief.Proofs.Variants
import Relief.Proofs.Documents
import Relief.Proofs.Stores
import Relief.Proofs.Buffers
import Relief.Proofs.Meshes
import Relief.Proofs.Triangulations
import Relief.Proofs.Counts
import Relief.Proofs.Limits
import Relief.Proofs.Crops
import Relief.Proofs.Order
import Relief.Proofs.Nearest
import Relief.Proofs.Quantization
import Relief.Proofs.Exactness
import Relief.Proofs.Centers
import Relief.Proofs.Ranges
import Relief.Proofs.Placements
import Relief.Proofs.Merging
