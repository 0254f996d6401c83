import RowStore.Bytes.Lemmas
import RowStore.Main
import RowStore.Packing
import RowStore.RowFile.Handle
import RowStore.RowFile.Piecewise
import RowStore.Window.Bank
import RowStore.Proofs.Csv.Import
import RowStore.Proofs.Csv.Split
import RowStore.Proofs.Evidence.Deduction
import RowStore.Proofs.RowFile.RoundTrip
import RowStore.Proofs.Csv.Lines
import RowStore.Proofs.Csv.Roles
import RowStore.Proofs.Csv.Scanning
import RowStore.Proofs.Csv.Rendering
import RowStore.Proofs.Csv.Exporting
import RowStore.Proofs.Row.Sentinel
import RowStore.Proofs.Evidence.Chunks
import RowStore.Proofs.Csv.Streaming
import RowStore.Proofs.RowFile.Hostile
import RowStore.Proofs.Block.Frame
import RowStore.Proofs.RowFile.Piecewise
import RowStore.Proofs.Window.Access
import RowStore.Proofs.Window.Moves
import RowStore.Proofs.Window.Bounds
import RowStore.Proofs.Window.Marks
import RowStore.Proofs.Window.Slices
import RowStore.Proofs.Evidence.Widening
import RowStore.Proofs.Text.Plane
import RowStore.Proofs.Value.Inverse
import RowStore.Proofs.Value.Texts
import RowStore.Proofs.Cursor.Projections
import RowStore.Proofs.Csv.Breaks
import RowStore.Proofs.RowFile.Geometry
import RowStore.Proofs.RowFile.Schema
import RowStore.Proofs.RowFile.Locality
import RowStore.Proofs.Calendar.Instants
import RowStore.Proofs.Text.Counters
import RowStore.Proofs.Value.Integers
import RowStore.Proofs.Value.Targets
import RowStore.Proofs.Row.Frame
import RowStore.Proofs.Cursor.Cells
import RowStore.Proofs.Packing
import RowStore.Proofs.Row.Tiling
import RowStore.Block.Scatter
import RowStore.Proofs.Block.Transpose
import RowStore.Proofs.Block.Shuffle
import RowStore.Proofs.Cursor.Exclusion
import RowStore.Proofs.Text.Trimming
import RowStore.Proofs.Window.Trimming
import RowStore.Proofs.Csv.Names
import RowStore.Proofs.Csv.Deducing
import RowStore.Proofs.Window.Searching
import RowStore.Proofs.Window.Seeking
import RowStore.Proofs.Evidence.Recoding
import RowStore.Proofs.RowFile.Records
