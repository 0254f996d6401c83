import RowStore.Bytes
import RowStore.Fault

/-! How the rows of a block are stored.

A codec turns the raw bytes of a block into a payload and a sidecar, and back. Blocks are stored
independently of each other. The compressor inside a codec is a frame coder, which is told how many
bytes to expect, or a sized coder, which writes that down itself.
-/

namespace RowStore

/-- What a codec stores for a block. -/
structure StoredBlock where
  sidecar : Bytes
  payload : Bytes
deriving Repr, DecidableEq

structure BlockCodec where
  /-- The id in the file header. -/
  id : UInt16
  name : String
  /-- Store a block of rows of `rowLength` bytes. -/
  compress : (rowLength : Nat) → (raw : Bytes) → Except Fault StoredBlock
  /-- Restore a block of which the index says that it has `rawLength` bytes. -/
  expand : (rowLength rawLength : Nat) → StoredBlock → Except Fault Bytes

namespace BlockCodec

/-- What a codec stores, it restores. -/
def Lossless (codec : BlockCodec) : Prop :=
  ∀ rowLength raw stored, codec.compress rowLength raw = .ok stored →
    codec.expand rowLength raw.length stored = .ok raw

/-- Blocks are stored as they are. -/
def passthrough : BlockCodec where
  id := 0
  name := "passthrough"
  compress _ raw := .ok ⟨[], raw⟩
  expand _ _ stored := .ok stored.payload

theorem passthrough_lossless : passthrough.Lossless := by
  intro rowLength raw stored compressed
  cases compressed
  rfl

end BlockCodec

structure FrameCoder where
  compress : (level : Int) → Bytes → Except Fault Bytes
  /-- Restore a frame of at most `limit` bytes. -/
  expand : (limit : Nat) → Bytes → Except Fault Bytes

namespace FrameCoder

def Lossless (coder : FrameCoder) : Prop :=
  ∀ level bytes frame, coder.compress level bytes = .ok frame →
    coder.expand bytes.length frame = .ok bytes

end FrameCoder

structure SizedCoder where
  compress : Bytes → Bytes
  expand : Bytes → Except Fault Bytes

/-- Blocks behind their size, compressed by a coder. -/
def BlockCodec.lz4 (coder : SizedCoder) : BlockCodec where
  id := 2
  name := "lz4"
  compress _ raw := .ok ⟨[], coder.compress raw⟩
  expand _ _ stored := coder.expand stored.payload

/-- The checksum that a payload is known by. -/
class Checksum where
  ofPayload : Bytes → UInt64

end RowStore
