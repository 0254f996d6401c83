import RowStore.Block.Lz4
import RowStore.Block.Zstandard

/-! The codecs that come with the library.

Their coders are stand-ins for whole compressors. `Frame.coder` writes frames that any zstd reader
takes, but of the blocks in a frame it reads only those that are written out or repeated: a frame with
compressed blocks, as zstd writes them, is refused. `Lz4.coder` reads every block and compresses none.
-/

namespace RowStore.BlockCodec

def defaultLevel : Int := 3

/-- The codec that the header of a file names. Files with compressed frames are opened, and their
blocks refused. -/
def ofId (id : Nat) : Except Fault BlockCodec :=
  match id with
  | 0 => .ok passthrough
  | 1 => .ok (zstandard Frame.coder defaultLevel)
  | 2 => .ok (lz4 Lz4.coder)
  | 3 => .ok (shuffled Frame.coder defaultLevel)
  | id => .error (.unknownCodecId id)

/-- The codec that a command names. The frames it stores are not compressed, whatever the level. -/
def ofName (name : String) (level : Int) : Except Fault BlockCodec :=
  if name = "passthrough" ∨ name = "none" then .ok passthrough
  else if name = "zstd" then .ok (zstandard Frame.coder level)
  else if name = "lz4" then .ok (lz4 Lz4.coder)
  else if name = "shuffle-zstd" ∨ name = "shuffle" then .ok (shuffled Frame.coder level)
  else .error (.unknownCodecName name)

end RowStore.BlockCodec
