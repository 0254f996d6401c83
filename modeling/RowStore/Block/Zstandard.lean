import RowStore.Block.Frame

/-! Blocks as single frames, and blocks whose bytes are regrouped before.

Shuffling puts the bytes at the same place of every row next to each other: byte `k` of row `r`
moves to `k * rows + r`. The row width travels in the sidecar, in four bytes. A block that is not a
whole number of rows keeps its order and says that its rows are one byte wide.
-/

namespace RowStore

def BlockCodec.zstandard (coder : FrameCoder) (level : Int) : BlockCodec where
  id := 1
  name := "zstd"
  compress _ raw := do
    let frame ← coder.compress level raw
    .ok ⟨[], frame⟩
  expand _ rawLength stored := coder.expand rawLength stored.payload

namespace Shuffle

/-- The first `count` pieces of a given size. -/
def pieces (size : Nat) : (count : Nat) → Bytes → List Bytes
  | 0, _ => []
  | count + 1, bytes => bytes.take size :: pieces size count (bytes.drop size)

/-- The first, second, and further bytes of all pieces. Where there are no pieces, there are none,
however wide the pieces would be. -/
def planes : (count : Nat) → List Bytes → List Bytes
  | 0, _ => []
  | _, [] => []
  | count + 1, lists => lists.filterMap List.head? :: planes count (lists.map List.tail)

def shuffle (width : Nat) (raw : Bytes) : Bytes :=
  (planes width (pieces width (raw.length / width) raw)).flatten

def unshuffle (width : Nat) (shuffled : Bytes) : Bytes :=
  let rows := shuffled.length / width
  (planes rows (pieces rows (shuffled.length / rows) shuffled)).flatten

/-- The row width to shuffle by. -/
def stride (length rowLength : Nat) : Nat :=
  if 1 < rowLength ∧ length % rowLength = 0 then rowLength else 1

end Shuffle

def BlockCodec.shuffled (coder : FrameCoder) (level : Int) : BlockCodec where
  id := 3
  name := "shuffle-zstd"
  compress rowLength raw := do
    let width := Shuffle.stride raw.length rowLength
    let frame ← coder.compress level (if 1 < width then Shuffle.shuffle width raw else raw)
    .ok ⟨Bytes.ofNat 4 width, frame⟩
  expand _ rawLength stored := do
    if stored.sidecar.length < 4 then .error .missingRowWidth
    else
      let width := Bytes.toNat (stored.sidecar.take 4)
      let content ← coder.expand rawLength stored.payload
      if 1 < width then
        if content.length % width = 0 then .ok (Shuffle.unshuffle width content)
        else .error (.raggedBlock content.length width)
      else .ok content

end RowStore
