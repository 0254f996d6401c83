import RowStore.Block.Zstandard

/-! Shuffling byte by byte.

A block is gone through piece by piece, and each byte is written to its new place in a block of zeros.
A place outside of that block traps, and so do pieces of no bytes. No other step can fail.
-/

namespace RowStore

namespace Shuffle

/-- Write a byte over the one that stands at a place. -/
def store (place : Nat) (byte : UInt8) (block : Bytes) : Except Fault Bytes :=
  if place < block.length then .ok (block.set place byte) else .error (.trap .outOfBounds)

/-- Go through a list, the first element of which has a number, and change a block for each element. -/
def storeEach {α : Type} (step : (number : Nat) → α → Bytes → Except Fault Bytes) (number : Nat) :
    List α → Bytes → Except Fault Bytes
  | [], block => .ok block
  | item :: rest, block => do
      let next ← step number item block
      storeEach step (number + 1) rest next

/-- Write the bytes of pieces to the places that the numbers of piece and byte have in a block. -/
def scatter (place : (piece byte : Nat) → Nat) (pieces : List Bytes) (length : Nat) :
    Except Fault Bytes :=
  storeEach (fun piece => storeEach (fun byte => store (place piece byte)) 0) 0 pieces
    (List.replicate length 0)

/-- The whole pieces of a size. -/
def chunks (size : Nat) (bytes : Bytes) : Except Fault (List Bytes) :=
  if size = 0 then .error (.trap .divisionByZero) else .ok (pieces size (bytes.length / size) bytes)

/-- Write byte `k` of row `r` to `k * rows + r`. -/
def scatterRows (width : Nat) (raw : Bytes) : Except Fault Bytes := do
  let rows ← chunks width raw
  scatter (fun row k => k * (raw.length / width) + row) rows raw.length

/-- Write byte `r` of plane `k` to `r * width + k`. -/
def scatterPlanes (width : Nat) (shuffled : Bytes) : Except Fault Bytes :=
  if width = 0 then .error (.trap .divisionByZero)
  else do
    let planes ← chunks (max (shuffled.length / width) 1) shuffled
    scatter (fun k row => row * width + k) (planes.take width) shuffled.length

end Shuffle

/-- The codec of shuffled blocks, with every byte moved by itself. -/
def BlockCodec.scattered (coder : FrameCoder) (level : Int) : BlockCodec where
  id := 3
  name := "shuffle-zstd"
  compress rowLength raw := do
    let width := Shuffle.stride raw.length rowLength
    let content ← if 1 < width then Shuffle.scatterRows width raw else .ok raw
    let frame ← coder.compress level content
    .ok ⟨Bytes.ofNat 4 width, frame⟩
  expand _ rawLength stored := do
    if stored.sidecar.length < 4 then .error .missingRowWidth
    else
      let width := Bytes.toNat (stored.sidecar.take 4)
      let content ← coder.expand rawLength stored.payload
      if 1 < width then
        if content.length % width = 0 then Shuffle.scatterPlanes width content
        else .error (.raggedBlock content.length width)
      else .ok content

end RowStore
