import RowStore.Bytes

/-! The block index: for each block of a row file, where it starts and what it holds. -/

namespace RowStore

structure BlockEntry where
  /-- Where the block starts in the file. -/
  offset : UInt64
  firstRow : UInt64
  /-- Bytes of the payload, without the sidecar before it. -/
  storedLength : UInt32
  rawLength : UInt32
  /-- Checksum of the payload. -/
  checksum : UInt64
deriving Repr, DecidableEq

namespace BlockEntry

def size : Nat := 32

def toBytes (entry : BlockEntry) : Bytes :=
  Bytes.ofNat 8 entry.offset.toNat ++ Bytes.ofNat 8 entry.firstRow.toNat ++
    Bytes.ofNat 4 entry.storedLength.toNat ++ Bytes.ofNat 4 entry.rawLength.toNat ++
    Bytes.ofNat 8 entry.checksum.toNat

@[simp] theorem length_toBytes (entry : BlockEntry) : entry.toBytes.length = size := by
  simp [toBytes, size]

/-- Read the entry at the front of a string of at least `size` bytes. -/
def ofBytes (bytes : Bytes) : BlockEntry where
  offset := UInt64.ofNat (bytes.number 0 8)
  firstRow := UInt64.ofNat (bytes.number 8 8)
  storedLength := UInt32.ofNat (bytes.number 16 4)
  rawLength := UInt32.ofNat (bytes.number 20 4)
  checksum := UInt64.ofNat (bytes.number 24 8)

end BlockEntry

end RowStore
