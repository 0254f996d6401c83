import RowStore.Bytes.Order
import RowStore.Fault

/-! The first 64 bytes of a row file.

The header starts with a magic string of 14 bytes. All numbers are little-endian; the byte order
that it names is that of the values inside rows. One byte behind the byte order and the last six
bytes are zero, and are not looked at when a header is read.
-/

namespace RowStore

structure FileHeader where
  version : UInt16
  codec : UInt16
  order : ByteOrder
  rowLength : UInt32
  rowsPerBlock : UInt32
  blocks : UInt64
  rows : UInt64
  flags : UInt64
  schemaLength : UInt32
  columns : UInt16
deriving Repr, DecidableEq

namespace FileHeader

def magic : Bytes :=
  [0x52, 0x50, 0x41, 0x4B, 0x31, 0x0A, 0x00, 0x00, 0x00, 0x00, 0x00, 0x00, 0x00, 0x00]

def size : Nat := 64

/-- The version of the files that are written, and the only one that is read. -/
def currentVersion : UInt16 := 1

/-- The flag of files whose blocks carry a checksum of their payload. -/
def checksumFlag : UInt64 := 1

def hasChecksums (header : FileHeader) : Bool := header.flags &&& checksumFlag ≠ 0

def toBytes (header : FileHeader) : Bytes :=
  magic ++ Bytes.ofNat 2 header.version.toNat ++ Bytes.ofNat 2 header.codec.toNat ++
    Bytes.ofNat 1 header.order.id ++ [0] ++ Bytes.ofNat 4 header.rowLength.toNat ++
    Bytes.ofNat 4 header.rowsPerBlock.toNat ++ Bytes.ofNat 8 header.blocks.toNat ++
    Bytes.ofNat 8 header.rows.toNat ++ Bytes.ofNat 8 header.flags.toNat ++
    Bytes.ofNat 4 header.schemaLength.toNat ++ Bytes.ofNat 2 header.columns.toNat ++
    List.replicate 6 0

@[simp] theorem length_toBytes (header : FileHeader) : header.toBytes.length = size := by
  simp [toBytes, magic, size]

/-- Read the header at the front of a string of at least `size` bytes. -/
def ofBytes (bytes : Bytes) : Except Fault FileHeader :=
  if bytes.take 14 ≠ magic then .error .badMagic
  else
    match ByteOrder.ofId? (bytes.number 18 1) with
    | none => .error (.unknownByteOrder (bytes.number 18 1))
    | some order =>
        .ok {
          version := UInt16.ofNat (bytes.number 14 2)
          codec := UInt16.ofNat (bytes.number 16 2)
          order
          rowLength := UInt32.ofNat (bytes.number 20 4)
          rowsPerBlock := UInt32.ofNat (bytes.number 24 4)
          blocks := UInt64.ofNat (bytes.number 28 8)
          rows := UInt64.ofNat (bytes.number 36 8)
          flags := UInt64.ofNat (bytes.number 44 8)
          schemaLength := UInt32.ofNat (bytes.number 52 4)
          columns := UInt16.ofNat (bytes.number 56 2) }

end FileHeader

end RowStore
