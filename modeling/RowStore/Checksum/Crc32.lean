import RowStore.Bytes

/-! The cyclic redundancy check of 32 bits with the reflected polynomial EDB88320. -/

namespace RowStore.Crc32

def shift (register : UInt32) : UInt32 :=
  if register &&& 1 = 1 then (register >>> 1) ^^^ 0xEDB88320 else register >>> 1

def shifts (register : UInt32) : (count : Nat) → UInt32
  | 0 => register
  | count + 1 => shifts (shift register) count

def feed (register : UInt32) (byte : UInt8) : UInt32 := shifts (register ^^^ byte.toUInt32) 8

def checksum (bytes : Bytes) : UInt32 := bytes.foldl feed 0xFFFFFFFF ^^^ 0xFFFFFFFF

end RowStore.Crc32
