import RowStore.Checksum.Crc32
import RowStore.Gzip.Inflate

/-! Gzip members.

A member is a header of ten bytes, optional fields that a flag byte announces, a compressed body,
and the checksum and the length of the expanded bytes. Only the first member counts.
-/

namespace RowStore.Gzip

def fixedHeaderSize : Nat := 10

/-- The longest name or comment. -/
def textLimit : Nat := 65535

def hasFlag (bytes : Bytes) (bit : Nat) : Bool := (bytes.number 3 1).testBit bit

/-- The offset after `count` bytes that must be there. -/
def past (bytes : Bytes) (offset count : Nat) : Except IoFault Nat :=
  if offset + count ≤ bytes.length then .ok (offset + count) else .error .unexpectedEnd

/-- The offset after a text that a zero byte ends. -/
def pastText (bytes : Bytes) (offset : Nat) : Except IoFault Nat :=
  let length := ((bytes.drop offset).takeWhile (· ≠ 0)).length
  if textLimit < length then .error .invalidInput else past bytes offset (length + 1)

/-- The offset after the extra field, the name and the comment, as far as they are announced. -/
def pastFields (bytes : Bytes) : Except IoFault Nat := do
  let offset := fixedHeaderSize
  let offset ← if hasFlag bytes 2 then do
      let start ← past bytes offset 2
      past bytes start (bytes.number offset 2)
    else .ok offset
  let offset ← if hasFlag bytes 3 then pastText bytes offset else .ok offset
  if hasFlag bytes 4 then pastText bytes offset else .ok offset

/-- The offset after the header. It may end with a checksum of its own. -/
def pastHeader (bytes : Bytes) : Except IoFault Nat := do
  if bytes.length < fixedHeaderSize then throw .unexpectedEnd
  if bytes.take 3 ≠ [0x1F, 0x8B, 0x08] ∨ 32 ≤ bytes.number 3 1 then throw .invalidInput
  let offset ← pastFields bytes
  if hasFlag bytes 1 then
    let stop ← past bytes offset 2
    if bytes.number offset 2 = (Crc32.checksum (bytes.take offset)).toNat % 65536 then .ok stop
    else .error .invalidInput
  else .ok offset

/-- Expand the first member of a file. -/
def expand (bytes : Bytes) : Except IoFault Bytes := do
  let start ← pastHeader bytes
  let (content, rest) ← inflate (bytes.drop start)
  if rest.length < 8 then throw .unexpectedEnd
  if rest.number 0 4 = (Crc32.checksum content).toNat ∧ rest.number 4 4 = content.length % UInt32.size then
    .ok content
  else .error .invalidInput

end RowStore.Gzip
