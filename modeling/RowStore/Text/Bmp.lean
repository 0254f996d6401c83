import RowStore.Bytes
import RowStore.Error

/-! Text of the Basic Multilingual Plane in one to three bytes per character.

The encoding is that of UTF-8 and refuses characters outside the plane. The decoder has two
readings. Bytes in which no sequence starts are read as Latin-1, one character each; all others
must be sequences of one, two or three bytes throughout.
-/

namespace RowStore.Text.Bmp

/-- Bytes a character takes. Characters outside the plane count as if they took three. -/
def encodedLength (c : Char) : Nat :=
  if c.toNat < 0x80 then 1 else if c.toNat < 0x800 then 2 else 3

def encodeChar (c : Char) : Except Error Bytes :=
  let code := c.toNat
  if code < 0x80 then .ok [UInt8.ofNat code]
  else if code < 0x800 then .ok [UInt8.ofNat (0xC0 + code / 64), UInt8.ofNat (0x80 + code % 64)]
  else if code < 0x10000 then
    .ok [UInt8.ofNat (0xE0 + code / 4096), UInt8.ofNat (0x80 + code / 64 % 64),
      UInt8.ofNat (0x80 + code % 64)]
  else .error (.nonBmp code)

def encode : List Char → Except Error Bytes
  | [] => .ok []
  | c :: rest =>
      match encodeChar c with
      | .error reason => .error reason
      | .ok bytes =>
          match encode rest with
          | .error reason => .error reason
          | .ok tail => .ok (bytes ++ tail)

def isContinuation (byte : UInt8) : Bool := byte.toNat / 64 = 2

def isLead (byte : UInt8) : Bool := 0xC ≤ byte.toNat / 16 && byte.toNat / 16 ≤ 0xE

/-- Does a continuation byte follow the first byte of a sequence anywhere? -/
def hasSequence : Bytes → Bool
  | first :: second :: rest => (isLead first && isContinuation second) || hasSequence (second :: rest)
  | _ => false

def latin1 (byte : UInt8) : Char := Char.ofNat byte.toNat

/-- The payload of the continuation byte at the front, which stands at `offset`. -/
def continuation (offset : Nat) : Bytes → Except Error Nat
  | [] => .error (.invalidUtf8 offset)
  | byte :: _ =>
      if isContinuation byte then .ok (byte.toNat % 64) else .error (.invalidUtf8 offset)

/-- The code point at the front of `lead :: rest` and the number of bytes it takes. -/
def readCode (offset : Nat) (lead : UInt8) (rest : Bytes) : Except Error (Nat × Nat) :=
  let kind := lead.toNat / 16
  if kind < 8 then .ok (lead.toNat, 1)
  else if kind = 0xC ∨ kind = 0xD then do
    let second ← continuation (offset + 1) rest
    .ok (lead.toNat % 32 * 64 + second, 2)
  else if kind = 0xE then do
    let second ← continuation (offset + 1) rest
    let third ← continuation (offset + 2) (rest.drop 1)
    .ok (lead.toNat % 16 * 4096 + second * 64 + third, 3)
  else .error (.invalidUtf8 offset)

def decodeStrict (offset : Nat) (bytes : Bytes) : Except Error (List Char) :=
  match bytes with
  | [] => .ok []
  | lead :: rest =>
      match readCode offset lead rest with
      | .error reason => .error reason
      | .ok (code, width) =>
          if code.isValidChar then
            (decodeStrict (offset + width) (rest.drop (width - 1))).map (Char.ofNat code :: ·)
          else .error (.invalidUtf8 offset)
termination_by bytes.length
decreasing_by
  simp only [List.length_drop, List.length_cons]
  omega

def decode (bytes : Bytes) : Except Error (List Char) :=
  if hasSequence bytes then decodeStrict 0 bytes else .ok (bytes.map latin1)

end RowStore.Text.Bmp
