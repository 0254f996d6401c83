import RowStore.Bytes

/-! The 64-bit XXH3 checksum, unseeded.

Inputs of up to 16, 128 and 240 bytes are mixed in ways of their own. Longer ones are folded into
eight accumulators in stripes of 64 bytes; the accumulators are scrambled after every 16 stripes.
-/

namespace RowStore.Xxh3

def prime32A : UInt64 := 0x9E3779B1
def prime32B : UInt64 := 0x85EBCA77
def prime32C : UInt64 := 0xC2B2AE3D
def prime64A : UInt64 := 0x9E3779B185EBCA87
def prime64B : UInt64 := 0xC2B2AE3D27D4EB4F
def prime64C : UInt64 := 0x165667B19E3779F9
def prime64D : UInt64 := 0x85EBCA77C2B2AE63
def prime64E : UInt64 := 0x27D4EB2F165667C5
def mixA : UInt64 := 0x165667919E3779F9
def mixB : UInt64 := 0x9FB21C651E98DF25

/-- Fixed pseudorandom bytes that are mixed with the input. -/
def secret : Bytes := [
  0xb8, 0xfe, 0x6c, 0x39, 0x23, 0xa4, 0x4b, 0xbe, 0x7c, 0x01, 0x81, 0x2c,
  0xf7, 0x21, 0xad, 0x1c, 0xde, 0xd4, 0x6d, 0xe9, 0x83, 0x90, 0x97, 0xdb,
  0x72, 0x40, 0xa4, 0xa4, 0xb7, 0xb3, 0x67, 0x1f, 0xcb, 0x79, 0xe6, 0x4e,
  0xcc, 0xc0, 0xe5, 0x78, 0x82, 0x5a, 0xd0, 0x7d, 0xcc, 0xff, 0x72, 0x21,
  0xb8, 0x08, 0x46, 0x74, 0xf7, 0x43, 0x24, 0x8e, 0xe0, 0x35, 0x90, 0xe6,
  0x81, 0x3a, 0x26, 0x4c, 0x3c, 0x28, 0x52, 0xbb, 0x91, 0xc3, 0x00, 0xcb,
  0x88, 0xd0, 0x65, 0x8b, 0x1b, 0x53, 0x2e, 0xa3, 0x71, 0x64, 0x48, 0x97,
  0xa2, 0x0d, 0xf9, 0x4e, 0x38, 0x19, 0xef, 0x46, 0xa9, 0xde, 0xac, 0xd8,
  0xa8, 0xfa, 0x76, 0x3f, 0xe3, 0x9c, 0x34, 0x3f, 0xf9, 0xdc, 0xbb, 0xc7,
  0xc7, 0x0b, 0x4f, 0x1d, 0x8a, 0x51, 0xe0, 0x4b, 0xcd, 0xb4, 0x59, 0x31,
  0xc8, 0x9f, 0x7e, 0xc9, 0xd9, 0x78, 0x73, 0x64, 0xea, 0xc5, 0xac, 0x83,
  0x34, 0xd3, 0xeb, 0xc3, 0xc5, 0x81, 0xa0, 0xff, 0xfa, 0x13, 0x63, 0xeb,
  0x17, 0x0d, 0xdd, 0x51, 0xb7, 0xf0, 0xda, 0x49, 0xd3, 0x16, 0x55, 0x26,
  0x29, 0xd4, 0x68, 0x9e, 0x2b, 0x16, 0xbe, 0x58, 0x7d, 0x47, 0xa1, 0xfc,
  0x8f, 0xf8, 0xb8, 0xd1, 0x7a, 0xd0, 0x31, 0xce, 0x45, 0xcb, 0x3a, 0x8f,
  0x95, 0x16, 0x04, 0x28, 0xaf, 0xd7, 0xfb, 0xca, 0xbb, 0x4b, 0x40, 0x7e]

def word64 (bytes : Bytes) (offset : Nat) : UInt64 :=
  UInt64.ofNat (Bytes.toNat ((bytes.drop offset).take 8))

def word32 (bytes : Bytes) (offset : Nat) : UInt64 :=
  UInt64.ofNat (Bytes.toNat ((bytes.drop offset).take 4))

def secret64 (offset : Nat) : UInt64 := word64 secret offset

/-- The bytes of a word in the opposite order. -/
def swapBytes (word : UInt64) : UInt64 :=
  UInt64.ofNat (Bytes.toNat (Bytes.ofNat 8 word.toNat).reverse)

def rotateLeft (word : UInt64) (count : UInt64) : UInt64 :=
  (word <<< count) ||| (word >>> (64 - count))

/-- The two halves of the full product, combined. -/
def foldProduct (left right : UInt64) : UInt64 :=
  let product := left.toNat * right.toNat
  UInt64.ofNat product ^^^ UInt64.ofNat (product >>> 64)

def avalanche (hash : UInt64) : UInt64 :=
  let hash := (hash ^^^ (hash >>> 37)) * mixA
  hash ^^^ (hash >>> 32)

def strongAvalanche (hash : UInt64) : UInt64 :=
  let hash := (hash ^^^ (hash >>> 33)) * prime64B
  let hash := (hash ^^^ (hash >>> 29)) * prime64C
  hash ^^^ (hash >>> 32)

def ofEmpty : UInt64 := strongAvalanche (secret64 56 ^^^ secret64 64)

/-- One to three bytes. -/
def ofTiny (bytes : Bytes) (length : Nat) : UInt64 :=
  let byte (index : Nat) : UInt64 := (bytes.getD index 0).toUInt64
  let combined := (byte 0 <<< 16) ||| (byte (length / 2) <<< 24) ||| byte (length - 1) |||
    (UInt64.ofNat length <<< 8)
  strongAvalanche (combined ^^^ (word32 secret 0 ^^^ word32 secret 4))

/-- Four to eight bytes. -/
def ofSmall (bytes : Bytes) (length : Nat) : UInt64 :=
  let input := word32 bytes (length - 4) + (word32 bytes 0 <<< 32)
  let keyed := input ^^^ (secret64 8 ^^^ secret64 16)
  let hash := (keyed ^^^ rotateLeft keyed 49 ^^^ rotateLeft keyed 24) * mixB
  let hash := (hash ^^^ ((hash >>> 35) + UInt64.ofNat length)) * mixB
  hash ^^^ (hash >>> 28)

/-- Nine to sixteen bytes. -/
def ofMedium (bytes : Bytes) (length : Nat) : UInt64 :=
  let low := word64 bytes 0 ^^^ (secret64 24 ^^^ secret64 32)
  let high := word64 bytes (length - 8) ^^^ (secret64 40 ^^^ secret64 48)
  avalanche (UInt64.ofNat length + swapBytes low + high + foldProduct low high)

/-- Sixteen bytes of the input, mixed with the secret at an offset. -/
def mix16 (bytes : Bytes) (offset key : Nat) : UInt64 :=
  foldProduct (word64 bytes offset ^^^ secret64 key) (word64 bytes (offset + 8) ^^^ secret64 (key + 8))

def sum (words : List UInt64) : UInt64 := words.foldl (· + ·) 0

/-- 17 to 128 bytes: pairs of pieces from both ends towards the middle. -/
def ofLong (bytes : Bytes) (length : Nat) : UInt64 :=
  let pairs := (List.range ((length + 31) / 32)).map fun index =>
    mix16 bytes (16 * index) (32 * index) +
      mix16 bytes (length - 16 * (index + 1)) (32 * index + 16)
  avalanche (UInt64.ofNat length * prime64A + sum pairs)

/-- 129 to 240 bytes. -/
def ofLonger (bytes : Bytes) (length : Nat) : UInt64 :=
  let first := (List.range 8).map fun index => mix16 bytes (16 * index) (16 * index)
  let others := (List.range (length / 16 - 8)).map fun index =>
    mix16 bytes (16 * (index + 8)) (16 * index + 3)
  let last := mix16 bytes (length - 16) 119
  avalanche (avalanche (UInt64.ofNat length * prime64A + sum first) + (sum others + last))

def initialLanes : List UInt64 :=
  [prime32C, prime64A, prime64B, prime64C, prime64D, prime32B, prime64E, prime32A]

/-- Eight words of a byte string from an offset on. -/
def lanes (bytes : Bytes) (offset : Nat) : List UInt64 :=
  (List.range 8).map fun index => word64 bytes (offset + 8 * index)

def swapPairs : List UInt64 → List UInt64
  | first :: second :: rest => second :: first :: swapPairs rest
  | rest => rest

/-- Add a stripe to the accumulators: each lane takes its neighbour's data and the product of the
halves of its own keyed data. -/
def accumulate (accumulators : List UInt64) (stripe : Bytes) (key : Nat) : List UInt64 :=
  let data := lanes stripe 0
  let products := (data.zip (lanes secret key)).map fun (word, mask) =>
    let keyed := word ^^^ mask
    (keyed &&& (0xFFFFFFFF : UInt64)) * (keyed >>> 32)
  ((accumulators.zip (swapPairs data)).zip products).map fun ((lane, other), product) =>
    lane + other + product

def scramble (accumulators : List UInt64) : List UInt64 :=
  (accumulators.zip (lanes secret 128)).map fun (lane, mask) =>
    (lane ^^^ (lane >>> 47) ^^^ mask) * prime32A

/-- Add `count` stripes, the first of which has a number. -/
def addStripes (accumulators : List UInt64) (number : Nat) : (count : Nat) → Bytes → List UInt64
  | 0, _ => accumulators
  | count + 1, bytes =>
      let added := accumulate accumulators bytes (8 * (number % 16))
      let next := if number % 16 = 15 then scramble added else added
      addStripes next (number + 1) count (bytes.drop 64)

def mergePairs (result : UInt64) (key : Nat) : List UInt64 → UInt64
  | first :: second :: rest =>
      mergePairs (result + foldProduct (first ^^^ secret64 key) (second ^^^ secret64 (key + 8)))
        (key + 16) rest
  | _ => avalanche result

/-- More than 240 bytes. The last 64 bytes are added once more. -/
def ofStripes (bytes : Bytes) (length : Nat) : UInt64 :=
  let added := addStripes initialLanes 0 ((length - 1) / 64) bytes
  let ended := accumulate added (bytes.drop (length - 64)) 121
  mergePairs (UInt64.ofNat length * prime64A) 11 ended

def checksum (bytes : Bytes) : UInt64 :=
  let length := bytes.length
  if length = 0 then ofEmpty
  else if length ≤ 3 then ofTiny bytes length
  else if length ≤ 8 then ofSmall bytes length
  else if length ≤ 16 then ofMedium bytes length
  else if length ≤ 128 then ofLong bytes length
  else if length ≤ 240 then ofLonger bytes length
  else ofStripes bytes length

end RowStore.Xxh3
