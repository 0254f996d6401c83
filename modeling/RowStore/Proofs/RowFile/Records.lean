import Mathlib
import RowStore.Proofs.RowFile.Format

/-! Headers and index entries as strings of bytes.

Every number of a record is written as the bytes that it is read from. These lie side by side, so
that writing what was read puts the string together again. An entry fills its string. A header leaves
seven bytes that are not looked at, and zeros are written there.
-/

namespace RowStore

namespace Bytes

variable {bytes front : Bytes} {offset next width more : Nat}

theorem ofNat_mod (width value : Nat) : ofNat width (value % 256 ^ width) = ofNat width value := by
  have again := ofNat_toNat (ofNat width value)
  rwa [length_ofNat, toNat_ofNat] at again

theorem ofNat_number (inside : offset + width ≤ bytes.length) :
    ofNat width (number offset width bytes) = (bytes.drop offset).take width := by
  have length : ((bytes.drop offset).take width).length = width := by
    rw [List.length_take, List.length_drop]
    omega
  have written := ofNat_toNat ((bytes.drop offset).take width)
  rwa [length] at written

/-- What a word of the width keeps of the number is all of it. -/
theorem ofNat_number_mod (inside : offset + width ≤ bytes.length) :
    ofNat width (number offset width bytes % 256 ^ width) = (bytes.drop offset).take width :=
  (ofNat_mod ..).trans (ofNat_number inside)

theorem ofNat_uint16 (inside : offset + 2 ≤ bytes.length) :
    ofNat 2 (UInt16.ofNat (number offset 2 bytes)).toNat = (bytes.drop offset).take 2 :=
  ofNat_number_mod inside

theorem ofNat_uint32 (inside : offset + 4 ≤ bytes.length) :
    ofNat 4 (UInt32.ofNat (number offset 4 bytes)).toNat = (bytes.drop offset).take 4 :=
  ofNat_number_mod inside

theorem ofNat_uint64 (inside : offset + 8 ≤ bytes.length) :
    ofNat 8 (UInt64.ofNat (number offset 8 bytes)).toNat = (bytes.drop offset).take 8 :=
  ofNat_number_mod inside

/-- Parts that lie side by side are one part. -/
theorem append_take_drop (beside : next = offset + width) :
    front ++ (bytes.drop offset).take width ++ (bytes.drop next).take more =
      front ++ (bytes.drop offset).take (width + more) := by
  rw [beside, ← List.drop_drop, List.append_assoc, ← List.take_add]

theorem number_one {byte : UInt8} (here : bytes[offset]? = some byte) :
    number offset 1 bytes = byte.toNat := by
  obtain ⟨inside, rfl⟩ := List.getElem?_eq_some_iff.mp here
  rw [number, List.drop_eq_getElem_cons inside, List.take_succ_cons, List.take_zero]
  rfl

end Bytes

theorem BlockEntry.toBytes_ofBytes {bytes : Bytes} (length : bytes.length = size) :
    (ofBytes bytes).toBytes = bytes := by
  have whole : bytes.take 32 = bytes := List.take_of_length_le length.le
  rw [size] at length
  simp (disch := omega) only [toBytes, ofBytes, Bytes.ofNat_uint32, Bytes.ofNat_uint64,
    List.drop_zero, ← List.take_add, Nat.reduceAdd, whole]

namespace FileHeader

variable {bytes : Bytes} {header : FileHeader}

/-- The string with zeros where a header is not looked at. -/
def cleared (bytes : Bytes) : Bytes := (bytes.overwrite 19 [0]).overwrite 58 (List.replicate 6 0)

theorem cleared_eq (length : bytes.length = size) :
    cleared bytes = bytes.take 19 ++ [0] ++ (bytes.drop 20).take 38 ++ List.replicate 6 0 := by
  rw [size] at length
  have front : (bytes.take 19 ++ [0]).length = 20 := by
    simp [length]
  have behind : (bytes.take 19 ++ [0] ++ bytes.drop 20).drop 64 = [] := by
    simp [length]
  rw [cleared, Bytes.overwrite, Bytes.overwrite, List.length_singleton, List.length_replicate,
    behind, List.append_nil, List.take_append, front, List.take_of_length_le (by omega)]

theorem toBytes_of_ofBytes (length : bytes.length = size) (read : ofBytes bytes = .ok header) :
    header.toBytes = cleared bytes := by
  rw [cleared_eq length]
  rw [size] at length
  rw [ofBytes] at read
  split at read
  · contradiction
  split at read
  · contradiction
  rename_i magical _ order known
  have order_eq : Bytes.ofNat 1 order.id = (bytes.drop 18).take 1 := by
    rw [ByteOrder.ofId?_eq_some_iff.mp known, Bytes.ofNat_number (by omega)]
  cases read
  simp (disch := omega) only [toBytes, ← not_not.mp magical, order_eq, Bytes.ofNat_uint16,
    Bytes.ofNat_uint32, Bytes.ofNat_uint64, ← List.take_add, Bytes.append_take_drop, Nat.reduceAdd]

theorem exists_ofId?_iff {byte : UInt8} :
    (∃ order, ByteOrder.ofId? byte.toNat = some order) ↔ byte = 0 ∨ byte = 1 := by
  constructor
  · intro known
    obtain ⟨order, found⟩ := known
    have id := ByteOrder.ofId?_eq_some_iff.mp found
    cases order with
    | little => exact .inl (UInt8.toNat_inj.mp id.symm)
    | big => exact .inr (UInt8.toNat_inj.mp id.symm)
  · intro one
    cases one with
    | inl zero => exact ⟨.little, by simp [zero, ByteOrder.ofId?]⟩
    | inr one => exact ⟨.big, by simp [one, ByteOrder.ofId?]⟩

theorem ofBytes_eq_ok_iff (length : bytes.length = size) :
    (∃ header, ofBytes bytes = .ok header) ↔
      magic <+: bytes ∧ (bytes[18]? = some 0 ∨ bytes[18]? = some 1) := by
  rw [size] at length
  have magical : magic <+: bytes ↔ bytes.take 14 = magic := List.prefix_iff_eq_take.trans eq_comm
  obtain ⟨byte, there⟩ : ∃ byte, bytes[18]? = some byte :=
    ⟨bytes[18], List.getElem?_eq_getElem (by omega)⟩
  rw [magical, there, Option.some.injEq, Option.some.injEq, ← exists_ofId?_iff, ofBytes,
    Bytes.number_one there]
  by_cases started : bytes.take 14 = magic
  · rw [if_neg (not_not_intro started)]
    cases ByteOrder.ofId? byte.toNat <;> simp [started]
  · simp [started]

end FileHeader

/-- A header is read back from its bytes, and so is an entry. Of the strings of its size, a header is
read from those that begin with the magic string and name a byte order, and is then written as the
string with zeros where it was not looked at. An entry is read from all of them and written as the
string itself. -/
theorem RowFile.records_invertible :
    (∀ header : FileHeader, header.toBytes.length = FileHeader.size ∧
      FileHeader.ofBytes header.toBytes = .ok header) ∧
    (∀ bytes : Bytes, bytes.length = FileHeader.size →
      ((∃ header, FileHeader.ofBytes bytes = .ok header) ↔
        FileHeader.magic <+: bytes ∧ (bytes[18]? = some 0 ∨ bytes[18]? = some 1)) ∧
      ∀ header, FileHeader.ofBytes bytes = .ok header →
        header.toBytes = FileHeader.cleared bytes) ∧
    (∀ entry : BlockEntry, entry.toBytes.length = BlockEntry.size ∧
      BlockEntry.ofBytes entry.toBytes = entry) ∧
    ∀ bytes : Bytes, bytes.length = BlockEntry.size → (BlockEntry.ofBytes bytes).toBytes = bytes := by
  refine ⟨fun header => ⟨header.length_toBytes, header.ofBytes_toBytes⟩, fun bytes length => ?_,
    fun entry => ⟨entry.length_toBytes, entry.ofBytes_toBytes⟩, fun bytes length => ?_⟩
  · exact ⟨FileHeader.ofBytes_eq_ok_iff length, fun header =>
      FileHeader.toBytes_of_ofBytes length⟩
  · exact BlockEntry.toBytes_ofBytes length

/-- A header in which all bytes are set that are not looked at, and an entry of different bytes. -/
theorem RowFile.records_invertible_unread_bytes :
    let fields := (List.range' 20 38).map UInt8.ofNat
    let bytes := FileHeader.magic ++ [1, 0, 2, 0, 1, 255] ++ fields ++ List.replicate 6 255
    let entry := (List.range 32).map UInt8.ofNat
    bytes.length = FileHeader.size ∧ entry.length = BlockEntry.size ∧
      (∃ header, FileHeader.ofBytes bytes = .ok header ∧ header.toBytes =
        FileHeader.magic ++ [1, 0, 2, 0, 1, 0] ++ fields ++ List.replicate 6 0) ∧
      (BlockEntry.ofBytes entry).toBytes = entry := by
  intro fields bytes entry
  have length : bytes.length = FileHeader.size := by decide
  have length' : entry.length = BlockEntry.size := by decide
  obtain ⟨-, headers, -, entries⟩ := RowFile.records_invertible
  obtain ⟨read_iff, written⟩ := headers bytes length
  obtain ⟨header, read⟩ := read_iff.mpr (by decide)
  exact ⟨length, length', ⟨header, read, (written header read).trans (by decide)⟩,
    entries entry length'⟩

end RowStore
