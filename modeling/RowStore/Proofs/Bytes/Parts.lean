import Mathlib
import RowStore.Bytes.Lemmas

/-! Parts of byte strings.

A part that stands between others is found at the length of what comes before it, and laying bytes
over a part changes that part alone.
-/

namespace RowStore

namespace Bytes

variable {offset width start stop : Nat} {front back bytes data : Bytes}

theorem number_append_left (inside : offset + width ≤ front.length) :
    number offset width (front ++ back) = number offset width front := by
  rw [number, number, List.drop_append_of_le_length (by omega), List.take_append_of_le_length]
  rw [List.length_drop]
  omega

theorem number_append_right (behind : front.length ≤ offset) :
    number offset width (front ++ back) = number (offset - front.length) width back := by
  rw [number, number, List.drop_append, List.drop_eq_nil_of_le behind, List.nil_append]

theorem number_ofNat (width value : Nat) :
    number 0 width (ofNat width value) = value % 256 ^ width := by
  rw [number, List.drop_zero, List.take_of_length_le (by simp), toNat_ofNat]

theorem slice?_append_right (front back : Bytes) (start stop : Nat) :
    slice? (front ++ back) (front.length + start) (front.length + stop) = slice? back start stop := by
  have bounds : (front.length + start ≤ front.length + stop ∧
      front.length + stop ≤ (front ++ back).length) ↔ start ≤ stop ∧ stop ≤ back.length := by
    rw [List.length_append]
    omega
  simp only [slice?, bounds, List.drop_append, Nat.add_sub_add_left, Nat.add_sub_cancel_left,
    List.drop_eq_nil_of_le (Nat.le_add_right front.length start), List.nil_append]

theorem getElem?_overwrite (inside : offset + data.length ≤ bytes.length) (index : Nat) :
    (overwrite bytes offset data)[index]? =
      if offset ≤ index ∧ index < offset + data.length then data[index - offset]?
      else bytes[index]? := by
  have front : (bytes.take offset).length = offset := by
    rw [List.length_take]
    omega
  rw [overwrite]
  by_cases before : index < offset
  · rw [if_neg (by omega), List.append_assoc, List.getElem?_append_left (by omega),
      List.getElem?_take_of_lt before]
  by_cases within : index < offset + data.length
  · rw [if_pos (by omega), List.getElem?_append_left (by rw [List.length_append]; omega),
      List.getElem?_append_right (by omega), front]
  · rw [if_neg (by omega), List.getElem?_append_right (by rw [List.length_append]; omega),
      List.getElem?_drop, List.length_append, front]
    congr 1
    omega

theorem getElem?_slice? {part : Bytes} (slice : bytes.slice? start stop = some part) (index : Nat) :
    part[index]? = if index < stop - start then bytes[start + index]? else none := by
  rw [slice?] at slice
  split at slice
  · cases slice
    rw [List.getElem?_take, List.getElem?_drop]
  · contradiction

theorem length_slice? {part : Bytes} (slice : bytes.slice? start stop = some part) :
    start ≤ stop ∧ stop ≤ bytes.length ∧ part.length = stop - start := by
  rw [slice?] at slice
  split at slice
  · rename_i inside
    cases slice
    refine ⟨inside.1, inside.2, ?_⟩
    rw [List.length_take, List.length_drop]
    omega
  · contradiction

theorem slice?_eq_some_iff {part : Bytes} :
    bytes.slice? start stop = some part ↔ start ≤ stop ∧ stop ≤ bytes.length ∧
      ∀ index, part[index]? = if index < stop - start then bytes[start + index]? else none := by
  constructor
  · intro slice
    obtain ⟨ordered, inside, -⟩ := length_slice? slice
    exact ⟨ordered, inside, getElem?_slice? slice⟩
  · rintro ⟨ordered, inside, elements⟩
    have slice : bytes.slice? start stop = some ((bytes.drop start).take (stop - start)) :=
      if_pos ⟨ordered, inside⟩
    rw [slice, Option.some.injEq]
    refine List.ext_getElem? fun index => ?_
    rw [getElem?_slice? slice, elements]

/-- Bytes apart from those overwritten stay as they are. -/
theorem slice?_overwrite_of_apart (inside : offset + data.length ≤ bytes.length)
    (apart : stop ≤ offset ∨ offset + data.length ≤ start) :
    (overwrite bytes offset data).slice? start stop = bytes.slice? start stop := by
  by_cases ordered : start ≤ stop ∧ stop ≤ bytes.length
  · have slice : bytes.slice? start stop = some ((bytes.drop start).take (stop - start)) :=
      if_pos ordered
    rw [slice, slice?_eq_some_iff, length_overwrite inside]
    refine ⟨ordered.1, ordered.2, fun index => ?_⟩
    rw [getElem?_slice? slice]
    split
    · rw [getElem?_overwrite inside, if_neg (by omega)]
    · rfl
  · rw [slice?, slice?, length_overwrite inside, if_neg ordered, if_neg ordered]

/-- Laid over a part, data is followed by what the part had behind it. -/
theorem slice?_overwrite (inside : stop ≤ bytes.length) (room : start + data.length ≤ stop) :
    (overwrite bytes start data).slice? start stop =
      some (data ++ (bytes.drop (start + data.length)).take (stop - start - data.length)) := by
  have front : (bytes.take start).length = start := by
    rw [List.length_take]
    omega
  rw [slice?, length_overwrite (room.trans inside), if_pos ⟨by omega, inside⟩, overwrite,
    List.append_assoc, List.drop_left' front, List.take_append, List.take_of_length_le (by omega)]

/-- Laid over a blank part, data is followed by zeros there. -/
theorem slice?_overwrite_blank
    (blank : bytes.slice? start stop = some (List.replicate (stop - start) 0))
    (room : data.length ≤ stop - start) :
    (overwrite bytes start data).slice? start stop =
      some (data ++ List.replicate (stop - start - data.length) 0) := by
  obtain ⟨ordered, inside, -⟩ := length_slice? blank
  have fits : start + data.length ≤ bytes.length := by omega
  rw [slice?_eq_some_iff, length_overwrite fits]
  refine ⟨ordered, inside, fun index => ?_⟩
  have zeros := getElem?_slice? blank index
  rw [getElem?_overwrite fits]
  by_cases within : index < data.length
  · rw [List.getElem?_append_left within, if_pos (by omega), if_pos (by omega),
      Nat.add_sub_cancel_left]
  · rw [List.getElem?_append_right (by omega), if_neg (by omega : ¬ (start ≤ start + index ∧
      start + index < start + data.length)), ← zeros, List.getElem?_replicate,
      List.getElem?_replicate]
    congr 1
    rw [eq_iff_iff]
    omega

end Bytes

section Words

theorem UInt16.ofNat_mod (word : UInt16) : UInt16.ofNat (word.toNat % 256 ^ 2) = word := by
  rw [Nat.mod_eq_of_lt (by simpa using word.toNat_lt), UInt16.ofNat_toNat]

theorem UInt32.ofNat_mod (word : UInt32) : UInt32.ofNat (word.toNat % 256 ^ 4) = word := by
  rw [Nat.mod_eq_of_lt (by simpa using word.toNat_lt), UInt32.ofNat_toNat]

theorem UInt64.ofNat_mod (word : UInt64) : UInt64.ofNat (word.toNat % 256 ^ 8) = word := by
  rw [Nat.mod_eq_of_lt (by simpa using word.toNat_lt), UInt64.ofNat_toNat]

end Words

end RowStore
