import Mathlib
import RowStore.Proofs.Row.Sentinel

/-! Storing and decoding undo each other.

Every value of a type is decoded from what is stored of it, and every byte string of the size of its
type that is decoded is what is stored of the value. The two exceptions to the second law are `chars`,
which has more than one reading of a text, and `nothing`, which reads any bytes as nothing.
-/

namespace RowStore

theorem IntType.pattern_ofPattern {type : IntType} {word : Nat} (small : word < type.modulus) :
    type.pattern (type.ofPattern word) = word := by
  obtain ⟨signed, width⟩ := type
  revert small
  cases signed <;> cases width <;>
    simp only [pattern, ofPattern, wrap, residue, least, modulus, IntWidth.size, UInt8.size,
      UInt16.size, UInt32.size, UInt64.size, Bool.false_eq_true, if_true, if_false] <;>
    omega

namespace ByteOrder

variable {order : ByteOrder} {bytes : Bytes} {width : Nat}

theorem read_lt (order : ByteOrder) (bytes : Bytes) : order.read bytes < 256 ^ bytes.length := by
  cases order with
  | little => exact Bytes.toNat_lt bytes
  | big =>
      rw [read, ← List.length_reverse]
      exact Bytes.toNat_lt bytes.reverse

theorem write_of_readWord {reader : String} {word : Nat} (exact : bytes.length = width)
    (read : order.readWord reader width bytes = .ok word) :
    word < 256 ^ width ∧ order.write width word = bytes := by
  subst exact
  rw [readWord, if_neg (Nat.lt_irrefl _), List.take_length] at read
  cases read
  exact ⟨order.read_lt bytes, order.write_read bytes⟩

/-- Bytes that a number was read from are those it is written in. -/
theorem writeInteger_of_readInteger {type : IntType} {value : type.Elem}
    (exact : bytes.length = type.width.bytes) (read : order.readInteger type bytes = .ok value) :
    order.writeInteger type value.val = bytes := by
  obtain ⟨word, found, rfl⟩ := Outcome.map_eq_ok_iff.mp read
  obtain ⟨small, written⟩ := write_of_readWord exact found
  rw [← IntType.modulus_eq] at small
  have wrapped : type.wrap (type.ofPattern word).val = type.ofPattern word :=
    Subtype.ext (IntType.residue_of_holds (type.ofPattern word).property)
  rw [writeInteger, wrapped, IntType.pattern_ofPattern small, written]

end ByteOrder

namespace ColumnType

variable {type : ColumnType} {order : ByteOrder} {value : Value} {bytes : Bytes}

theorem encode_decodeBoolean {found : Bool} (exact : bytes.length = 1)
    (read : decodeBoolean bytes = .ok found) : [if found then 1 else 0] = bytes := by
  obtain ⟨byte, rfl⟩ := List.length_eq_one_iff.mp exact
  rw [decodeBoolean] at read
  split_ifs at read with zero one
  · cases read
    rw [zero]
    rfl
  · cases read
    rw [one]
    rfl

theorem day_of_dateOfDay {day : Int} {date : Date} (found : dateOfDay day = .ok date) :
    date.day = day := by
  rw [dateOfDay, Date.ofDay?] at found
  split_ifs at found
  cases found
  rfl

theorem parts_of_instantOfParts {seconds nanos : Int} {instant : Instant}
    (found : instantOfParts seconds nanos = .ok instant) :
    instant.seconds = seconds ∧ (instant.nanos : Int) = nanos := by
  rw [instantOfParts] at found
  split at found
  · rename_i made
    cases found
    exact Instant.parts_of_ofParts? made
  · cases found

theorem encode_decodeInstant {instant : Instant} (exact : bytes.length = 12)
    (read : decodeInstant order bytes = .ok instant) :
    order.writeInteger .int64 instant.seconds ++ order.writeInteger .int32 instant.nanos = bytes := by
  rw [decodeInstant, if_neg (by omega)] at read
  obtain ⟨seconds, first, read⟩ := Outcome.bind_eq_ok_iff.mp read
  obtain ⟨nanos, second, found⟩ := Outcome.bind_eq_ok_iff.mp read
  obtain ⟨same, same'⟩ := parts_of_instantOfParts found
  have eight : (bytes.take 8).length = IntType.int64.width.bytes := by
    rw [List.length_take, exact]
    rfl
  have four : ((bytes.drop 8).take 4).length = IntType.int32.width.bytes := by
    rw [List.length_take, List.length_drop, exact]
    rfl
  have all : (bytes.drop 8).take 4 = bytes.drop 8 := by
    rw [List.take_of_length_le]
    rw [List.length_drop, exact]
  rw [same, same', ByteOrder.writeInteger_of_readInteger eight first,
    ByteOrder.writeInteger_of_readInteger four second, all, List.take_append_drop]

/-- A value is stored as the bytes that it was decoded from. -/
theorem encode_of_decode (whole : type ≠ .chars) (something : type ≠ .nothing)
    (exact : ∀ size, type.size? = some size → bytes.length = size)
    (read : type.decode order bytes = .ok value) :
    value.type = type ∧ type.encode order value = .ok bytes := by
  cases type with
  | boolean =>
      obtain ⟨found, done, rfl⟩ := Outcome.map_eq_ok_iff.mp read
      exact ⟨rfl, congrArg Except.ok (encode_decodeBoolean (exact 1 rfl) done)⟩
  | integer type =>
      obtain ⟨found, done, rfl⟩ := Outcome.map_eq_ok_iff.mp read
      refine ⟨rfl, ?_⟩
      rw [encode, if_pos rfl, ByteOrder.writeInteger_of_readInteger (exact _ rfl) done]
  | single =>
      obtain ⟨word, done, rfl⟩ := Outcome.map_eq_ok_iff.mp read
      obtain ⟨small, written⟩ := ByteOrder.write_of_readWord (exact 4 rfl) done
      refine ⟨rfl, ?_⟩
      rw [encode, UInt32.toNat_ofNat_of_lt' small, written]
  | double =>
      obtain ⟨word, done, rfl⟩ := Outcome.map_eq_ok_iff.mp read
      obtain ⟨small, written⟩ := ByteOrder.write_of_readWord (exact 8 rfl) done
      refine ⟨rfl, ?_⟩
      rw [encode, UInt64.toNat_ofNat_of_lt' small, written]
  | date =>
      obtain ⟨day, done, later⟩ := Outcome.bind_eq_ok_iff.mp read
      obtain ⟨found, made, same⟩ := Outcome.bind_eq_ok_iff.mp later
      cases same
      refine ⟨rfl, ?_⟩
      rw [encode, day_of_dateOfDay made, ByteOrder.writeInteger_of_readInteger (exact 8 rfl) done]
  | instant =>
      obtain ⟨found, done, rfl⟩ := Outcome.map_eq_ok_iff.mp read
      exact ⟨rfl, congrArg Except.ok (encode_decodeInstant (exact 12 rfl) done)⟩
  | string =>
      rw [decode] at read
      cases done : Text.Utf8.toString bytes with
      | error flaw =>
          rw [done] at read
          contradiction
      | ok text =>
          rw [done] at read
          cases read
          exact ⟨rfl, congrArg Except.ok (Text.Utf8.ofString_of_toString done)⟩
  | bytes =>
      cases read
      exact ⟨rfl, rfl⟩
  | chars => exact absurd rfl whole
  | nothing => exact absurd rfl something

theorem exists_encoded (order : ByteOrder) (typed : value.type = type)
    (plane : ∀ window, value = .chars window → ∀ c ∈ window.content, Text.Bmp.IsBmp c) :
    ∃ encoded, type.encode order value = .ok encoded ∧
      ∀ size, type.size? = some size → encoded.length = size := by
  cases sized : type.size? with
  | some size =>
      obtain ⟨encoded, written, length⟩ := encode_sized order typed sized
      exact ⟨encoded, written, fun _ same => length.trans (Option.some.inj same)⟩
  | none =>
      subst typed
      cases value with
      | boolean | integer | single | double | date | instant => contradiction
      | string text => exact ⟨_, rfl, by simp⟩
      | chars window => exact ⟨_, Text.Bmp.encode_eq (plane window rfl), by simp⟩
      | bytes found => exact ⟨_, rfl, by simp⟩
      | nothing => exact ⟨_, rfl, by simp⟩

/-- A text of characters is stored by its content, so it is read back in a window of its own. -/
theorem decode_renewed {encoded : Bytes} (typed : value.type = type)
    (written : type.encode order value = .ok encoded) :
    type.decode order encoded = .ok value.renewed := by
  cases value with
  | chars window =>
      subst typed
      have renewed : encode .chars order (.chars (Window.ofList window.content)) = .ok encoded := by
        rw [encode, Window.content_ofList]
        exact written
      refine decode_encode rfl ?_ renewed
      rintro found ⟨⟩
      rw [Window.content_ofList]
  | boolean | integer | single | double | date | instant | string | bytes | nothing =>
      refine decode_encode typed ?_ written
      rintro window ⟨⟩

/-- Every value of a type is stored, in the size of the type if it has one, and decoded from that.
Except for the types that read several stored forms as one value, what is decoded from bytes of the
right size is stored as these bytes. -/
theorem stored_inverse (type : ColumnType) (order : ByteOrder) :
    (∀ value : Value, value.type = type →
      (∀ window, value = .chars window → ∀ c ∈ window.content, Text.Bmp.IsBmp c) →
      ∃ encoded, type.encode order value = .ok encoded ∧
        (∀ size, type.size? = some size → encoded.length = size) ∧
        type.decode order encoded = .ok value.renewed) ∧
    (type ≠ .chars → type ≠ .nothing → ∀ (bytes : Bytes) (value : Value),
      (∀ size, type.size? = some size → bytes.length = size) →
      type.decode order bytes = .ok value →
      value.type = type ∧ type.encode order value = .ok bytes) := by
  constructor
  · intro value typed plane
    obtain ⟨encoded, written, length⟩ := exists_encoded order typed plane
    exact ⟨encoded, written, length, decode_renewed typed written⟩
  · intro whole something bytes value exact read
    exact encode_of_decode whole something exact read

theorem stored_inverse_moved_window_and_leap_second :
    (∃ encoded, encode .chars .big (.chars ⟨['x', 'é', '€'], 0, 3, 1, 3, none⟩) = .ok encoded ∧
      (∀ size, size? .chars = some size → encoded.length = size) ∧
      decode .chars .big encoded = .ok (.chars (Window.ofList ['é', '€']))) ∧
    decode .instant .big [0, 0, 0, 0, 0, 0, 0, 59, 0x59, 0x68, 0x2F, 0] =
      .ok (.instant ⟨59, 1500000000, by decide, by decide⟩) ∧
    encode .instant .big (.instant ⟨59, 1500000000, by decide, by decide⟩) =
      .ok [0, 0, 0, 0, 0, 0, 0, 59, 0x59, 0x68, 0x2F, 0] :=
  have read : decode .instant .big [0, 0, 0, 0, 0, 0, 0, 59, 0x59, 0x68, 0x2F, 0] =
      .ok (.instant ⟨59, 1500000000, by decide, by decide⟩) := by decide +kernel
  have plane : ∀ window, Value.chars ⟨['x', 'é', '€'], 0, 3, 1, 3, none⟩ = .chars window →
      ∀ c ∈ window.content, Text.Bmp.IsBmp c := by
    rintro window ⟨⟩
    simp [Window.content, Text.Bmp.IsBmp]
  ⟨(stored_inverse .chars .big).1 _ rfl plane, read,
    ((stored_inverse .instant .big).2 (by decide) (by decide) _ _ (by rintro size ⟨⟩; rfl) read).2⟩

end ColumnType

end RowStore
