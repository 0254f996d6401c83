import Mathlib
import RowStore.Proofs.Bytes.Parts
import RowStore.Proofs.Outcome
import RowStore.Proofs.Text.Bmp
import RowStore.Proofs.Text.Trimming
import RowStore.Value.Conversion

/-! Values of a column type are stored and read back.

A value that was parsed for a type is of that type, is stored in the size of the type or in no more
room than its text, and is decoded as the same value.
-/

namespace RowStore

theorem IntType.modulus_eq (type : IntType) : type.modulus = 256 ^ type.width.bytes := by
  obtain ⟨signed, width⟩ := type
  cases width <;> norm_num [modulus, IntWidth.size, IntWidth.bytes, UInt8.size, UInt16.size,
    UInt32.size, UInt64.size]

theorem IntType.pattern_lt (type : IntType) (value : type.Elem) :
    type.pattern value < 256 ^ type.width.bytes := by
  have positive : 0 < type.modulus := by
    rw [modulus_eq]
    exact Nat.pow_pos (by decide)
  rw [← modulus_eq, pattern]
  generalize type.modulus = modulus at positive ⊢
  have small := Int.emod_lt_of_pos value.val (b := (modulus : Int)) (by omega)
  omega

/-- A number in range is read back from the bytes that it was written in, whatever follows them. -/
theorem ByteOrder.readInteger_writeInteger (order : ByteOrder) {type : IntType} {value : Int}
    (holds : type.Holds value) (rest : Bytes) :
    order.readInteger type (order.writeInteger type value ++ rest) = .ok ⟨value, holds⟩ := by
  have wrapped : type.wrap value = ⟨value, holds⟩ := Subtype.ext (IntType.residue_of_holds holds)
  rw [readInteger, writeInteger, readWord_write_append, Nat.mod_eq_of_lt (IntType.pattern_lt ..),
    Except.map, IntType.ofPattern_pattern, wrapped]

namespace Instant

theorem ofParts?_parts (instant : Instant) :
    ofParts? instant.seconds instant.nanos = some instant := by
  rw [ofParts?, if_pos (Int.natCast_nonneg _), dif_pos instant.onCalendar,
    dif_pos (by simpa using instant.fraction)]
  rfl

theorem parts_of_ofParts? {seconds nanos : Int} {instant : Instant}
    (made : ofParts? seconds nanos = some instant) :
    instant.seconds = seconds ∧ (instant.nanos : Int) = nanos := by
  rw [ofParts?] at made
  split_ifs at made with nonnegative
  cases made
  exact ⟨rfl, Int.toNat_of_nonneg nonnegative⟩

end Instant

namespace ColumnType

variable {type : ColumnType} {order : ByteOrder} {value : Value} {encoded : Bytes}

theorem decode_boolean (value : Bool) :
    decodeBoolean [if value then 1 else 0] = .ok value := by
  cases value <;> rfl

theorem dateOfDay_day (date : Date) : dateOfDay date.day = .ok date := by
  rw [dateOfDay, Date.ofDay?, dif_pos date.inRange]

theorem instantOfParts_parts (instant : Instant) :
    instantOfParts instant.seconds instant.nanos = .ok instant := by
  rw [instantOfParts, instant.ofParts?_parts]

theorem decodeInstant_encode (order : ByteOrder) (instant : Instant) :
    decodeInstant order (order.writeInteger .int64 instant.seconds ++
      order.writeInteger .int32 instant.nanos) = .ok instant := by
  have seconds : IntType.int64.Holds instant.seconds := by
    have calendar := instant.onCalendar
    simp only [IntType.Holds, IntType.int64, IntType.least, IntType.greatest, IntWidth.size,
      UInt64.size, if_true]
    omega
  have nanos : IntType.int32.Holds instant.nanos := by
    have fraction := instant.fraction
    simp only [IntType.Holds, IntType.int32, IntType.least, IntType.greatest, IntWidth.size,
      UInt32.size, if_true]
    omega
  have eight : (order.writeInteger .int64 instant.seconds).length = 8 := order.length_write ..
  have four : (order.writeInteger .int32 instant.nanos).length = 4 := order.length_write ..
  have first := order.readInteger_writeInteger seconds []
  have second := order.readInteger_writeInteger nanos []
  rw [List.append_nil] at first second
  rw [decodeInstant, if_neg (by rw [List.length_append, eight, four]; decide),
    List.take_left' eight, List.drop_left' eight, List.take_of_length_le four.le, first, second]
  exact instantOfParts_parts instant

/-- A value of a type is read back from its stored form. A text of characters is a whole one. -/
theorem decode_encode (typed : value.type = type)
    (whole : ∀ window, value = .chars window → window = Window.ofList window.content)
    (written : type.encode order value = .ok encoded) :
    type.decode order encoded = .ok value := by
  subst typed
  cases value with
  | boolean value =>
      cases written
      rw [Value.type, decode, decode_boolean]
      rfl
  | integer type value =>
      rw [Value.type, encode, if_pos rfl] at written
      cases written
      have read := order.readInteger_writeInteger value.property []
      rw [List.append_nil] at read
      rw [Value.type, decode, read]
      rfl
  | single value =>
      cases written
      have read := order.readWord_write_append "u32" 4 value.bits.toNat []
      rw [List.append_nil] at read
      rw [Value.type, decode, read, Except.map, UInt32.ofNat_mod]
  | double value =>
      cases written
      have read := order.readWord_write_append "u64" 8 value.bits.toNat []
      rw [List.append_nil] at read
      rw [Value.type, decode, read, Except.map, UInt64.ofNat_mod]
  | date value =>
      cases written
      have holds : IntType.int64.Holds value.day := by
        have range := value.inRange
        simp only [IntType.Holds, IntType.int64, IntType.least, IntType.greatest, IntWidth.size,
          UInt64.size, if_true]
        omega
      have read := order.readInteger_writeInteger holds []
      rw [List.append_nil] at read
      rw [Value.type, decode, read]
      simp only [bind, Except.bind, dateOfDay_day]
  | instant value =>
      cases written
      rw [Value.type, decode, decodeInstant_encode]
      rfl
  | string value =>
      cases written
      rw [Value.type, decode, Text.Utf8.toString_ofString]
  | chars value =>
      rw [Value.type, encode] at written
      rw [Value.type, decode, Text.Bmp.decode_of_encode written, Except.map, ← whole value rfl]
  | bytes value =>
      cases written
      rfl
  | nothing =>
      cases written
      rfl

/-- What a field is parsed to. Date, instant and the numeric types may refuse it. -/
theorem parse_eq_ok [CalendarText] {text : List Char} (parsed : type.parse text = .ok value) :
    value.type = type ∧
      (type = .string → value = .string (String.ofList text)) ∧
      (type = .chars → value = .chars (Window.ofList text)) ∧
      (type = .bytes → ∃ bytes, value = .bytes bytes ∧ Text.readHex (Text.trim text) = .ok bytes) := by
  cases type with
  | boolean | integer | single | double =>
      obtain ⟨found, -, rfl⟩ := Outcome.map_eq_ok_iff.mp parsed
      exact ⟨rfl, by simp, by simp, by simp⟩
  | date | instant =>
      simp only [parse] at parsed
      split at parsed
      · cases parsed
        exact ⟨rfl, by simp, by simp, by simp⟩
      · contradiction
  | string | chars | nothing =>
      cases parsed
      exact ⟨rfl, by simp, by simp, by simp⟩
  | bytes =>
      obtain ⟨found, read, rfl⟩ := Outcome.map_eq_ok_iff.mp parsed
      exact ⟨rfl, by simp, by simp, fun _ => ⟨found, rfl, read⟩⟩

theorem length_hexPairs? {text : List Char} {bytes : Bytes}
    (read : Text.hexPairs? text = some bytes) :
    2 * bytes.length ≤ text.length := by
  match text with
  | [] | [_] =>
      cases read
      exact Nat.zero_le _
  | high :: low :: rest =>
      simp only [Text.hexPairs?, bind, Option.bind_eq_some_iff] at read
      obtain ⟨upper, -, lower, -, others, later, same⟩ := read
      cases same
      have short := length_hexPairs? later
      simp only [List.length_cons]
      omega
termination_by text.length

theorem length_readHex {text : List Char} {bytes : Bytes} (read : Text.readHex text = .ok bytes) :
    2 * bytes.length ≤ text.length := by
  rw [Text.readHex] at read
  split at read
  · contradiction
  · split at read
    · rename_i found
      cases read
      exact length_hexPairs? found
    · contradiction

theorem length_trim_le (text : List Char) : (Text.trim text).length ≤ text.length :=
  (core_sublist Text.isBlank text).length_le

theorem length_le_room (text : List Char) : text.length ≤
    (text.map Text.Bmp.encodedLength).sum := by
  induction text with
  | nil => exact Nat.le_refl 0
  | cons c text ih =>
      have here := Text.Bmp.encodedLength_pos c
      rw [List.map_cons, List.sum_cons, List.length_cons]
      omega

theorem encode_sized (order : ByteOrder) (typed : value.type = type) {size : Nat}
    (sized : type.size? = some size) :
    ∃ encoded, type.encode order value = .ok encoded ∧ encoded.length = size := by
  subst typed
  cases value with
  | boolean | single | double | date =>
      cases sized
      exact ⟨_, rfl, by simp [ByteOrder.writeInteger, IntType.int64, IntWidth.bytes]⟩
  | instant =>
      cases sized
      refine ⟨_, rfl, ?_⟩
      simp [ByteOrder.writeInteger, IntType.int64, IntType.int32, IntWidth.bytes]
  | integer type value =>
      cases sized
      refine ⟨order.writeInteger type value.val, ?_, order.length_write ..⟩
      rw [Value.type, encode, if_pos rfl]
  | string | chars | bytes | nothing => contradiction

/-- What a field is parsed to is stored in no more room than the characters of the field. -/
theorem encode_parsed [CalendarText] (order : ByteOrder) {text : List Char}
    (parsed : type.parse text = .ok value)
    (bmp : ∀ c ∈ text, Text.Bmp.IsBmp c) (unsized : type.size? = none) :
    ∃ encoded, type.encode order value = .ok encoded ∧
      encoded.length ≤ (text.map Text.Bmp.encodedLength).sum := by
  obtain ⟨typed, string, chars, bytes⟩ := parse_eq_ok parsed
  cases type with
  | boolean | integer | single | double | date | instant => contradiction
  | string =>
      obtain rfl := string rfl
      refine ⟨_, rfl, ?_⟩
      rw [Text.Utf8.ofString, String.toList_ofList, Text.Bmp.length_encode bmp]
  | chars =>
      obtain rfl := chars rfl
      refine ⟨Text.Utf8.encode text, ?_, (Text.Bmp.length_encode bmp).le⟩
      rw [encode, Window.content_ofList, Text.Bmp.encode_eq bmp]
  | bytes =>
      obtain ⟨found, rfl, read⟩ := bytes rfl
      have half := length_readHex read
      have trimmed := length_trim_le text
      have counted := length_le_room text
      exact ⟨found, rfl, by omega⟩
  | nothing => exact ⟨[], rfl, Nat.zero_le _⟩

end ColumnType

end RowStore
