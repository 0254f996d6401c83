import Mathlib
import RowStore.Environment
import RowStore.Proofs.Row.Sentinel
import RowStore.Proofs.Text.Digits
import RowStore.Value.Conversion

/-! Values and their texts.

Every value has a text, and a text is read by the grammar of the type that is asked for. Booleans,
integers, bytes and texts are read back from what is written of them. The numbers of 64 bits are no
exception, although reading an integer counts modulo 2 ^ 64.
-/

namespace RowStore

namespace Text

section Integers

theorem splitSign_toString (value : Int) :
    splitSign (toString value).toList = (decide (value < 0), Nat.toDigits 10 value.natAbs) := by
  have written : toString value =
      if 0 ≤ value then value.toNat.repr else "-" ++ (-value).toNat.repr := Int.repr_eq_if
  rw [written]
  by_cases nonnegative : 0 ≤ value
  · have number : value.toNat = value.natAbs := by omega
    rw [if_pos nonnegative, Nat.repr_eq_ofList_toDigits, String.toList_ofList, number,
      decide_eq_false (not_lt.mpr nonnegative)]
    exact splitSign_digits (.inl rfl) (isDigits_toDigits _)
  · have number : (-value).toNat = value.natAbs := by omega
    have sign : "-".toList = ['-'] := rfl
    rw [if_neg nonnegative, Nat.repr_eq_ofList_toDigits, String.toList_append, sign,
      String.toList_ofList, number, decide_eq_true (not_le.mp nonnegative)]
    rfl

theorem integerValue_toString (value : Int) : integerValue (toString value).toList = value := by
  simp only [integerValue, splitSign_toString, digitsValue_toDigits, decide_eq_true_eq]
  split_ifs <;> omega

theorem isDigits_toString (value : Int) : IsDigits (splitSign (toString value).toList).2 := by
  rw [splitSign_toString]
  exact isDigits_toDigits _

theorem readInteger_toString (value : Int) :
    readInteger (toString value).toList = .ok (Int64.ofInt value) := by
  have some : (splitSign (toString value).toList).2 ≠ [] := by
    rw [splitSign_toString]
    exact Nat.toDigits_ne_nil
  rw [readInteger_digits (isDigits_toString value) some, integerValue_toString]

end Integers

section Bytes

theorem hexDigit_read : ∀ value < 16,
    hexValue? (Bytes.hexDigit value) = some value ∧ isBlank (Bytes.hexDigit value) = false := by
  decide

theorem toList_hex (bytes : Bytes) : bytes.hex.toList = bytes.flatMap fun byte =>
    [Bytes.hexDigit (byte.toNat / 16), Bytes.hexDigit (byte.toNat % 16)] := String.toList_ofList

theorem halves (byte : UInt8) : byte.toNat / 16 < 16 ∧ byte.toNat % 16 < 16 := by
  have small := byte.toNat_lt
  omega

theorem hexPairs?_hex (bytes : Bytes) : hexPairs? bytes.hex.toList = some bytes := by
  rw [toList_hex]
  induction bytes with
  | nil => rfl
  | cons byte bytes ih =>
      obtain ⟨high, low⟩ := halves byte
      rw [List.flatMap_cons, List.cons_append, List.cons_append, List.nil_append, hexPairs?,
        (hexDigit_read _ high).1, (hexDigit_read _ low).1, ih]
      simp only [Option.bind_eq_bind, Option.bind_some, Nat.div_add_mod, UInt8.ofNat_toNat]

theorem readHex_hex (bytes : Bytes) : readHex bytes.hex.toList = .ok bytes := by
  have even : bytes.hex.toList.length % 2 = 0 := by
    rw [toList_hex, List.length_flatMap]
    simp
  rw [readHex, if_neg (not_not_intro even), hexPairs?_hex]

theorem isBlank_of_mem_hex {bytes : Bytes} {c : Char} (mem : c ∈ bytes.hex.toList) :
    isBlank c = false := by
  rw [toList_hex, List.mem_flatMap] at mem
  obtain ⟨byte, -, mem⟩ := mem
  obtain ⟨high, low⟩ := halves byte
  rcases List.mem_pair.mp mem with rfl | rfl
  · exact (hexDigit_read _ high).2
  · exact (hexDigit_read _ low).2

end Bytes

end Text

namespace Value

theorem convert_string [Host] [CalendarText] (value : Value) :
    value.convert .string = .ok (.string value.text) := by
  cases value <;> rfl

/-- A text is converted by reading it. -/
theorem convert_of_string [Host] [CalendarText] (text : String) (type : ColumnType) :
    (Value.string text).convert type = type.parse text.toList := by
  cases type with
  | string => exact congrArg (Except.ok ∘ string) (String.ofList_toList).symm
  | boolean | integer | single | double | date | instant | chars | bytes | nothing => rfl

/-- The text of a value that is no decimal, no date and no instant is read back as the value. -/
theorem parse_text [CalendarText] (value : Value)
    (exact : value.type ∉ [.single, .double, .date, .instant]) :
    value.type.parse value.text.toList = .ok value.renewed := by
  cases value with
  | boolean value =>
      have read : Text.readBoolean (Text.trim (if value then "true" else "false").toList) =
          .ok value := by
        cases value <;> decide
      rw [Value.type, text, ColumnType.parse, read]
      rfl
  | integer type value =>
      rw [Value.type, text, ColumnType.parse,
        Text.trim_eq_self (Text.isBlank_of_mem_integer (Text.isDigits_toString value.val)),
        Text.readInteger_toString]
      simp only [Except.map, IntType.wrap_toInt_ofInt, IntType.wrap_of_holds value.property]
      rfl
  | string value => exact congrArg (Except.ok ∘ string) String.ofList_toList
  | chars window => exact congrArg (Except.ok ∘ chars ∘ Window.ofList) String.toList_ofList
  | bytes value =>
      rw [Value.type, text, ColumnType.parse, Text.trim_eq_self fun _ => Text.isBlank_of_mem_hex,
        Text.readHex_hex]
      rfl
  | nothing => rfl
  | single | double | date | instant => simp [Value.type] at exact

theorem renewed_eq_self {value : Value}
    (fresh : ∀ window, value = .chars window → ∃ elements, window = Window.ofList elements) :
    value.renewed = value := by
  cases value with
  | chars window =>
      obtain ⟨elements, rfl⟩ := fresh window rfl
      rw [renewed, Window.content_ofList]
  | _ => rfl

/-- Every value has its text as a string, and the text of a boolean, an integer of any type, bytes,
a string, characters or nothing has the value. A window over characters comes back as a new one over
its content, so a window that is new comes back as it was. -/
theorem convert_text_back [Host] [CalendarText] (value : Value)
    (exact : value.type ∉ [.single, .double, .date, .instant]) :
    value.convert .string = .ok (.string value.text) ∧
      (Value.string value.text).convert value.type = .ok value.renewed ∧
      ((∀ window, value = .chars window → ∃ elements, window = Window.ofList elements) →
        value.renewed = value) := by
  refine ⟨convert_string value, ?_, renewed_eq_self⟩
  rw [convert_of_string, parse_text value exact]

/-- The greatest number of 64 bits without a sign, and characters with white space around them. -/
theorem convert_text_back_greatest_and_blank :
    (Value.string "18446744073709551615").convert (.integer .uint64) =
        .ok (.integer .uint64 ⟨18446744073709551615, by decide⟩) ∧
      (Value.string " a\t").convert .chars = .ok (.chars (Window.ofList [' ', 'a', '\t'])) := by
  obtain ⟨-, number, -⟩ :=
    convert_text_back (.integer .uint64 ⟨18446744073709551615, by decide⟩) (by decide)
  obtain ⟨-, blank, renewed⟩ :=
    convert_text_back (.chars (Window.ofList [' ', 'a', '\t'])) (by decide)
  rw [renewed (by rintro window ⟨⟩; exact ⟨_, rfl⟩)] at blank
  exact ⟨number, blank⟩

end Value

end RowStore
