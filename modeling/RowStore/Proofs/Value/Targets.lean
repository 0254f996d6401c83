import Mathlib
import RowStore.Environment
import RowStore.Proofs.Text.Counters
import RowStore.Proofs.Value.Integers
import RowStore.Proofs.Value.Inverse

/-! What converting a value comes to.

A conversion ends in a value of the target, which the target then stores in its size, or in a refusal
that tells of the value and not of the place where it was going to be stored. A boolean or an integer
keeps its number in an integer type just if it is in range there.
-/

namespace RowStore

namespace Outcome

variable {α β ε : Type} {kind : ε → Prop} {result first : Except ε α}

/-- If there is no answer, it is for a reason of a kind. -/
def Refuses (kind : ε → Prop) (result : Except ε α) : Prop :=
  ∀ reason, result = .error reason → kind reason

@[simp] theorem refuses_ok (answer : α) : Refuses kind (.ok answer) := by
  intro reason refused
  cases refused

@[simp] theorem refuses_error_iff {reason : ε} :
    Refuses kind (.error reason : Except ε α) ↔ kind reason := by
  simp [Refuses]

theorem Refuses.map (refuses : Refuses kind result) (change : α → β) :
    Refuses kind (result.map change) := by
  intro reason refused
  exact refuses reason (map_eq_error_iff.mp refused)

theorem Refuses.bind {next : α → Except ε β} (refuses : Refuses kind first)
    (later : ∀ found, Refuses kind (next found)) : Refuses kind (first >>= next) := by
  intro reason refused
  rcases bind_eq_error_iff.mp refused with here | ⟨found, -, there⟩
  · exact refuses reason here
  · exact later found reason there

end Outcome

open Outcome (Refuses refuses_ok)

/-- The errors that tell of a value alone. Where it stands or should be stored plays no part. -/
inductive Error.OfValue : Error → Prop
  | invalidBoolean (text : String) : OfValue (.invalidBoolean text)
  | malformedNumber (text : String) (flaw : NumberFlaw) : OfValue (.malformedNumber text flaw)
  | typeMismatch (column found : ColumnType) : OfValue (.typeMismatch column found)
  | nonBmp (codePoint : Nat) : OfValue (.nonBmp codePoint)
  | invalidTemporal (type : ColumnType) (text : String) : OfValue (.invalidTemporal type text)
  | trap (trap : Trap) : OfValue (.trap trap)

attribute [simp] Error.OfValue.invalidBoolean Error.OfValue.malformedNumber
  Error.OfValue.typeMismatch Error.OfValue.nonBmp Error.OfValue.invalidTemporal Error.OfValue.trap

section Refusals

variable (order : ByteOrder) (type : ColumnType) (value : Value) (text : List Char)

@[simp] theorem Text.ofValue_malformed (flaw : NumberFlaw) : (malformed text flaw).OfValue :=
  .malformedNumber _ _

@[simp] theorem Value.ofValue_mismatch : (mismatch type value).OfValue :=
  .typeMismatch _ _

theorem Text.refuses_readBoolean : Refuses Error.OfValue (readBoolean text) := by
  unfold readBoolean
  split
  · split_ifs <;> simp
  · simp

theorem Text.refuses_readInteger : Refuses Error.OfValue (readInteger text) := by
  by_cases integer : ∃ sign digits, text = sign ++ digits ∧ IsInteger sign digits
  · obtain ⟨sign, digits, rfl, integer⟩ := integer
    simp [readInteger_of_integer integer]
  · obtain ⟨flaw, refused⟩ := exists_flaw integer
    simp [refused]

theorem Text.refuses_readDecimal : Refuses Error.OfValue (readDecimal text) := by
  rcases readDecimal_cases text with ⟨-, ⟨number, read⟩ | trapped⟩ | ⟨-, ⟨flaw, refused⟩ | ⟨-, trapped⟩⟩
  · simp [read]
  · simp [trapped]
  · simp [refused]
  · simp [trapped]

theorem Text.refuses_readHex : Refuses Error.OfValue (readHex text) := by
  rw [readHex]
  split
  · simp
  · split <;> simp

theorem Text.Bmp.refuses_encode : Refuses Error.OfValue (encode text) := by
  by_cases beyond : ∃ c ∈ text, ¬ IsBmp c
  · obtain ⟨before, c, after, rfl, bmp, outside, -⟩ := exists_first_beyond beyond
    simp [encode_beyond bmp outside]
  · have bmp : ∀ c ∈ text, IsBmp c := by simpa using beyond
    simp [encode_eq bmp]

namespace ColumnType

theorem refuses_dateOfDay (day : Int) : Refuses Error.OfValue (dateOfDay day) := by
  rw [dateOfDay]
  split <;> simp

theorem refuses_instantOfParts (seconds nanos : Int) :
    Refuses Error.OfValue (instantOfParts seconds nanos) := by
  rw [instantOfParts]
  split <;> simp

theorem refuses_parse [CalendarText] : Refuses Error.OfValue (type.parse text) := by
  cases type with
  | boolean => exact (Text.refuses_readBoolean _).map _
  | integer type => exact (Text.refuses_readInteger _).map _
  | single => exact (Text.refuses_readDecimal _).map _
  | double => exact (Text.refuses_readDecimal _).map _
  | date =>
      simp only [parse]
      split <;> simp
  | instant =>
      simp only [parse]
      split <;> simp
  | bytes => exact (Text.refuses_readHex _).map _
  | string | chars | nothing => exact refuses_ok _

theorem refuses_encode : Refuses Error.OfValue (type.encode order value) := by
  unfold encode
  split
  case h_2 => split <;> simp
  case h_10 => exact Text.Bmp.refuses_encode _
  case h_11 => exact Text.Bmp.refuses_encode _
  all_goals simp

end ColumnType

namespace Value

theorem refuses_toCount : Refuses Error.OfValue (value.toCount type) := by
  rw [toCount]
  split
  · split <;> simp
  · simp

theorem refuses_toBoolean [CalendarText] : Refuses Error.OfValue value.toBoolean := by
  rw [toBoolean]
  split
  · split_ifs <;> simp
  · simp

theorem refuses_toInteger [CalendarText] (type : IntType) :
    Refuses Error.OfValue (value.toInteger type) := by
  rw [toInteger]
  split
  · split <;> simp
  · simp

theorem refuses_narrowDouble (number : Double) : Refuses Error.OfValue (narrowDouble number) := by
  unfold narrowDouble
  dsimp only
  split <;> simp

theorem refuses_toSingle : Refuses Error.OfValue value.toSingle := by
  unfold toSingle
  split
  · exact refuses_narrowDouble _
  · split <;> simp

theorem refuses_toDouble : Refuses Error.OfValue value.toDouble := by
  rw [toDouble]
  split <;> simp

theorem refuses_toDate : Refuses Error.OfValue value.toDate := by
  unfold toDate
  split
  · exact refuses_ok _
  · exact (refuses_toCount _ _).bind ColumnType.refuses_dateOfDay

theorem refuses_toInstant : Refuses Error.OfValue value.toInstant := by
  unfold toInstant
  split
  · exact ColumnType.refuses_instantOfParts _ _
  · exact (refuses_toCount _ _).bind fun seconds => ColumnType.refuses_instantOfParts seconds 0

theorem refuses_convertPlain [Host] [CalendarText] :
    Refuses Error.OfValue (value.convertPlain type) := by
  cases type with
  | string | chars | nothing => exact refuses_ok _
  | bytes => exact (ColumnType.refuses_encode _ _ _).map _
  | boolean => exact (refuses_toBoolean value).map _
  | integer type => exact (refuses_toInteger value type).map _
  | single => exact (refuses_toSingle value).map _
  | double => exact (refuses_toDouble value).map _
  | date => exact (refuses_toDate value).map _
  | instant => exact (refuses_toInstant value).map _

/-- A conversion is only refused for what the value is. -/
theorem refuses_convert [Host] [CalendarText] : Refuses Error.OfValue (value.convert type) := by
  unfold convert
  split
  · exact refuses_ok _
  · split
    · exact refuses_convertPlain _ _
    · exact refuses_convertPlain _ _
    · exact refuses_convertPlain _ _
    · exact ColumnType.refuses_parse _ _
    · exact ColumnType.refuses_parse _ _
    · exact refuses_convertPlain _ _

end Value

end Refusals

section Targets

/-- A value of a type is stored, in the size of the type if it has one. Only a text of characters may
have one that cannot be stored. -/
theorem ColumnType.encode_cases {type : ColumnType} (order : ByteOrder) {value : Value}
    (typed : value.type = type) :
    (∃ encoded, type.encode order value = .ok encoded ∧
        ∀ size, type.size? = some size → encoded.length = size) ∨
      type = .chars ∧ ∃ codePoint, type.encode order value = .error (.nonBmp codePoint) := by
  by_cases plane : ∀ window, value = .chars window → ∀ c ∈ window.content, Text.Bmp.IsBmp c
  · exact .inl (exists_encoded order typed plane)
  · push Not at plane
    obtain ⟨window, rfl, beyond⟩ := plane
    obtain ⟨before, c, after, content, bmp, outside, -⟩ := Text.Bmp.exists_first_beyond beyond
    subst typed
    refine .inr ⟨rfl, c.toNat, ?_⟩
    rw [Value.type, encode, content, Text.Bmp.encode_beyond bmp outside]

namespace Value

/-- The number that a boolean or an integer stands for. -/
inductive IsNumber : Value → Int → Prop
  | falsehood : IsNumber (.boolean false) 0
  | truth : IsNumber (.boolean true) 1
  | integer (type : IntType) (element : type.Elem) : IsNumber (.integer type element) element.val

variable {value : Value} {number : Int}

theorem IsNumber.toInteger [CalendarText] (stands : value.IsNumber number) (type : IntType) :
    value.toInteger type =
      if holds : type.Holds number then .ok ⟨number, holds⟩
      else .error (.malformedNumber value.text .outOfRange) := by
  have wide : value.wideInt? = some number := by cases stands <;> rfl
  rw [Value.toInteger, wide]
  by_cases holds : type.Holds number <;> simp [IntType.ofInt?, holds]

/-- A number is taken to an integer type as it is, or refused. -/
theorem IsNumber.convert [Host] [CalendarText] (stands : value.IsNumber number) (type : IntType) :
    value.convert (.integer type) =
      if holds : type.Holds number then .ok (.integer type ⟨number, holds⟩)
      else .error (.malformedNumber value.text .outOfRange) := by
  by_cases typed : value.type = .integer type
  · cases stands with
    | falsehood => cases typed
    | truth => cases typed
    | integer source element =>
        cases typed
        rw [dif_pos element.property]
        exact if_pos rfl
  · have plain : value.convert (.integer type) = (value.toInteger type).map (.integer type) := by
      unfold Value.convert
      rw [if_neg typed]
      cases stands <;> rfl
    rw [plain, stands.toInteger]
    by_cases holds : type.Holds number <;> simp [holds, Except.map]

/-- What a value is converted to is of the target type, which stores it in its size if it has one; only
a character beyond the plane is refused there. A boolean or an integer is converted to an integer type
just if its number is in range, and keeps it. -/
theorem convert_lands [Host] [CalendarText] (value : Value) :
    (∀ target converted, value.convert target = .ok converted → converted.type = target ∧
      ∀ order, (∃ encoded, target.encode order converted = .ok encoded ∧
          ∀ size, target.size? = some size → encoded.length = size) ∨
        target = .chars ∧ ∃ codePoint, target.encode order converted = .error (.nonBmp codePoint)) ∧
      ∀ number, value.IsNumber number → ∀ type : IntType,
        (∀ converted, value.convert (.integer type) = .ok converted ↔
          ∃ holds : type.Holds number, converted = .integer type ⟨number, holds⟩) ∧
        (value.convert (.integer type) = .error (.malformedNumber value.text .outOfRange) ↔
          ¬ type.Holds number) := by
  constructor
  · intro target converted done
    have typed := convert_type done
    exact ⟨typed, fun order => ColumnType.encode_cases order typed⟩
  · intro number stands type
    rw [stands.convert type]
    by_cases holds : type.Holds number
    · simp [holds, eq_comm]
    · simp [holds]

/-- A negative number is refused where there are none, and a truth value is stored as one. -/
theorem convert_lands_negative_and_true :
    (Value.integer .int8 ⟨-1, by decide⟩).convert (.integer .uint64) =
        .error (.malformedNumber "-1" .outOfRange) ∧
      (Value.boolean true).convert (.integer .uint64) = .ok (.integer .uint64 ⟨1, by decide⟩) ∧
      ∃ encoded, ColumnType.encode (.integer .uint64) .big (.integer .uint64 ⟨1, by decide⟩) =
        .ok encoded ∧ encoded.length = 8 := by
  obtain ⟨-, negative⟩ := convert_lands (.integer .int8 ⟨-1, by decide⟩)
  obtain ⟨lands, numbers⟩ := convert_lands (.boolean true)
  have one := ((numbers 1 .truth .uint64).1 _).mpr ⟨by decide, rfl⟩
  refine ⟨((negative (-1) (.integer _ _) .uint64).2).mpr (by decide), one, ?_⟩
  obtain ⟨-, stored⟩ := lands _ _ one
  rcases stored .big with ⟨encoded, written, sized⟩ | ⟨chars, -⟩
  · exact ⟨encoded, written, sized 8 rfl⟩
  · cases chars

end Value

end Targets

end RowStore
