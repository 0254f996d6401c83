import Mathlib
import RowStore.Csv.Field
import RowStore.Proofs.Csv.Lines
import RowStore.Proofs.Text.Utf8

/-! Fields written into lines.

A field stands in a line when scanning it neither divides nor ends the line and leaves no quote and
no escape open. Fields that stand, with commas between them, are just the fields that are found when
the line is read.
-/

namespace RowStore.Csv

section Quoting

variable {quoting : Quoting} {byte : UInt8} {rest : Bytes}

theorem Quoting.settled_iff : quoting.settled = true ↔ quoting = .plain := by
  obtain ⟨escaped, single, double⟩ := quoting
  cases escaped <;> cases single <;> cases double <;> decide

namespace Field

theorem standsFrom_cons :
    standsFrom quoting (byte :: rest) = true ↔
      ¬ (byte = comma ∧ quoting.settled = true) ∧
      ¬ (isLineBreak byte = true ∧ quoting.escaped = false) ∧
      standsFrom (quoting.step byte) rest = true := by
  rw [standsFrom, Quoting.settled]
  cases escaped : quoting.escaped with
  | true => simp
  | false =>
      cases breaks : isLineBreak byte with
      | true => simp
      | false =>
          by_cases divides : byte = comma ∧ quoting.outside = true
          · simp [divides]
          · have content : (decide (byte = comma) && quoting.outside) = false := by
              simpa using divides
            simp [content, divides]

end Field

end Quoting

section Standing

open Csv.Field (standsFrom)

variable {bytes field rest : Bytes} {origin start stop : Nat}

theorem slice_cons {byte : UInt8} (below : start < stop) (found : bytes[start]? = some byte) :
    slice bytes ⟨start, stop⟩ = byte :: slice bytes ⟨start + 1, stop⟩ := by
  obtain ⟨inside, rfl⟩ := List.getElem?_eq_some_iff.mp found
  have length : stop - start = stop - (start + 1) + 1 := by omega
  simp only [slice, Span.length]
  rw [List.drop_eq_getElem_cons inside, length, List.take_succ_cons]

/-- The bytes between two offsets stand when nothing divides or ends the line in them, nor is
anything open behind them. -/
theorem standsFrom_slice_iff (started : origin ≤ start) (ordered : start ≤ stop)
    (inside : stop ≤ bytes.length) :
    standsFrom (quotingAt bytes origin start) (slice bytes ⟨start, stop⟩) = true ↔
      (quotingAt bytes origin stop).settled = true ∧ ∀ offset, start ≤ offset → offset < stop →
        ¬ DividesAt bytes origin offset ∧ ¬ EndsAt bytes origin offset := by
  generalize size : stop - start = length
  induction length generalizing start with
  | zero =>
      obtain rfl : start = stop := by omega
      have empty : slice bytes ⟨start, start⟩ = [] := by simp [slice, Span.length]
      rw [empty, standsFrom]
      refine ⟨fun settled => ⟨settled, fun offset lower upper => ?_⟩, fun both => both.1⟩
      omega
  | succ length ih =>
      have found := List.getElem?_eq_getElem (show start < bytes.length by omega)
      have later := ih (Nat.le_succ_of_le started) (show start + 1 ≤ stop by omega) (by omega)
      rw [quotingAt_succ started found] at later
      rw [slice_cons (by omega) found, Field.standsFrom_cons, later]
      have divides : DividesAt bytes origin start ↔
          bytes[start] = comma ∧ (quotingAt bytes origin start).settled = true := by
        rw [DividesAt, found, Option.some.injEq]
      have ends : EndsAt bytes origin start ↔
          isLineBreak bytes[start] = true ∧ (quotingAt bytes origin start).escaped = false := by
        rw [EndsAt, found]
        simp only [Option.some.injEq, exists_eq_left']
      rw [← divides, ← ends]
      constructor
      · rintro ⟨undivided, unended, settled, others⟩
        refine ⟨settled, fun offset lower upper => ?_⟩
        rcases Nat.eq_or_lt_of_le lower with rfl | behind
        · exact ⟨undivided, unended⟩
        · exact others offset behind upper
      · rintro ⟨settled, all⟩
        obtain ⟨undivided, unended⟩ := all start (Nat.le_refl _) (by omega)
        refine ⟨undivided, unended, settled, fun offset lower upper => ?_⟩
        exact all offset (by omega) upper

theorem slice_of_drop (split : bytes.drop start = field ++ rest) :
    slice bytes ⟨start, start + field.length⟩ = field := by
  rw [slice, split, Span.length, Nat.add_sub_cancel_left, List.take_left]

theorem add_length_le (inside : start ≤ bytes.length) (split : bytes.drop start = field ++ rest) :
    start + field.length ≤ bytes.length := by
  have length := congrArg List.length split
  rw [List.length_drop, List.length_append] at length
  omega

theorem getElem?_behind {byte : UInt8} (split : bytes.drop start = field ++ byte :: rest) :
    bytes[start + field.length]? = some byte ∧
      bytes.drop (start + field.length + 1) = rest := by
  constructor
  · rw [← List.getElem?_drop, split, List.getElem?_append_right (Nat.le_refl _), Nat.sub_self]
    rfl
  · rw [Nat.add_assoc, ← List.drop_drop, split, ← List.drop_drop, List.drop_left]
    rfl

/-- A field that stands where nothing is open leaves nothing open. -/
theorem stands_at (started : origin ≤ start) (inside : start ≤ bytes.length)
    (split : bytes.drop start = field ++ rest) (plain : quotingAt bytes origin start = .plain)
    (stands : standsFrom .plain field = true) :
    quotingAt bytes origin (start + field.length) = .plain ∧
      ∀ offset, start ≤ offset → offset < start + field.length →
        ¬ DividesAt bytes origin offset ∧ ¬ EndsAt bytes origin offset := by
  have within := add_length_le inside split
  rw [← plain, ← slice_of_drop split,
    standsFrom_slice_iff started (Nat.le_add_right _ _) within] at stands
  exact ⟨Quoting.settled_iff.mp stands.1, stands.2⟩

end Standing

section Joining

open Csv.Field (standsFrom)
open Line (IsSplit IsEnd FoundAt)

variable {bytes rest : Bytes} {origin offset : Nat} {fields : List Bytes}

/-- Where fields stand in a line that starts at an offset, with one byte between any two. -/
def spansFrom (offset : Nat) : List Bytes → List Span
  | [] => []
  | field :: rest => ⟨offset, offset + field.length⟩ :: spansFrom (offset + field.length + 1) rest

theorem slices_spansFrom (split : bytes.drop offset = [comma].intercalate fields ++ rest) :
    (spansFrom offset fields).map (slice bytes) = fields := by
  induction fields generalizing offset with
  | nil => rfl
  | cons field others ih =>
      cases others with
      | nil =>
          rw [List.intercalate_singleton] at split
          rw [spansFrom, List.map_cons, slice_of_drop split]
          rfl
      | cons second others =>
          rw [List.intercalate_cons_cons, List.append_assoc, List.append_assoc,
            List.singleton_append] at split
          rw [spansFrom, List.map_cons, slice_of_drop split, ih (getElem?_behind split).2]

theorem isSplit_intercalate (started : origin ≤ offset) (inside : offset ≤ bytes.length)
    (split : bytes.drop offset = [comma].intercalate fields ++ rest)
    (ends : ∀ byte ∈ rest.head?, isLineBreak byte = true) (nonempty : fields ≠ [])
    (stands : ∀ field ∈ fields, standsFrom .plain field = true)
    (plain : quotingAt bytes origin offset = .plain) :
    IsSplit bytes bytes.length origin offset ⟨spansFrom offset fields,
      offset + ([comma].intercalate fields).length + (rest.take 1).length⟩ := by
  induction fields generalizing offset with
  | nil => exact absurd rfl nonempty
  | cons field others ih =>
      obtain ⟨here, later⟩ := List.forall_mem_cons.mp stands
      cases others with
      | nil =>
          rw [List.intercalate_singleton] at split ⊢
          obtain ⟨closed, whole⟩ := stands_at started inside split plain here
          refine .single (Nat.le_add_right _ _) whole ?_
          cases rest with
          | nil =>
              have last : offset + field.length = bytes.length := by
                have length := congrArg List.length split
                rw [List.length_drop, List.append_nil] at length
                omega
              exact .inl ⟨last, last⟩
          | cons byte rest =>
              obtain ⟨found, -⟩ := getElem?_behind split
              refine .inr ⟨(List.getElem?_eq_some_iff.mp found).1, ⟨⟨byte, found, ?_⟩, ?_⟩, rfl⟩
              · exact ends byte rfl
              · rw [closed]
                rfl
      | cons second others =>
          rw [List.intercalate_cons_cons, List.append_assoc, List.append_assoc,
            List.singleton_append] at split
          obtain ⟨closed, whole⟩ := stands_at started inside split plain here
          obtain ⟨found, next⟩ := getElem?_behind split
          have divides : DividesAt bytes origin (offset + field.length) := by
            refine ⟨found, ?_⟩
            rw [closed]
            rfl
          have reached : quotingAt bytes origin (offset + field.length + 1) = .plain := by
            rw [quotingAt_succ (by omega) found, closed]
            rfl
          have more := ih (by omega) (List.getElem?_eq_some_iff.mp found).1 next
            (List.cons_ne_nil _ _) later reached
          have length : offset + ([comma].intercalate (field :: second :: others)).length =
              offset + field.length + 1 + ([comma].intercalate (second :: others)).length := by
            rw [List.intercalate_cons_cons, List.length_append, List.length_append,
              List.length_singleton]
            omega
          rw [length]
          exact .cons (Nat.le_add_right _ _) whole divides more

/-- Unless there is only an empty field, a line of fields starts with its first byte. -/
theorem start?_intercalate (split : bytes.drop offset = [comma].intercalate fields ++ rest)
    (nonempty : fields ≠ []) (content : fields ≠ [[]])
    (stands : ∀ field ∈ fields.head?, standsFrom .plain field = true) :
    Line.start? bytes offset bytes.length = some offset := by
  have head : ∃ byte tail, [comma].intercalate fields = byte :: tail ∧
      ¬ isLineBreak byte = true := by
    cases fields with
    | nil => exact absurd rfl nonempty
    | cons field others =>
        cases field with
        | nil =>
            cases others with
            | nil => exact absurd rfl content
            | cons second others => exact ⟨comma, _, List.intercalate_cons_cons, by decide⟩
        | cons byte field =>
            obtain ⟨-, unended, -⟩ := Field.standsFrom_cons.mp (stands _ rfl)
            have quiet : ¬ isLineBreak byte = true := fun breaks => unended ⟨breaks, rfl⟩
            cases others with
            | nil => exact ⟨byte, field, List.intercalate_singleton, quiet⟩
            | cons second others => exact ⟨byte, _, List.intercalate_cons_cons, quiet⟩
  obtain ⟨byte, tail, same, quiet⟩ := head
  rw [Line.start?_eq (Nat.le_refl _), List.take_length, split, same, List.cons_append,
    List.dropWhile_cons_of_neg quiet, List.takeWhile_cons_of_neg quiet,
    if_neg (List.cons_ne_nil _ _)]
  rfl

theorem foundAt_intercalate (inside : offset ≤ bytes.length)
    (split : bytes.drop offset = [comma].intercalate fields ++ rest)
    (ends : ∀ byte ∈ rest.head?, isLineBreak byte = true) (nonempty : fields ≠ [])
    (content : fields ≠ [[]]) (stands : ∀ field ∈ fields, standsFrom .plain field = true) :
    FoundAt bytes offset ⟨spansFrom offset fields,
      offset + ([comma].intercalate fields).length + (rest.take 1).length⟩ := by
  refine ⟨offset, start?_intercalate split nonempty content ?_, ?_⟩
  · intro field first
    exact stands field (List.mem_of_mem_head? first)
  · exact isSplit_intercalate (Nat.le_refl _) inside split ends nonempty stands quotingAt_origin

/-- Between two fields that stand, just the fields that stand are read back. -/
theorem standsFrom_iff_foundAt {left field right : Bytes}
    (standsLeft : standsFrom .plain left = true) (standsRight : standsFrom .plain right = true) :
    standsFrom .plain field = true ↔ ∃ first middle last next,
      FoundAt ([comma].intercalate [left, field, right]) 0 ⟨[first, middle, last], next⟩ ∧
        slice ([comma].intercalate [left, field, right]) middle = field := by
  generalize joined : [comma].intercalate [left, field, right] = bytes
  have whole : bytes.drop 0 = [comma].intercalate [left, field, right] ++ [] := by
    rw [joined, List.drop_zero, List.append_nil]
  have split : bytes.drop 0 = left ++ comma :: (field ++ comma :: right) := by
    rw [whole, List.intercalate_cons_cons, List.intercalate_cons_cons, List.intercalate_singleton]
    simp
  obtain ⟨found, behind⟩ := getElem?_behind split
  constructor
  · intro stands
    refine ⟨_, _, _, _, foundAt_intercalate (Nat.zero_le _) whole (by simp) (List.cons_ne_nil _ _)
      (by simp) (by simp [standsLeft, stands, standsRight]), ?_⟩
    exact slice_of_drop behind
  · rintro ⟨first, middle, last, next, ⟨origin, started, fields⟩, same⟩
    have started' := start?_intercalate whole (List.cons_ne_nil _ _) (by simp) (by simpa)
    obtain rfl : 0 = origin := Option.some.inj (started'.symm.trans started)
    obtain ⟨closed, unbroken⟩ :=
      stands_at (Nat.le_refl 0) (Nat.zero_le _) split quotingAt_origin standsLeft
    obtain ⟨-, -, quiet, ⟨alone, -⟩ | ⟨divides, fields'⟩⟩ := fields.uncons
    · cases alone
    obtain ⟨starts, ordered, quiet', ⟨alone, -⟩ | ⟨divides', -⟩⟩ := fields'.uncons
    · cases alone
    -- The first field ends at the first comma that divides, which is the one behind `left`.
    have stop : first.stop = 0 + left.length := by
      rcases Nat.lt_trichotomy first.stop (0 + left.length) with before | at' | after
      · exact absurd divides (unbroken first.stop (Nat.zero_le _) before).1
      · exact at'
      · have divides'' : DividesAt bytes 0 (0 + left.length) := by
          refine ⟨found, ?_⟩
          rw [closed]
          rfl
        refine absurd divides'' (quiet _ ?_ after).1
        rw [fields.first first rfl]
        exact Nat.zero_le _
    have plain : quotingAt bytes 0 middle.start = .plain := by
      rw [starts, stop, quotingAt_succ (Nat.zero_le _) found, closed]
      rfl
    have stands := (standsFrom_slice_iff (Nat.zero_le _) ordered fields'.stop_le_bound).mpr
      ⟨divides'.2, quiet'⟩
    rw [plain] at stands
    exact same ▸ stands

end Joining

section Texts

open Csv.Field (standsFrom stands needsEscape escaped render renderLine)
open Text.Utf8 (ofString)

variable {quoting : Quoting} {field rest : Bytes} {text : String}

/-- Bytes that open nothing and break no line are passed over, where they hold no comma that
divides. -/
theorem standsFrom_quiet (unescaped : quoting.escaped = false)
    (quiet : ∀ byte ∈ field, byte ≠ 0x22 ∧ byte ≠ 0x27 ∧ byte ≠ 0x5C ∧ isLineBreak byte = false)
    (undivided : comma ∈ field → quoting.outside = false) (rest : Bytes) :
    standsFrom quoting (field ++ rest) = standsFrom quoting rest := by
  induction field with
  | nil => rfl
  | cons byte field ih =>
      obtain ⟨⟨double, single, escape, breaks⟩, later⟩ := List.forall_mem_cons.mp quiet
      have step : quoting.step byte = quoting := by
        rw [Quoting.step, unescaped, if_neg Bool.false_ne_true, if_neg double, if_neg single,
          if_neg escape]
      have content : (decide (byte = comma) && quoting.outside) = false := by
        rw [Bool.and_eq_false_imp, decide_eq_true_iff]
        rintro rfl
        exact undivided List.mem_cons_self
      rw [List.cons_append, standsFrom, unescaped, breaks, content, step]
      exact ih later fun mem => undivided (List.mem_cons_of_mem _ mem)

theorem quiet_of_needsEscape {c : Char} (plain : needsEscape c = false) :
    ∀ byte ∈ String.utf8EncodeChar c,
      byte ≠ 0x22 ∧ byte ≠ 0x27 ∧ byte ≠ 0x5C ∧ isLineBreak byte = false := by
  intro byte mem
  have ascii {special : UInt8} (small : special.toNat < 0x80)
      (needs : needsEscape (Char.ofNat special.toNat) = true) : byte ≠ special := by
    rintro rfl
    rw [← Text.Utf8.eq_of_mem_encodeChar mem small, plain] at needs
    contradiction
  refine ⟨ascii (by decide) (by decide), ascii (by decide) (by decide),
    ascii (by decide) (by decide), ?_⟩
  have feed : byte ≠ 0x0A := ascii (by decide) (by decide)
  have carriage : byte ≠ 0x0D := ascii (by decide) (by decide)
  simp [isLineBreak, feed, carriage]

theorem stands_of_plain (plain : ∀ c ∈ text.toList, needsEscape c = false ∧ c ≠ ',') :
    stands text = true := by
  have passed : standsFrom .plain (ofString text ++ []) = standsFrom .plain [] := by
    apply standsFrom_quiet rfl
    · intro byte mem
      obtain ⟨c, known, inside⟩ := Text.Utf8.mem_encode.mp mem
      exact quiet_of_needsEscape (plain c known).1 byte inside
    · intro mem
      obtain ⟨c, known, inside⟩ := Text.Utf8.mem_encode.mp mem
      exact absurd (Text.Utf8.eq_of_mem_encodeChar inside (by decide)) (plain c known).2
  rw [List.append_nil] at passed
  rw [stands, passed]
  rfl

theorem standsFrom_escaped (chars : List Char) (rest : Bytes) :
    standsFrom ⟨false, false, true⟩ (Text.Utf8.encode (escaped chars) ++ rest) =
      standsFrom ⟨false, false, true⟩ rest := by
  induction chars with
  | nil => rfl
  | cons c chars ih =>
      have split : escaped (c :: chars) =
          (if needsEscape c then ['\\', c] else [c]) ++ escaped chars := rfl
      rw [split, Text.Utf8.encode_append, List.append_assoc, ← ih]
      cases needs : needsEscape c with
      | false =>
          have single : Text.Utf8.encode [c] = String.utf8EncodeChar c := List.flatMap_singleton ..
          rw [if_neg Bool.false_ne_true, single]
          exact standsFrom_quiet rfl (quiet_of_needsEscape needs) (fun _ => rfl) _
      | true =>
          have special : c = '\\' ∨ c = '"' ∨ c = '\'' ∨ c = '\n' ∨ c = '\r' := by
            simpa [needsEscape, or_assoc] using needs
          rcases special with rfl | rfl | rfl | rfl | rfl <;> rfl

/-- Whatever its text, a field that was written stands. -/
theorem stands_render (text : String) : stands (render text) = true := by
  rw [render]
  cases verbatim : stands text with
  | true => exact verbatim
  | false =>
      have quoted : ofString (String.ofList ('"' :: escaped text.toList ++ ['"'])) =
          0x22 :: (Text.Utf8.encode (escaped text.toList) ++ [0x22]) := by
        rw [ofString, String.toList_ofList, Text.Utf8.encode_append]
        rfl
      have opened : standsFrom .plain (0x22 :: (Text.Utf8.encode (escaped text.toList) ++ [0x22])) =
          standsFrom ⟨false, false, true⟩ (Text.Utf8.encode (escaped text.toList) ++ [0x22]) := rfl
      rw [if_neg Bool.false_ne_true, stands, quoted, opened, standsFrom_escaped]
      rfl

theorem render_eq_self_iff : render text = text ↔ stands text = true := by
  constructor
  · intro same
    rw [← same]
    exact stands_render text
  · intro stands
    rw [render, if_pos stands]

theorem ofString_renderLine (texts : List String) :
    ofString (renderLine texts) =
      [comma].intercalate (texts.map fun text => ofString (render text)) := by
  have split : texts.map (fun text => ofString (render text)) = (texts.map render).map ofString := by
    rw [List.map_map]
    rfl
  rw [renderLine, split]
  generalize texts.map render = fields
  induction fields with
  | nil => rfl
  | cons field others ih =>
      cases others with
      | nil =>
          rw [String.intercalate_singleton, List.map_singleton, List.intercalate_singleton]
      | cons second others =>
          simp only [List.map_cons] at ih
          simp only [String.intercalate_cons_cons, Text.Utf8.ofString_append, ih, List.map_cons,
            List.intercalate_cons_cons]
          rfl

theorem ofString_eq_nil_iff : ofString text = [] ↔ text = "" := by
  constructor
  · intro empty
    cases chars : text.toList with
    | nil => exact String.toList_injective chars
    | cons c chars' =>
        rw [ofString, chars, Text.Utf8.encode, List.flatMap_cons, List.append_eq_nil_iff] at empty
        exact absurd empty.1 (Text.Utf8.encodeChar_ne_nil c)
  · rintro rfl
    rfl

theorem render_eq_empty_iff : render text = "" ↔ text = "" := by
  constructor
  · intro empty
    rw [← empty, eq_comm, render_eq_self_iff]
    cases verbatim : stands text with
    | true => rfl
    | false =>
        rw [render, if_neg (by rw [verbatim]; exact Bool.false_ne_true)] at empty
        have chars := congrArg String.toList empty
        rw [String.toList_ofList] at chars
        cases chars
  · rintro rfl
    rfl

/-- The line of some texts is found where it is written, unless it is empty. It ends with the bytes or
at a line break. -/
theorem foundAt_renderLine_of_ends {bytes : Bytes} {offset : Nat} {texts : List String}
    (inside : offset ≤ bytes.length) (split : bytes.drop offset = ofString (renderLine texts) ++ rest)
    (ends : ∀ byte ∈ rest.head?, isLineBreak byte = true) (nonempty : texts ≠ [])
    (content : texts ≠ [""]) :
    ∃ line, Line.FoundAt bytes offset line ∧
      line.fields.map (slice bytes) = texts.map (fun text => ofString (render text)) ∧
      line.stop = offset + (ofString (renderLine texts)).length + (rest.take 1).length := by
  rw [ofString_renderLine] at split ⊢
  refine ⟨_, foundAt_intercalate inside split ends ?_ ?_ ?_, slices_spansFrom split, rfl⟩
  · rw [Ne, List.map_eq_nil_iff]
    exact nonempty
  · intro alone
    apply content
    obtain ⟨text, rfl, empty⟩ := List.map_eq_singleton_iff.mp alone
    rw [ofString_eq_nil_iff, render_eq_empty_iff] at empty
    rw [empty]
  · intro field mem
    obtain ⟨text, -, rfl⟩ := List.mem_map.mp mem
    exact stands_render text

theorem foundAt_renderLine {bytes : Bytes} {offset : Nat} {texts : List String}
    (inside : offset ≤ bytes.length)
    (split : bytes.drop offset = ofString (renderLine texts) ++ 0x0A :: rest)
    (nonempty : texts ≠ []) (content : texts ≠ [""]) :
    ∃ line, Line.FoundAt bytes offset line ∧
      line.fields.map (slice bytes) = texts.map (fun text => ofString (render text)) ∧
      line.stop = offset + (ofString (renderLine texts)).length + 1 := by
  refine foundAt_renderLine_of_ends inside split ?_ nonempty content
  intro byte first
  cases first
  rfl

/-- Written fields are read back. A line of texts has just their fields, whatever is behind it, unless
it is empty. A text is written as it is just when it is read back as one field between two others. -/
theorem parse_renderLine :
    (∀ texts, texts ≠ [] → texts ≠ [""] → ∀ behind evidence, ∃ found,
      Line.parse (ofString (renderLine texts) ++ 0x0A :: behind) 0 (-1) evidence = .ok found ∧
        found.line.fields.length = texts.length ∧
        found.line.fields.map (slice (ofString (renderLine texts) ++ 0x0A :: behind)) =
          texts.map (fun text => ofString (render text)) ∧
        found.line.stop = (ofString (renderLine texts)).length + 1) ∧
    ∀ text left right,
      (∀ c ∈ left.toList, needsEscape c = false ∧ c ≠ ',') →
      (∀ c ∈ right.toList, needsEscape c = false ∧ c ≠ ',') → ∀ evidence,
        (stands text = true ↔ ∃ found first middle last,
          Line.parse (ofString (left ++ "," ++ text ++ "," ++ right)) 0 (-1) evidence = .ok found ∧
            found.line.fields = [first, middle, last] ∧
            slice (ofString (left ++ "," ++ text ++ "," ++ right)) middle = ofString text) ∧
        (render text = text ↔ stands text = true) := by
  constructor
  · intro texts nonempty content behind evidence
    obtain ⟨line, there, slices, stop⟩ := foundAt_renderLine (Nat.zero_le _)
      (List.drop_zero (l := ofString (renderLine texts) ++ 0x0A :: behind)) nonempty content
    obtain ⟨found, parsed, rfl⟩ := there.parse evidence
    have length := congrArg List.length slices
    rw [List.length_map, List.length_map] at length
    exact ⟨found, parsed, length, slices, by rw [stop, Nat.zero_add]⟩
  · intro text left right plainLeft plainRight evidence
    refine ⟨?_, render_eq_self_iff⟩
    have joined : ofString (left ++ "," ++ text ++ "," ++ right) =
        [comma].intercalate [ofString left, ofString text, ofString right] := by
      simp only [Text.Utf8.ofString_append, List.intercalate_cons_cons, List.intercalate_singleton,
        List.append_assoc]
      rfl
    rw [joined, stands,
      standsFrom_iff_foundAt (stands_of_plain plainLeft) (stands_of_plain plainRight)]
    constructor
    · rintro ⟨first, middle, last, next, there, same⟩
      obtain ⟨found, parsed, line⟩ := there.parse evidence
      exact ⟨found, first, middle, last, parsed, by rw [line], same⟩
    · rintro ⟨found, first, middle, last, parsed, fields, same⟩
      refine ⟨first, middle, last, found.line.stop, ?_, same⟩
      rw [← fields]
      exact Line.foundAt_of_parse parsed

/-- A comma that must be quoted and a line break that must be escaped, and a quoted comma that stands
as it is. -/
theorem parse_renderLine_comma_and_break :
    (∃ found,
      Line.parse (ofString (renderLine ["a,b", "\n"]) ++ [0x0A, 0x7A]) 0 (-1) none = .ok found ∧
        found.line.fields.map (slice (ofString (renderLine ["a,b", "\n"]) ++ [0x0A, 0x7A])) =
          [ofString "\"a,b\"", ofString "\"\\\n\""]) ∧
      render "\"a,b\"" = "\"a,b\"" := by
  obtain ⟨lines, -⟩ := parse_renderLine
  obtain ⟨found, parsed, -, slices, -⟩ :=
    lines ["a,b", "\n"] (List.cons_ne_nil _ _) (by decide) [0x7A] none
  obtain ⟨-, verbatim⟩ := parse_renderLine.2 "\"a,b\"" "x" "y"
    (by simp [needsEscape]) (by simp [needsEscape]) none
  refine ⟨⟨found, parsed, ?_⟩, verbatim.mpr (by decide +kernel)⟩
  rw [slices]
  decide +kernel

end Texts

end RowStore.Csv
