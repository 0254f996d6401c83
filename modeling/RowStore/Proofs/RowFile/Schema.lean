import Mathlib
import RowStore.Proofs.RowFile.Format
import RowStore.Proofs.Trapping

/-! Schemas and bytes.

The stored form of a layout says itself where it ends. It is read back with anything behind it, and a
part of it is refused for want of bytes. Of any other bytes, a layout is read only if its stored form
stands at their front, so a layout has no second form.
-/

namespace RowStore.Schema

section Streams

/-- The same place, with more bytes at the end. -/
def Unread.followedBy (unread : Unread) (more : Bytes) : Unread :=
  ⟨unread.offset, unread.rest ++ more⟩

/-- Where the bytes end. -/
def Unread.stop (unread : Unread) : Nat := unread.offset + unread.rest.length

/-- A reader that goes ahead in the bytes, and to which more bytes at the end only matter when it
runs out of them. -/
structure Streams {α : Type} (reader : Unread → Except Fault (α × Unread)) : Prop where
  ahead : ∀ {unread found after}, reader unread = .ok (found, after) → after.stop = unread.stop
  more : ∀ {unread found after}, reader unread = .ok (found, after) →
    ∀ more, reader (unread.followedBy more) = .ok (found, after.followedBy more)
  refused : ∀ {unread fault}, reader unread = .error fault →
    (∃ offset, fault = .schemaTruncated offset ∧ offset ≤ unread.stop) ∨
      (∀ offset, fault ≠ .schemaTruncated offset) ∧
        ∀ more, reader (unread.followedBy more) = .error fault

variable {α β : Type}

theorem Streams.pure (found : α) : Streams fun unread => .ok (found, unread) where
  ahead same := by
    cases same
    rfl
  more same more := by
    cases same
    rfl
  refused same := by cases same

theorem Streams.refuse {fault : Fault} (other : ∀ offset, fault ≠ .schemaTruncated offset) :
    Streams fun _ => (.error fault : Except Fault (α × Unread)) where
  ahead same := by cases same
  more same := by cases same
  refused same := by
    cases same
    exact .inr ⟨other, fun _ => rfl⟩

theorem Streams.bind {first : Unread → Except Fault (α × Unread)}
    {next : α × Unread → Except Fault (β × Unread)} (streams : Streams first)
    (later : ∀ found, Streams fun after => next (found, after)) :
    Streams fun unread => first unread >>= next where
  ahead done := by
    obtain ⟨⟨found, middle⟩, read, done⟩ := Outcome.bind_eq_ok_iff.mp done
    exact ((later found).ahead done).trans (streams.ahead read)
  more done more := by
    obtain ⟨⟨found, middle⟩, read, done⟩ := Outcome.bind_eq_ok_iff.mp done
    exact Outcome.bind_eq_ok_iff.mpr ⟨_, streams.more read more, (later found).more done more⟩
  refused failed := by
    rcases Outcome.bind_eq_error_iff.mp failed with here | ⟨⟨found, middle⟩, read, there⟩
    · rcases streams.refused here with short | ⟨other, same⟩
      · exact .inl short
      · exact .inr ⟨other, fun more => Outcome.bind_eq_error_iff.mpr (.inl (same more))⟩
    · rcases (later found).refused there with ⟨offset, short, bound⟩ | ⟨other, same⟩
      · exact .inl ⟨offset, short, streams.ahead read ▸ bound⟩
      · exact .inr ⟨other, fun more =>
          Outcome.bind_eq_error_iff.mpr (.inr ⟨_, streams.more read more, same more⟩)⟩

theorem streams_take (count : Nat) : Streams (Unread.take · count) where
  ahead {unread found after} taken := by
    dsimp only [Unread.take] at taken
    split_ifs at taken with enough
    cases taken
    simp only [Unread.stop, List.length_drop]
    omega
  more {unread found after} taken more := by
    dsimp only [Unread.take] at taken
    split_ifs at taken with enough
    cases taken
    have longer : count ≤ (unread.rest ++ more).length := by
      rw [List.length_append]
      omega
    rw [Unread.take, Unread.followedBy, if_pos longer, List.take_append_of_le_length enough,
      List.drop_append_of_le_length enough]
    rfl
  refused {unread fault} failed := by
    dsimp only [Unread.take] at failed
    split_ifs at failed
    cases failed
    exact .inl ⟨unread.offset, rfl, Nat.le_add_right _ _⟩

theorem streams_takeNumber (width : Nat) : Streams (Unread.takeNumber · width) := by
  have mapped (unread : Unread) : unread.takeNumber width =
      (unread.take width >>= fun found => .ok (Bytes.toNat found.1, found.2)) := by
    rw [Unread.takeNumber]
    cases unread.take width <;> rfl
  simp only [mapped]
  exact (streams_take width).bind fun bytes => .pure (Bytes.toNat bytes)

theorem streams_takeName (length : Nat) : Streams (Unread.takeName · length) := by
  refine (streams_take length).bind fun bytes => ?_
  dsimp only
  cases Text.Utf8.toString bytes with
  | ok name => exact .pure name
  | error flaw => exact .refuse nofun

theorem streams_readColumn : Streams readColumn := by
  refine (streams_takeNumber 2).bind fun length => ?_
  refine (streams_takeName length).bind fun name => ?_
  refine (streams_takeNumber 1).bind fun id => ?_
  dsimp only
  cases ColumnType.ofId? id with
  | none => exact .refuse nofun
  | some type =>
      refine (streams_takeNumber 4).bind fun start => ?_
      dsimp only
      refine (streams_takeNumber 4).bind fun stop => ?_
      dsimp only
      cases Column.placed name type (bound start) (bound stop) with
      | ok column => exact .pure column
      | error reason => exact .refuse nofun

theorem readColumns_followedBy {count : Nat} {unread : Unread} {layout : Layout}
    (read : readColumns count unread = .ok layout) (more : Bytes) :
    readColumns count (unread.followedBy more) = .ok layout := by
  induction count generalizing unread layout with
  | zero => exact read
  | succ count ih =>
      obtain ⟨⟨column, after⟩, first, read⟩ := Outcome.bind_eq_ok_iff.mp read
      obtain ⟨columns, others, read⟩ := Outcome.bind_eq_ok_iff.mp read
      exact Outcome.bind_eq_ok_iff.mpr ⟨_, streams_readColumn.more first more,
        Outcome.bind_eq_ok_iff.mpr ⟨_, ih others, read⟩⟩

theorem readColumns_eq_error {count : Nat} {unread : Unread} {fault : Fault}
    (failed : readColumns count unread = .error fault) :
    (∃ offset, fault = .schemaTruncated offset ∧ offset ≤ unread.stop) ∨
      (∀ offset, fault ≠ .schemaTruncated offset) ∧
        ∀ more, readColumns count (unread.followedBy more) = .error fault := by
  induction count generalizing unread with
  | zero => cases failed
  | succ count ih =>
      rcases Outcome.bind_eq_error_iff.mp failed with here | ⟨⟨column, after⟩, first, failed⟩
      · rcases streams_readColumn.refused here with short | ⟨other, same⟩
        · exact .inl short
        · exact .inr ⟨other, fun more => Outcome.bind_eq_error_iff.mpr (.inl (same more))⟩
      · rcases Outcome.bind_eq_error_iff.mp failed with there | ⟨columns, -, same⟩
        · rcases ih there with ⟨offset, short, bound⟩ | ⟨other, same⟩
          · exact .inl ⟨offset, short, streams_readColumn.ahead first ▸ bound⟩
          · exact .inr ⟨other, fun more => Outcome.bind_eq_error_iff.mpr (.inr
              ⟨_, streams_readColumn.more first more, Outcome.bind_eq_error_iff.mpr (.inl (same more))⟩)⟩
        · cases same

end Streams

section Written

variable {unread after : Unread}

theorem Unread.take_eq_ok {count : Nat} {bytes : Bytes}
    (taken : unread.take count = .ok (bytes, after)) :
    bytes.length = count ∧ unread.rest = bytes ++ after.rest := by
  rw [take] at taken
  split_ifs at taken with enough
  cases taken
  exact ⟨List.length_take_of_le enough, (List.take_append_drop _ _).symm⟩

theorem Unread.takeNumber_eq_ok {width number : Nat}
    (taken : unread.takeNumber width = .ok (number, after)) :
    number < 256 ^ width ∧ unread.rest = Bytes.ofNat width number ++ after.rest := by
  obtain ⟨⟨bytes, after⟩, taken, same⟩ := Outcome.map_eq_ok_iff.mp taken
  cases same
  obtain ⟨rfl, split⟩ := take_eq_ok taken
  exact ⟨Bytes.toNat_lt bytes, by rw [Bytes.ofNat_toNat, split]⟩

theorem Unread.takeName_eq_ok {length : Nat} {name : String}
    (taken : unread.takeName length = .ok (name, after)) :
    (Text.Utf8.ofString name).length = length ∧
      unread.rest = Text.Utf8.ofString name ++ after.rest := by
  obtain ⟨⟨bytes, middle⟩, taken, read⟩ := Outcome.bind_eq_ok_iff.mp taken
  obtain ⟨rfl, split⟩ := take_eq_ok taken
  dsimp only at read
  split at read
  · rename_i found decoded
    cases read
    rw [Text.Utf8.ofString_of_toString decoded]
    exact ⟨rfl, split⟩
  · cases read

theorem toNat_bound {number : Nat} (small : number < 256 ^ 4) :
    (bound number).toUInt32.toNat = number := by
  have word : (bound number).toUInt32 = UInt32.ofNat number := rfl
  rw [word, UInt32.toNat_ofNat_of_lt' small]

/-- Bytes that a column is read from are those it is stored in. -/
theorem writeColumn_of_readColumn {column : Column}
    (read : readColumn unread = .ok (column, after)) :
    ∃ bytes, writeColumn column = .ok bytes ∧ unread.rest = bytes ++ after.rest := by
  obtain ⟨⟨length, behindLength⟩, first, read⟩ := Outcome.bind_eq_ok_iff.mp read
  obtain ⟨⟨name, behindName⟩, second, read⟩ := Outcome.bind_eq_ok_iff.mp read
  obtain ⟨⟨id, behindId⟩, third, read⟩ := Outcome.bind_eq_ok_iff.mp read
  dsimp only at second third read
  split at read
  · cases read
  · rename_i type known
    obtain ⟨⟨start, behindStart⟩, fourth, read⟩ := Outcome.bind_eq_ok_iff.mp read
    obtain ⟨⟨stop, behindStop⟩, fifth, read⟩ := Outcome.bind_eq_ok_iff.mp read
    obtain ⟨found, placed, same⟩ := Outcome.bind_eq_ok_iff.mp read
    cases same
    obtain ⟨-, -, rfl⟩ := Outcome.map_eq_ok_iff.mp (Outcome.mapError_eq_ok_iff.mp placed)
    obtain ⟨short, atLength⟩ := Unread.takeNumber_eq_ok first
    obtain ⟨rfl, atName⟩ := Unread.takeName_eq_ok second
    obtain ⟨-, atId⟩ := Unread.takeNumber_eq_ok third
    obtain ⟨smallStart, atStart⟩ := Unread.takeNumber_eq_ok fourth
    obtain ⟨smallStop, atStop⟩ := Unread.takeNumber_eq_ok fifth
    obtain rfl := ColumnType.id_of_ofId? known
    rw [writeColumn, if_pos (by dsimp only; omega)]
    refine ⟨_, rfl, ?_⟩
    rw [atLength, atName, atId, atStart, atStop, toNat_bound smallStart, toNat_bound smallStop]
    simp [Bytes.ofNat]

theorem encode_cons_eq_ok {column : Column} {layout : Layout} {bytes others : Bytes}
    (first : writeColumn column = .ok bytes) (rest : encode layout = .ok others) :
    encode (column :: layout) = .ok (bytes ++ others) := by
  obtain ⟨columns, written, same⟩ := Outcome.bind_eq_ok_iff.mp rest
  cases same
  rw [encode, List.mapM_cons, first, written]
  rfl

/-- Whatever a layout is read from has the stored form of the layout at its front. -/
theorem encode_of_readColumns {count : Nat} {layout : Layout}
    (read : readColumns count unread = .ok layout) :
    layout.length = count ∧ ∃ written, encode layout = .ok written ∧ written <+: unread.rest := by
  induction count generalizing unread layout with
  | zero =>
      cases read
      exact ⟨rfl, [], rfl, List.nil_prefix⟩
  | succ count ih =>
      obtain ⟨⟨column, after⟩, first, read⟩ := Outcome.bind_eq_ok_iff.mp read
      obtain ⟨columns, others, same⟩ := Outcome.bind_eq_ok_iff.mp read
      cases same
      obtain ⟨bytes, written, split⟩ := writeColumn_of_readColumn first
      obtain ⟨rfl, rest, writtenRest, front⟩ := ih others
      refine ⟨rfl, _, encode_cons_eq_ok written writtenRest, ?_⟩
      rw [split]
      exact (List.prefix_append_right_inj bytes).mpr front

end Written

section Stored

variable {layout : Layout}

theorem encode_withoutStages (layout : Layout) :
    encode (layout.map Column.withoutStages) = encode layout := by
  rw [encode, List.mapM_map]
  rfl

theorem validate_of_placed {column alone : Column}
    (placed : Column.placed column.name column.type column.start column.stop = .ok alone) :
    column.withoutStages.validate = .ok () := by
  obtain ⟨_, valid, -⟩ := Outcome.map_eq_ok_iff.mp placed
  exact valid

/-- A layout of columns that can each stand alone, and whose names are short enough, has a stored
form, from which the columns are read back alone, whatever follows it. -/
theorem exists_encoded
    (short : ∀ column ∈ layout, (Text.Utf8.ofString column.name).length ≤ 65535)
    (placed : ∀ column ∈ layout, ∃ alone,
      Column.placed column.name column.type column.start column.stop = .ok alone) :
    ∃ bytes, encode layout = .ok bytes ∧
      ∀ rest, decode layout.length (bytes ++ rest) = .ok (layout.map Column.withoutStages) := by
  have steps : ∀ column ∈ layout, ∃ bytes, writeColumn column = .ok bytes ∧ True :=
    fun column mem => ⟨_, if_pos (short column mem), trivial⟩
  obtain ⟨columns, written, -⟩ := Outcome.exists_mapM_eq_ok steps
  have alone : (layout.map Column.withoutStages).mapM writeColumn = .ok columns := by
    rw [List.mapM_map]
    exact written
  have valid : ∀ column ∈ layout.map Column.withoutStages, column.validate = .ok () := by
    rw [List.forall_mem_map]
    intro column mem
    obtain ⟨_, stands⟩ := placed column mem
    exact validate_of_placed stands
  refine ⟨columns.flatten, by rw [encode, written]; rfl, fun rest => ?_⟩
  have read := readColumns_append valid alone 0 rest
  rw [List.length_map, List.map_map] at read
  exact read

/-- A part of a stored form is refused for want of bytes, at a place that it still has. -/
theorem decode_take_eq_error {bytes : Bytes} (encoded : encode layout = .ok bytes)
    (read : decode layout.length bytes = .ok (layout.map Column.withoutStages)) {cut : Nat}
    (short : cut < bytes.length) :
    ∃ offset ≤ cut, decode layout.length (bytes.take cut) = .error (.schemaTruncated offset) := by
  have whole : (Unread.mk 0 (bytes.take cut)).followedBy (bytes.drop cut) = ⟨0, bytes⟩ := by
    rw [Unread.followedBy, List.take_append_drop]
  cases part : decode layout.length (bytes.take cut) with
  | ok found =>
      -- More bytes would not change the answer, so the part would hold the whole stored form.
      have same := readColumns_followedBy part (bytes.drop cut)
      rw [whole] at same
      obtain rfl : layout.map Column.withoutStages = found := Except.ok.inj (read.symm.trans same)
      obtain ⟨-, written, encoded', front⟩ := encode_of_readColumns part
      rw [encode_withoutStages, encoded] at encoded'
      cases encoded'
      have longer := front.length_le
      rw [List.length_take] at longer
      omega
  | error fault =>
      rcases readColumns_eq_error part with ⟨offset, rfl, bound⟩ | ⟨-, same⟩
      · simp only [Unread.stop, List.length_take] at bound
        exact ⟨offset, by omega, rfl⟩
      · replace same := same (bytes.drop cut)
        rw [whole] at same
        exact absurd (read.symm.trans same) nofun

/-- A layout of columns that can each stand alone, with names of at most 65535 bytes, is stored so that
it is read back without later stages, whatever follows, while any shorter part of its stored form is
refused for want of bytes. And any bytes at all are read or refused, for want of bytes only at a place
among them; if they are read, the stored form of what is read stands at their front. -/
theorem decode_exact :
    (∀ layout : Layout,
      (∀ column ∈ layout, (Text.Utf8.ofString column.name).length ≤ 65535) →
      (∀ column ∈ layout, ∃ alone,
        Column.placed column.name column.type column.start column.stop = .ok alone) →
      ∃ bytes, encode layout = .ok bytes ∧
        (∀ rest, decode layout.length (bytes ++ rest) = .ok (layout.map Column.withoutStages)) ∧
        ∀ cut < bytes.length, ∃ offset ≤ cut,
          decode layout.length (bytes.take cut) = .error (.schemaTruncated offset)) ∧
    ∀ (count : Nat) (bytes : Bytes),
      ¬ Outcome.Traps Fault.trap (decode count bytes) ∧
      (∀ offset, decode count bytes = .error (.schemaTruncated offset) → offset ≤ bytes.length) ∧
      ∀ layout, decode count bytes = .ok layout →
        layout.length = count ∧ ∃ written, encode layout = .ok written ∧ written <+: bytes := by
  constructor
  · intro layout short placed
    obtain ⟨bytes, encoded, read⟩ := exists_encoded short placed
    refine ⟨bytes, encoded, read, fun cut inside => decode_take_eq_error encoded ?_ inside⟩
    simpa using read []
  · intro count bytes
    refine ⟨not_traps_decode, fun offset failed => ?_, fun layout read => encode_of_readColumns read⟩
    rcases readColumns_eq_error failed with ⟨_, ⟨⟩, bound⟩ | ⟨other, -⟩
    · simpa [Unread.stop] using bound
    · exact absurd rfl (other offset)

/-- A column with a letter of two bytes in its name, whose next stage could not stand in a row. -/
theorem decode_exact_accent_and_stage :
    let column : Column := ⟨⟨"é", .integer .int32, 0, 4⟩, [⟨"é", .date, 0, 3⟩]⟩
    encode [column] = .ok [2, 0, 0xC3, 0xA9, 5, 0, 0, 0, 0, 4, 0, 0, 0] ∧
      decode 1 [2, 0, 0xC3, 0xA9, 5, 0, 0, 0, 0, 4, 0, 0, 0] = .ok [column.withoutStages] ∧
      ∃ offset ≤ 12, decode 1 [2, 0, 0xC3, 0xA9, 5, 0, 0, 0, 0, 4, 0, 0] =
        .error (.schemaTruncated offset) := by
  intro column
  have encoded : encode [column] = .ok [2, 0, 0xC3, 0xA9, 5, 0, 0, 0, 0, 4, 0, 0, 0] := by
    decide +kernel
  obtain ⟨bytes, written, read, cut⟩ := decode_exact.1 [column]
    (List.forall_mem_singleton.mpr (by decide +kernel))
    (List.forall_mem_singleton.mpr ⟨column.withoutStages, by decide +kernel⟩)
  obtain rfl := Except.ok.inj (encoded.symm.trans written)
  exact ⟨encoded, read [], cut 12 (by decide)⟩

end Stored

end RowStore.Schema
