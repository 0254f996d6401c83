import Mathlib
import RowStore.Proofs.Bytes.Parts
import RowStore.Proofs.Row.Layout
import RowStore.Proofs.Text.Utf8
import RowStore.RowFile.Entry
import RowStore.RowFile.Header
import RowStore.RowFile.Schema

/-! The parts of a row file read back as what was written.

Numbers stand at fixed offsets in the header and in the entries of the index; the columns of the
schema are read one after another, each from where the one before it ended.
-/

namespace RowStore

theorem BlockEntry.ofBytes_toBytes (entry : BlockEntry) : ofBytes entry.toBytes = entry := by
  simp (disch := simp) only [ofBytes, toBytes, Bytes.number_append_left, Bytes.number_append_right,
    Bytes.length_ofNat, List.length_append, Nat.reduceAdd, Nat.reduceSub, Bytes.number_ofNat,
    UInt32.ofNat_mod, UInt64.ofNat_mod]

theorem FileHeader.ofBytes_toBytes (header : FileHeader) :
    ofBytes header.toBytes = .ok header := by
  have magical : header.toBytes.take 14 = magic := rfl
  have length : magic.length = 14 := rfl
  have order : ByteOrder.ofId? (header.order.id % 256 ^ 1) = some header.order := by
    cases header.order <;> rfl
  rw [ofBytes, if_neg (not_not_intro magical)]
  simp (disch := simp [magic]) only [toBytes, Bytes.number_append_left, Bytes.number_append_right,
    Bytes.length_ofNat, List.length_append, List.length_singleton, length, Nat.reduceAdd,
    Nat.reduceSub, Bytes.number_ofNat, order, UInt16.ofNat_mod, UInt32.ofNat_mod, UInt64.ofNat_mod]

namespace Schema

namespace Unread

theorem take_append (offset : Nat) (front rest : Bytes) :
    (Unread.mk offset (front ++ rest)).take front.length =
      .ok (front, ⟨offset + front.length, rest⟩) := by
  rw [take, if_pos (by simp), List.take_left, List.drop_left]

theorem takeNumber_ofNat (offset width value : Nat) (rest : Bytes) :
    (Unread.mk offset (Bytes.ofNat width value ++ rest)).takeNumber width =
      .ok (value % 256 ^ width, ⟨offset + width, rest⟩) := by
  have taken := take_append offset (Bytes.ofNat width value) rest
  rw [Bytes.length_ofNat] at taken
  rw [takeNumber, taken, ← Bytes.toNat_ofNat]
  rfl

theorem takeName_ofString (offset : Nat) (name : String) (rest : Bytes) :
    (Unread.mk offset (Text.Utf8.ofString name ++ rest)).takeName
        (Text.Utf8.ofString name).length =
      .ok (name, ⟨offset + (Text.Utf8.ofString name).length, rest⟩) := by
  simp only [takeName, take_append, bind, Except.bind, Text.Utf8.toString_ofString]

end Unread

theorem bound_toNat (position : Int32) : bound (position.toUInt32.toNat % 256 ^ 4) = position := by
  rw [bound, UInt32.ofNat_mod]
  rfl

variable {column : Column} {bytes : Bytes}

theorem writeColumn_eq (written : writeColumn column = .ok bytes) :
    (Text.Utf8.ofString column.name).length ≤ 65535 ∧
      bytes = Bytes.ofNat 2 (Text.Utf8.ofString column.name).length ++
        (Text.Utf8.ofString column.name ++ (Bytes.ofNat 1 column.type.id ++
          (Bytes.ofNat 4 column.start.toUInt32.toNat ++
            Bytes.ofNat 4 column.stop.toUInt32.toNat))) := by
  rw [writeColumn] at written
  split at written
  · rename_i short
    cases written
    exact ⟨short, by simp [Bytes.ofNat]⟩
  · contradiction

/-- A column that was written is read back without its later stages, whatever follows it. -/
theorem readColumn_append (valid : column.validate = .ok ())
    (written : writeColumn column = .ok bytes) (offset : Nat) (rest : Bytes) :
    readColumn ⟨offset, bytes ++ rest⟩ =
      .ok (column.withoutStages, ⟨offset + bytes.length, rest⟩) := by
  obtain ⟨short, rfl⟩ := writeColumn_eq written
  have length : (Text.Utf8.ofString column.name).length % 256 ^ 2 =
      (Text.Utf8.ofString column.name).length := Nat.mod_eq_of_lt (by omega)
  have id : column.type.id % 256 ^ 1 = column.type.id := by
    rcases column.type with _ | ⟨_ | _, _ | _ | _ | _⟩ | _ | _ | _ | _ | _ | _ | _ | _ <;> rfl
  simp only [readColumn, List.append_assoc, Unread.takeNumber_ofNat, bind, Except.bind, length,
    Unread.takeName_ofString, id, ColumnType.ofId?_id, bound_toNat, Column.placed_of_validate valid,
    Outcome.ofData, Except.mapError]
  simp [Nat.add_assoc]

theorem readColumns_append {layout : Layout} (valid : ∀ column ∈ layout, column.validate = .ok ())
    {columns : List Bytes} (written : layout.mapM writeColumn = .ok columns) (offset : Nat)
    (rest : Bytes) :
    readColumns layout.length ⟨offset, columns.flatten ++ rest⟩ =
      .ok (layout.map Column.withoutStages) := by
  rw [Outcome.mapM_eq_ok_iff] at written
  induction written generalizing offset with
  | nil => rfl
  | @cons column bytes layout columns written _ ih =>
      obtain ⟨first, later⟩ := List.forall_mem_cons.mp valid
      rw [List.length_cons, List.flatten_cons, List.append_assoc, readColumns]
      simp only [readColumn_append first written, bind, Except.bind, ih later]
      rfl

theorem decode_encode {layout : Layout} (valid : ∀ column ∈ layout, column.validate = .ok ())
    {bytes : Bytes} (encoded : encode layout = .ok bytes) :
    decode layout.length bytes = .ok (layout.map Column.withoutStages) := by
  rw [encode] at encoded
  cases written : layout.mapM writeColumn with
  | error reason => simp [written, bind, Except.bind] at encoded
  | ok columns =>
      obtain rfl : columns.flatten = bytes := by
        simpa [written, bind, Except.bind] using encoded
      have read := readColumns_append valid written 0 []
      rwa [List.append_nil] at read

end Schema

end RowStore
