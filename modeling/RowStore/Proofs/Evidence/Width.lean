import Mathlib
import RowStore.Proofs.Evidence.Scan
import RowStore.Proofs.Text.Bmp

/-! The widths that evidence records.

A field records the room of its bytes, up to the limit of the record, and adding up the evidence of
lines never lowers a record. So what a column reserves in the end is enough for all its fields.
-/

namespace RowStore.Evidence

/-- The evidence of the bytes of a field that is still open. -/
def fed (content : Bytes) : Evidence := (content.map Text.Bmp.latin1).foldl push none

/-- The evidence of a field by itself. -/
def ofField (field : Bytes) : Evidence := (fed field).endField field.length

/-- A column has recorded a width or a greater one. -/
def Reserves (file : List Evidence) (column width : Nat) : Prop :=
  ∃ found, file[column]? = some found ∧ width ≤ found.width

section Field

theorem encoded_foldl_push (evidence : Evidence) (text : List Char) :
    (text.foldl push evidence).width = evidence.width ∧
      (text.foldl push evidence).field.encoded =
        evidence.field.encoded + (text.map Text.Bmp.encodedLength).sum := by
  induction text generalizing evidence with
  | nil => exact ⟨rfl, rfl⟩
  | cons c text ih =>
      have pushed : (evidence.push c).width = evidence.width ∧
          (evidence.push c).field.encoded =
            evidence.field.encoded + Text.Bmp.encodedLength c := by
        simp only [push, classify, pushDigit, pushSign, pushPoint, pushMark, FieldScan.digit]
        split_ifs <;> exact ⟨rfl, rfl⟩
      obtain ⟨width, encoded⟩ := ih (evidence.push c)
      rw [List.foldl_cons, width, encoded, pushed.1, pushed.2, List.map_cons, List.sum_cons,
        Nat.add_assoc]
      exact ⟨rfl, rfl⟩

theorem width_settle (evidence : Evidence) (scan : FieldScan) :
    (evidence.settle scan).width = evidence.width := by
  rw [settle]
  split_ifs <;> rfl

theorem width_ofField (field : Bytes) :
    (ofField field).width = min (Text.Bmp.room field) widthLimit := by
  by_cases content : field.length = 0
  · obtain rfl := List.length_eq_zero_iff.mp content
    rfl
  · obtain ⟨width, encoded⟩ := encoded_foldl_push none (field.map Text.Bmp.latin1)
    have room : (fed field).field.encoded = Text.Bmp.room field := by
      rw [fed, encoded, List.map_map]
      exact Nat.zero_add _
    have unset : (fed field).width = 0 := width
    have enough := Text.Bmp.length_le_room field
    rw [ofField, endField, if_neg fun both => content both.1, width_settle]
    simp only [unset, room, max_eq_right enough]
    exact Nat.zero_max _

end Field

section Columns

variable {file added : List Evidence} {column width : Nat}

theorem getElem?_mergeEach (room : added.length ≤ file.length) (column : Nat) :
    (mergeEach file added)[column]? =
      file[column]?.map fun found => (added[column]?.map found.merge).getD found := by
  induction file generalizing added column with
  | nil =>
      obtain rfl := List.length_eq_zero_iff.mp (Nat.le_zero.mp room)
      rfl
  | cons first file ih =>
      cases added with
      | nil => cases file[column]? <;> simp [mergeEach]
      | cons second added =>
          cases column with
          | zero => rfl
          | succ column => exact ih (Nat.le_of_succ_le_succ room) column

theorem length_padded (length : Nat) (file : List Evidence) :
    (padded length file).length = max file.length length := by
  rw [padded, List.length_append, List.length_replicate]
  omega

theorem length_le_padded (length : Nat) (file : List Evidence) :
    length ≤ (padded length file).length :=
  (le_max_right _ _).trans (length_padded length file).ge

theorem Reserves.padded (reserves : Reserves file column width) (length : Nat) :
    Reserves (Evidence.padded length file) column width := by
  obtain ⟨found, here, enough⟩ := reserves
  have inside := (List.getElem?_eq_some_iff.mp here).1
  exact ⟨found, by rw [Evidence.padded, List.getElem?_append_left inside, here], enough⟩

theorem Reserves.mergeAll (reserves : Reserves file column width) (added : List Evidence) :
    Reserves (Evidence.mergeAll file added) column width := by
  obtain ⟨found, here, enough⟩ := reserves.padded added.length
  rw [Reserves, Evidence.mergeAll, getElem?_mergeEach (length_le_padded ..), here]
  refine ⟨_, rfl, ?_⟩
  cases added[column]? with
  | none => exact enough
  | some second => exact enough.trans (le_max_left _ _)

theorem Reserves.mergeAll_line (file : List Evidence) (reserves : Reserves added column width) :
    Reserves (Evidence.mergeAll file added) column width := by
  obtain ⟨found, there, enough⟩ := reserves
  have inside := (List.getElem?_eq_some_iff.mp there).1
  rw [Reserves, Evidence.mergeAll, getElem?_mergeEach (length_le_padded ..),
    List.getElem?_eq_getElem (inside.trans_le (length_le_padded ..)), there]
  exact ⟨_, rfl, enough.trans (le_max_right _ _)⟩

theorem mapM_counted_eq_ok {counts : List Evidence} (done : file.mapM counted = .ok counts) :
    counts = file := by
  have same : List.Forall₂ Eq file counts := by
    refine (Outcome.mapM_eq_ok_iff.mp done).imp fun found answer settled => ?_
    rw [counted] at settled
    split at settled
    · exact Except.ok.inj settled
    · contradiction
  exact (List.forall₂_eq_eq_eq ▸ same : file = counts).symm

end Columns

end RowStore.Evidence
