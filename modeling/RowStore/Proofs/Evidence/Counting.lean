import Mathlib
import RowStore.Proofs.Evidence.Merge

/-! The counters of evidence.

The digits and points of a field, and the fields of a column, are counted in 32 bits. No count of a
field is greater than its length, and no count of a column than the number of its fields, so that
short enough fields, if they are few enough, are observed without a trap.
-/

namespace RowStore.Evidence

variable {evidence after : Evidence} {field : String} {fields : List String}

section Field

theorem counters_push (evidence : Evidence) (c : Char) :
    (evidence.push c).field.mantissaDigits ≤ evidence.field.mantissaDigits + 1 ∧
      (evidence.push c).field.points ≤ evidence.field.points + 1 := by
  simp only [push, classify, pushDigit, pushSign, pushPoint, pushMark, FieldScan.digit]
  split_ifs <;> simp

theorem counters_foldl_push (evidence : Evidence) (text : List Char) :
    (text.foldl push evidence).field.mantissaDigits ≤ evidence.field.mantissaDigits + text.length ∧
      (text.foldl push evidence).field.points ≤ evidence.field.points + text.length := by
  induction text generalizing evidence with
  | nil => exact ⟨le_rfl, le_rfl⟩
  | cons c text ih =>
      obtain ⟨digits, points⟩ := counters_push evidence c
      obtain ⟨digits', points'⟩ := ih (evidence.push c)
      rw [List.foldl_cons, List.length_cons]
      omega

theorem foldl_push_counts (evidence : Evidence) (text : List Char) :
    (text.foldl push evidence).empty = evidence.empty ∧
      (text.foldl push evidence).nonEmpty = evidence.nonEmpty ∧
      (text.foldl push evidence).magnitude = evidence.magnitude := by
  induction text generalizing evidence with
  | nil => exact ⟨rfl, rfl, rfl⟩
  | cons c text ih =>
      obtain ⟨empty, nonEmpty, magnitude⟩ := ih (evidence.push c)
      rw [List.foldl_cons, empty, nonEmpty, magnitude]
      simp only [push, classify, pushDigit, pushSign, pushPoint, pushMark]
      split_ifs <;> exact ⟨rfl, rfl, rfl⟩

theorem settle_frame (evidence : Evidence) (scan : FieldScan) :
    (evidence.settle scan).field = evidence.field ∧
      (evidence.settle scan).empty = evidence.empty ∧
      (evidence.settle scan).nonEmpty = evidence.nonEmpty ∧
      (evidence.settle scan).pointSeen = evidence.pointSeen ∧
      (evidence.settle scan).exponentSeen = evidence.exponentSeen := by
  rw [settle]
  split_ifs <;> exact ⟨rfl, rfl, rfl, rfl, rfl⟩

end Field

section Column

theorem counted_eq_ok_iff : evidence.counted = .ok after ↔
    (evidence.empty < UInt32.size ∧ evidence.nonEmpty < UInt32.size) ∧ evidence = after := by
  rw [counted]
  split_ifs with bounded <;> simp [bounded]

/-- A field is counted as empty or as one with content. -/
theorem count_observe (evidence : Evidence) (field : String) :
    (evidence.observe field).empty + (evidence.observe field).nonEmpty =
      evidence.empty + evidence.nonEmpty + 1 := by
  obtain ⟨empty, nonEmpty, -⟩ := foldl_push_counts evidence field.toList
  rw [observe, endField]
  split_ifs
  · simp only [empty, nonEmpty]
    omega
  · obtain ⟨-, empty', nonEmpty', -⟩ := settle_frame _ _
    rw [empty', nonEmpty']
    simp only [empty, nonEmpty]
    omega

theorem observeCounted_eq_ok (observed : evidence.observeCounted field = .ok after) :
    evidence.observe field = after := by
  rw [observeCounted] at observed
  split_ifs at observed
  exact (counted_eq_ok_iff.mp observed).2

/-- Whatever was observed without a trap has led to the evidence that unbounded counters lead to. -/
theorem observeAll_eq_ok (observed : evidence.observeAll fields = .ok after) :
    fields.foldl observe evidence = after := by
  induction fields generalizing evidence with
  | nil => exact Except.ok.inj observed
  | cons field fields ih =>
      obtain ⟨next, first, rest⟩ := Outcome.bind_eq_ok_iff.mp observed
      rw [List.foldl_cons, observeCounted_eq_ok first]
      exact ih rest

theorem observeCounted_of_short (closed : evidence.field = .empty)
    (short : field.length < UInt32.size)
    (few : evidence.empty + evidence.nonEmpty + 1 < UInt32.size) :
    evidence.observeCounted field = .ok (evidence.observe field) := by
  obtain ⟨digits, points⟩ := counters_foldl_push evidence field.toList
  have count := count_observe evidence field
  rw [closed, String.length_toList] at digits points
  have inRange : (field.toList.foldl push evidence).field.mantissaDigits < UInt32.size ∧
      (field.toList.foldl push evidence).field.points < UInt32.size := by
    simp only [FieldScan.empty] at digits points
    omega
  rw [observeCounted, if_pos inRange]
  change (evidence.observe field).counted = _
  exact counted_eq_ok_iff.mpr ⟨by omega, rfl⟩

theorem observeAll_of_short (closed : evidence.field = .empty)
    (short : ∀ field ∈ fields, field.length < UInt32.size)
    (few : evidence.empty + evidence.nonEmpty + fields.length < UInt32.size) :
    evidence.observeAll fields = .ok (fields.foldl observe evidence) := by
  induction fields generalizing evidence with
  | nil => rfl
  | cons field fields ih =>
      have count := count_observe evidence field
      rw [List.length_cons] at few
      obtain ⟨short, shorts⟩ := List.forall_mem_cons.mp short
      have first := observeCounted_of_short closed short (by omega)
      have closed' : (evidence.observe field).field = .empty := field_endField _ _
      have rest := ih closed' shorts (by omega)
      rw [observeAll, List.foldlM_cons, first]
      exact rest

end Column

end RowStore.Evidence
