import Mathlib
import RowStore.Proofs.Outcome
import RowStore.Proofs.Text.Bmp
import RowStore.Row.Buffer
import RowStore.RowFile.Schema

/-! Steps that trap.

A step traps when a piece of checked arithmetic in it has no result, which is neither an answer nor a
refusal. What is made of several steps traps exactly when one of them does and those before it succeed.
-/

namespace RowStore

namespace Outcome

variable {α β ε : Type} {trap : Trap → ε} {result first : Except ε α} {next : α → Except ε β}

/-- The step comes to a trap, as errors of a kind have it. -/
def Traps (trap : Trap → ε) (result : Except ε α) : Prop := ∃ reason, result = .error (trap reason)

theorem not_traps_ok {found : α} : ¬ Traps trap (Except.ok found) := by
  rintro ⟨reason, same⟩
  cases same

theorem traps_bind_iff :
    Traps trap (first >>= next) ↔
      Traps trap first ∨ ∃ found, first = .ok found ∧ Traps trap (next found) := by
  cases first with
  | error reason =>
      constructor
      · rintro ⟨caught, same⟩
        exact .inl ⟨caught, congrArg Except.error (Except.error.inj same)⟩
      · rintro (⟨caught, same⟩ | ⟨found, same, -⟩)
        · exact ⟨caught, congrArg Except.error (Except.error.inj same)⟩
        · cases same
  | ok found =>
      constructor
      · exact fun traps => .inr ⟨found, rfl, traps⟩
      · rintro (traps | ⟨_, ⟨⟩, traps⟩)
        · exact absurd traps (not_traps_ok)
        · exact traps

theorem not_traps_bind (quiet : ¬ Traps trap first)
    (later : ∀ found, first = .ok found → ¬ Traps trap (next found)) : ¬ Traps trap (first >>= next) := by
  rw [traps_bind_iff]
  rintro (traps | ⟨found, same, traps⟩)
  · exact quiet traps
  · exact later found same traps

/-- A check that throws something else hides what it guards. -/
theorem traps_guard_iff {refused : Prop} [Decidable refused] {reason : ε}
    {unreached : α → Except ε β} {next : Except ε β} (plain : ∀ caught, reason ≠ trap caught) :
    Traps trap (if refused then throw reason >>= unreached else next) ↔
      ¬ refused ∧ Traps trap next := by
  by_cases holds : refused
  · rw [if_pos holds]
    refine iff_of_false ?_ fun both => both.1 holds
    rintro ⟨caught, same⟩
    exact plain caught (Except.error.inj same)
  · rw [if_neg holds, and_iff_right holds]

theorem traps_map_iff {change : α → β} : Traps trap (result.map change) ↔ Traps trap result := by
  cases result <;> simp [Traps, Except.map]

theorem not_traps_mapM {step : α → Except ε β} {list : List α}
    (quiet : ∀ x ∈ list, ¬ Traps trap (step x)) : ¬ Traps trap (list.mapM step) := by
  rintro ⟨reason, refused⟩
  obtain ⟨x, mem, failed⟩ := exists_of_mapM_eq_error refused
  exact quiet x mem ⟨reason, failed⟩

theorem not_traps_forM {check : α → Except ε Unit} {list : List α}
    (quiet : ∀ x ∈ list, ¬ Traps trap (check x)) : ¬ Traps trap (list.forM check) := by
  induction list with
  | nil => exact not_traps_ok
  | cons x list ih =>
      obtain ⟨here, others⟩ := List.forall_mem_cons.mp quiet
      exact not_traps_bind here fun _ _ => ih others

/-- A data error that is no trap is no trap as a fault. -/
theorem traps_ofData_iff {result : Except Error α} :
    Traps Fault.trap (ofData result) ↔ Traps Error.trap result := by
  cases result <;> simp [Traps, ofData, Except.mapError, Fault.trap]

/-- A context does not hide a trap, and makes none. -/
theorem traps_inContext_iff {result : Except Fault α} {context : FaultContext} :
    Traps Fault.trap (inContext context result) ↔ Traps Fault.trap result := by
  cases result with
  | ok found => simp [Traps, inContext, Except.mapError]
  | error fault =>
      simp only [Traps, inContext, Except.mapError, Except.error.injEq]
      cases fault with
      | data error => cases error <;> simp [Fault.inContext, Fault.trap]
      | _ => simp [Fault.inContext, Fault.trap]

end Outcome

open Outcome (Traps)

section Rows

variable {order : ByteOrder} {bytes : Bytes}

theorem ByteOrder.not_traps_readWord {reader : String} {width : Nat} :
    ¬ Traps Error.trap (order.readWord reader width bytes) := by
  rw [readWord]
  split_ifs <;> simp [Traps]

theorem ByteOrder.not_traps_readInteger {type : IntType} :
    ¬ Traps Error.trap (order.readInteger type bytes) :=
  Outcome.traps_map_iff.not.mpr ByteOrder.not_traps_readWord

theorem Text.Bmp.not_traps_decode : ¬ Traps Error.trap (decode bytes) := by
  rintro ⟨reason, refused⟩
  obtain ⟨offset, same⟩ := decode_eq_error refused
  cases same

theorem ColumnType.not_traps_decodeInstant :
    ¬ Traps Error.trap (decodeInstant order bytes) := by
  rw [decodeInstant]
  split_ifs
  · simp [Traps]
  · refine Outcome.not_traps_bind ByteOrder.not_traps_readInteger fun seconds _ => ?_
    refine Outcome.not_traps_bind ByteOrder.not_traps_readInteger fun nanos _ => ?_
    rw [instantOfParts]
    split <;> simp [Traps]

theorem ColumnType.not_traps_decode {type : ColumnType} :
    ¬ Traps Error.trap (type.decode order bytes) := by
  cases type with
  | boolean =>
      refine Outcome.traps_map_iff.not.mpr ?_
      rw [decodeBoolean.eq_def]
      split
      · simp [Traps]
      · split_ifs <;> simp [Traps]
  | integer type => exact Outcome.traps_map_iff.not.mpr ByteOrder.not_traps_readInteger
  | single => exact Outcome.traps_map_iff.not.mpr ByteOrder.not_traps_readWord
  | double => exact Outcome.traps_map_iff.not.mpr ByteOrder.not_traps_readWord
  | date =>
      refine Outcome.not_traps_bind ByteOrder.not_traps_readInteger fun day _ => ?_
      refine Outcome.not_traps_bind ?_ fun found _ => Outcome.not_traps_ok
      rw [dateOfDay]
      split <;> simp [Traps]
  | instant => exact Outcome.traps_map_iff.not.mpr not_traps_decodeInstant
  | string =>
      rw [decode]
      split <;> simp [Traps]
  | chars => exact Outcome.traps_map_iff.not.mpr Text.Bmp.not_traps_decode
  | bytes => exact Outcome.not_traps_ok
  | nothing => exact Outcome.not_traps_ok

theorem Row.not_traps_readCell {column : Column} :
    ¬ Traps Error.trap (readCell order bytes column) := by
  rw [readCell]
  split
  · simp [Traps]
  · split
    · simp [Traps]
    · exact ColumnType.not_traps_decode

/-- A row of any bytes is read or refused. -/
theorem Row.not_traps_read {layout : Layout} : ¬ Traps Error.trap (read order bytes layout) :=
  Outcome.not_traps_mapM fun _ _ => Row.not_traps_readCell

theorem Column.not_traps_validate {column : Column} : ¬ Traps Error.trap column.validate := by
  rw [validate]
  induction column.toSlot :: column.stages with
  | nil => exact Outcome.not_traps_ok
  | cons slot slots ih =>
      rw [validateSlots]
      split
      · simp [Traps]
      · split_ifs
        · exact ih
        · exact Outcome.not_traps_ok

end Rows

namespace Schema

variable {unread : Unread} {count : Nat}

theorem Unread.not_traps_take : ¬ Traps Fault.trap (unread.take count) := by
  rw [take]
  split_ifs <;> simp [Traps, Fault.trap]

theorem Unread.not_traps_takeName : ¬ Traps Fault.trap (unread.takeName count) := by
  refine Outcome.not_traps_bind Unread.not_traps_take fun ⟨bytes, after⟩ _ => ?_
  dsimp only
  split <;> simp [Traps, Fault.trap]

theorem Unread.not_traps_takeNumber : ¬ Traps Fault.trap (unread.takeNumber count) :=
  Outcome.traps_map_iff.not.mpr not_traps_take

theorem not_traps_readColumn : ¬ Traps Fault.trap (readColumn unread) := by
  refine Outcome.not_traps_bind Unread.not_traps_takeNumber fun ⟨length, unread⟩ _ => ?_
  refine Outcome.not_traps_bind Unread.not_traps_takeName fun ⟨name, unread⟩ _ => ?_
  refine Outcome.not_traps_bind Unread.not_traps_takeNumber fun ⟨id, unread⟩ _ => ?_
  dsimp only
  split
  · simp [Traps, Fault.trap]
  · refine Outcome.not_traps_bind Unread.not_traps_takeNumber fun ⟨start, unread⟩ _ => ?_
    refine Outcome.not_traps_bind Unread.not_traps_takeNumber fun ⟨stop, unread⟩ _ => ?_
    refine Outcome.not_traps_bind ?_ fun column _ => Outcome.not_traps_ok
    rw [Outcome.traps_ofData_iff]
    exact Outcome.traps_map_iff.not.mpr Column.not_traps_validate

/-- A schema of any bytes is read or refused. -/
theorem not_traps_decode {bytes : Bytes} : ¬ Traps Fault.trap (decode count bytes) := by
  rw [decode]
  generalize (⟨0, bytes⟩ : Unread) = unread
  induction count generalizing unread with
  | zero => exact Outcome.not_traps_ok
  | succ count ih =>
      refine Outcome.not_traps_bind not_traps_readColumn fun ⟨column, unread⟩ _ => ?_
      exact Outcome.not_traps_bind (ih unread) fun columns _ => Outcome.not_traps_ok

end Schema

end RowStore
