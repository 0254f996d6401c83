import Mathlib
import RowStore.Proofs.Bytes.Parts

/-! Rows in blocks.

The rows of a file all have one length, and every block but the last has the same number of them.
So a row is found in the bytes of its block by its position there.
-/

namespace RowStore

/-- The rows of the block of a number. -/
def blockRows (rowsPerBlock : Nat) (rows : List Bytes) (block : Nat) : List Bytes :=
  (rows.drop (block * rowsPerBlock)).take rowsPerBlock

section Blocks

variable {perBlock block : Nat} {rows : List Bytes}

theorem blockRows_append (full : (block + 1) * perBlock ≤ rows.length) (later : List Bytes) :
    blockRows perBlock (rows ++ later) block = blockRows perBlock rows block := by
  rw [Nat.succ_mul] at full
  rw [blockRows, blockRows, List.drop_append_of_le_length (by omega),
    List.take_append_of_le_length (by rw [List.length_drop]; omega)]

theorem blockRows_last (last : rows.length ≤ (block + 1) * perBlock) :
    blockRows perBlock rows block = rows.drop (block * perBlock) := by
  rw [Nat.succ_mul] at last
  exact List.take_of_length_le (by rw [List.length_drop]; omega)

theorem getElem?_blockRows (row : Nat) (positive : 0 < perBlock) :
    (blockRows perBlock rows (row / perBlock))[row % perBlock]? = rows[row]? := by
  rw [blockRows, List.getElem?_take_of_lt (Nat.mod_lt row positive), List.getElem?_drop,
    Nat.div_add_mod' row perBlock]

theorem flatten_blockRows (perBlock : Nat) (rows : List Bytes) (count : Nat) :
    ((List.range count).map (blockRows perBlock rows)).flatten = rows.take (count * perBlock) := by
  induction count with
  | zero => simp
  | succ count ih =>
      rw [List.range_succ, List.map_append, List.flatten_append, ih, List.map_singleton,
        List.flatten_singleton, blockRows, Nat.succ_mul, List.take_add]

theorem slice?_flatten {length row : Nat} {bytes : Bytes} (uniform : ∀ row ∈ rows, row.length = length)
    (found : rows[row]? = some bytes) :
    Bytes.slice? rows.flatten (row * length) (row * length + length) = some bytes := by
  induction rows generalizing row with
  | nil => simp at found
  | cons first rows ih =>
      obtain ⟨here, uniform⟩ := List.forall_mem_cons.mp uniform
      cases row with
      | zero =>
          obtain rfl : first = bytes := by simpa using found
          simp [Bytes.slice?, ← here]
      | succ row =>
          rw [List.getElem?_cons_succ] at found
          have start : (row + 1) * length = first.length + row * length := by
            rw [here, Nat.succ_mul, Nat.add_comm]
          rw [List.flatten_cons, start, Nat.add_assoc, Bytes.slice?_append_right]
          exact ih uniform found

theorem mem_of_mem_blockRows {row : Bytes} (mem : row ∈ blockRows perBlock rows block) :
    row ∈ rows :=
  List.mem_of_mem_drop (List.mem_of_mem_take mem)

theorem length_flatten_blockRows_le (perBlock : Nat) (rows : List Bytes) (block : Nat) :
    (blockRows perBlock rows block).flatten.length ≤ rows.flatten.length :=
  List.Sublist.length_le (List.Sublist.flatten
    ((List.take_sublist _ _).trans (List.drop_sublist _ _)))

theorem length_flatten_of_uniform {length : Nat} (uniform : ∀ row ∈ rows, row.length = length) :
    rows.flatten.length = rows.length * length := by
  rw [List.length_flatten, List.map_congr_left uniform]
  simp

end Blocks

end RowStore
