import Mathlib
import RowStore.Block.Zstandard
import RowStore.Proofs.RowFile.Blocks

/-! Blocks with rows and columns exchanged.

Shuffling and unshuffling both exchange rows and columns of a block, and differ in which of the two
numbers is the number of rows. Exchanging moves the byte at one place in one row to one place in the
other block, leaves no byte out, and undoes itself.
-/

namespace RowStore.Shuffle

variable {rows width row k size count number : Nat} {bytes : Bytes} {lists : List Bytes}

section Pieces

theorem length_pieces (size count : Nat) (bytes : Bytes) :
    (pieces size count bytes).length = count := by
  induction count generalizing bytes with
  | zero => rfl
  | succ count ih => rw [pieces, List.length_cons, ih]

theorem getElem?_pieces (known : number < count) (bytes : Bytes) :
    (pieces size count bytes)[number]? = some ((bytes.drop (number * size)).take size) := by
  induction count generalizing bytes number with
  | zero => exact absurd known (Nat.not_lt_zero _)
  | succ count ih =>
      cases number with
      | zero => rw [pieces, List.getElem?_cons_zero, Nat.zero_mul, List.drop_zero]
      | succ number =>
          rw [pieces, List.getElem?_cons_succ, ih (Nat.lt_of_succ_lt_succ known), List.drop_drop,
            Nat.succ_mul, Nat.add_comm size]

theorem flatten_pieces (size count : Nat) (bytes : Bytes) :
    (pieces size count bytes).flatten = bytes.take (count * size) := by
  induction count generalizing bytes with
  | zero => rw [pieces, List.flatten_nil, Nat.zero_mul, List.take_zero]
  | succ count ih =>
      rw [pieces, List.flatten_cons, ih, Nat.succ_mul, Nat.add_comm, List.take_add]

theorem length_of_mem_pieces (whole : count * size ≤ bytes.length) :
    ∀ piece ∈ pieces size count bytes, piece.length = size := by
  intro piece mem
  obtain ⟨number, found⟩ := List.mem_iff_getElem?.mp mem
  have known : number < count := by
    rw [← length_pieces size count bytes]
    exact (List.getElem?_eq_some_iff.mp found).1
  rw [getElem?_pieces known] at found
  have last := (Nat.mul_le_mul_right size (Nat.succ_le_of_lt known)).trans whole
  rw [Nat.succ_mul] at last
  rw [← Option.some.inj found, List.length_take, List.length_drop]
  omega

end Pieces

section Planes

theorem planes_succ (occupied : lists ≠ []) (count : Nat) : planes (count + 1) lists =
    lists.filterMap List.head? :: planes count (lists.map List.tail) := by
  cases lists with
  | nil => exact absurd rfl occupied
  | cons list lists => rfl

theorem length_tails (uniform : ∀ list ∈ lists, list.length = count + 1) :
    ∀ list ∈ lists.map List.tail, list.length = count := by
  rw [List.forall_mem_map]
  intro list mem
  rw [List.length_tail, uniform list mem, Nat.add_sub_cancel]

/-- Pieces of one length come apart into planes, one for each place in a piece. -/
theorem planes_eq (occupied : lists ≠ []) (uniform : ∀ list ∈ lists, list.length = count) :
    planes count lists = (List.range count).map fun k => lists.map (·.getD k 0) := by
  induction count generalizing lists with
  | zero => rfl
  | succ count ih =>
      have heads : lists.filterMap List.head? = lists.map (·.getD 0 0) := by
        rw [← List.filterMap_eq_map]
        refine List.filterMap_congr fun list mem => ?_
        cases list with
        | nil => cases uniform [] mem
        | cons byte rest => rfl
      have others (k : Nat) :
          (lists.map List.tail).map (·.getD k 0) = lists.map (·.getD (k + 1) 0) := by
        rw [List.map_map]
        refine List.map_congr_left fun list _ => ?_
        cases list <;> rfl
      rw [planes_succ occupied, heads, ih (by simpa using occupied) (length_tails uniform),
        List.range_succ_eq_map, List.map_cons, List.map_map]
      simp only [others, Function.comp_def]

/-- The first bytes of lists and what is behind them make up the lists. -/
theorem heads_append_tails_perm (lists : List Bytes) :
    (lists.filterMap List.head? ++ (lists.map List.tail).flatten).Perm lists.flatten := by
  induction lists with
  | nil => exact .refl _
  | cons list lists ih =>
      cases list with
      | nil => exact ih
      | cons byte rest =>
          have heads : ((byte :: rest) :: lists).filterMap List.head? =
              byte :: lists.filterMap List.head? := rfl
          rw [heads, List.map_cons, List.tail_cons, List.flatten_cons, List.flatten_cons,
            List.cons_append, List.cons_append]
          exact .cons byte ((List.perm_append_comm_assoc _ _ _).trans (ih.append_left rest))

theorem planes_perm (uniform : ∀ list ∈ lists, list.length = count) :
    (planes count lists).flatten.Perm lists.flatten := by
  induction count generalizing lists with
  | zero =>
      have empty : lists.flatten = [] :=
        List.flatten_eq_nil_iff.mpr fun list mem => List.eq_nil_of_length_eq_zero (uniform list mem)
      rw [empty, planes, List.flatten_nil]
  | succ count ih =>
      cases lists with
      | nil => exact .refl _
      | cons list lists =>
          rw [planes_succ (List.cons_ne_nil _ _), List.flatten_cons]
          exact ((ih (length_tails uniform)).append_left _).trans (heads_append_tails_perm _)

end Planes

section Transpose

/-- Exchange rows and columns of a block of rows. -/
def transpose (rows width : Nat) (bytes : Bytes) : Bytes :=
  (planes width (pieces width rows bytes)).flatten

theorem transpose_perm (length : bytes.length = rows * width) :
    (transpose rows width bytes).Perm bytes := by
  have whole := planes_perm (length_of_mem_pieces length.ge)
  rwa [flatten_pieces, ← length, List.take_length] at whole

theorem length_transpose (length : bytes.length = rows * width) :
    (transpose rows width bytes).length = rows * width :=
  (transpose_perm length).length_eq.trans length

/-- Byte `k` of a row comes to stand in plane `k`, at the number of the row. -/
theorem getElem?_transpose (length : bytes.length = rows * width) (inRows : row < rows)
    (inRow : k < width) :
    (transpose rows width bytes)[k * rows + row]? = bytes[row * width + k]? := by
  have count := length_pieces width rows bytes
  have occupied : pieces width rows bytes ≠ [] := by
    rw [← List.length_pos_iff, count]
    exact Nat.zero_lt_of_lt inRows
  have shape := planes_eq occupied (length_of_mem_pieces length.ge)
  have uniform : ∀ plane ∈ planes width (pieces width rows bytes), plane.length = rows := by
    rw [shape, List.forall_mem_map]
    intro _ _
    rw [List.length_map, count]
  have plane : (planes width (pieces width rows bytes))[k]? =
      some ((pieces width rows bytes).map (·.getD k 0)) := by
    rw [shape, List.getElem?_map, List.getElem?_range inRow, Option.map_some]
  have inside : row * width + k < bytes.length := by
    have last := Nat.mul_le_mul_right width (Nat.succ_le_of_lt inRows)
    rw [Nat.succ_mul] at last
    omega
  have moved := Bytes.getElem?_slice? (slice?_flatten uniform plane) row
  rw [Nat.add_sub_cancel_left, if_pos inRows, List.getElem?_map, getElem?_pieces inRows,
    Option.map_some, List.getD_eq_getElem?_getD, List.getElem?_take_of_lt inRow,
    List.getElem?_drop, List.getElem?_eq_getElem inside, Option.getD_some] at moved
  rw [transpose, ← moved, List.getElem?_eq_getElem inside]

/-- Every place in a block is one of a row. -/
theorem exists_row_and_place {index : Nat} (inside : index < rows * width) :
    ∃ row < rows, ∃ k < width, index = row * width + k := by
  have positive : 0 < width := Nat.pos_of_mul_pos_left (Nat.zero_lt_of_lt inside)
  exact ⟨index / width, (Nat.div_lt_iff_lt_mul positive).mpr inside, index % width,
    Nat.mod_lt _ positive, (Nat.div_add_mod' index width).symm⟩

theorem transpose_transpose (length : bytes.length = rows * width) :
    transpose width rows (transpose rows width bytes) = bytes := by
  have turned : (transpose rows width bytes).length = width * rows := by
    rw [length_transpose length, Nat.mul_comm]
  refine List.ext_getElem? fun index => ?_
  rcases lt_or_ge index (rows * width) with inside | beyond
  · obtain ⟨row, inRows, k, inRow, rfl⟩ := exists_row_and_place inside
    rw [getElem?_transpose turned inRow inRows, getElem?_transpose length inRows inRow]
  · rw [List.getElem?_eq_none, List.getElem?_eq_none (length.trans_le beyond)]
    rwa [length_transpose turned, Nat.mul_comm]

end Transpose

section Shuffled

variable {raw shuffled : Bytes}

theorem length_eq_mul (divides : width ∣ raw.length) : raw.length = raw.length / width * width :=
  (Nat.div_mul_cancel divides).symm

/-- A block of whole rows has as many planes as there are bytes in a row. -/
theorem unshuffle_eq_transpose (divides : width ∣ shuffled.length) :
    unshuffle width shuffled = transpose width (shuffled.length / width) shuffled := by
  rw [unshuffle, transpose]
  rcases Nat.eq_zero_or_pos (shuffled.length / width) with none | some
  · rw [none, planes, planes]
  · have occupied : shuffled.length ≠ 0 := fun empty => by simp [empty] at some
    rw [Nat.div_div_self divides occupied]

theorem shuffle_perm (divides : width ∣ raw.length) : (shuffle width raw).Perm raw :=
  transpose_perm (length_eq_mul divides)

theorem unshuffle_perm (divides : width ∣ shuffled.length) :
    (unshuffle width shuffled).Perm shuffled := by
  rw [unshuffle_eq_transpose divides]
  exact transpose_perm ((length_eq_mul divides).trans (Nat.mul_comm _ _))

theorem getElem?_shuffle (divides : width ∣ raw.length) (inRows : row < raw.length / width)
    (inRow : k < width) :
    (shuffle width raw)[k * (raw.length / width) + row]? = raw[row * width + k]? :=
  getElem?_transpose (length_eq_mul divides) inRows inRow

theorem unshuffle_shuffle (divides : width ∣ raw.length) :
    unshuffle width (shuffle width raw) = raw := by
  have length := (shuffle_perm divides).length_eq
  rw [unshuffle_eq_transpose (by rwa [length]), length]
  exact transpose_transpose (length_eq_mul divides)

end Shuffled

end RowStore.Shuffle
