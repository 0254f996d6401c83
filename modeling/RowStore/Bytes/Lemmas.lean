import Mathlib
import RowStore.Bytes.Order

/-! Words survive being written and read, modulo the size that their width allows. -/

namespace RowStore

namespace Bytes

theorem toNat_ofNat (width number : Nat) : toNat (ofNat width number) = number % 256 ^ width := by
  induction width generalizing number with
  | zero => simp [ofNat, toNat, Nat.mod_one]
  | succ width ih =>
      have power : 256 ^ (width + 1) = 256 * 256 ^ width := by rw [Nat.pow_succ, Nat.mul_comm]
      rw [ofNat, toNat, ih, UInt8.toNat_ofNat', power, Nat.mod_mul]

theorem toNat_lt (bytes : Bytes) : toNat bytes < 256 ^ bytes.length := by
  induction bytes with
  | nil => decide
  | cons byte rest ih =>
      have small := byte.toNat_lt
      simp only [toNat, List.length_cons, Nat.pow_succ]
      omega

end Bytes

namespace ByteOrder

theorem read_write (order : ByteOrder) (width number : Nat) :
    order.read (order.write width number) = number % 256 ^ width := by
  cases order <;> simp [read, write, Bytes.toNat_ofNat]

theorem readWord_write_append (order : ByteOrder) (reader : String) (width number : Nat)
    (rest : Bytes) :
    order.readWord reader width (order.write width number ++ rest) = .ok (number % 256 ^ width) := by
  have enough : ¬ (order.write width number ++ rest).length < width := by simp
  rw [readWord, if_neg enough, List.take_left' (length_write ..), read_write]

end ByteOrder

end RowStore
