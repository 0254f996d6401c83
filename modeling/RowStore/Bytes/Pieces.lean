import RowStore.Bytes

/-! Byte strings in pieces.

A piece is written out, or repeats one byte. The expansion of the pieces is the string that they
stand for; measuring, cutting and overwriting pieces costs nothing for the bytes that repeat.
-/

namespace RowStore

inductive Piece where
  | plain (bytes : Bytes)
  | run (count : Nat) (byte : UInt8)
deriving Repr, DecidableEq

namespace Piece

def expand : Piece → Bytes
  | plain bytes => bytes
  | run count byte => List.replicate count byte

def size : Piece → Nat
  | plain bytes => bytes.length
  | run count _ => count

def take (limit : Nat) : Piece → Piece
  | plain bytes => plain (bytes.take limit)
  | run count byte => run (min limit count) byte

def drop (limit : Nat) : Piece → Piece
  | plain bytes => plain (bytes.drop limit)
  | run count byte => run (count - limit) byte

def first? : Piece → Option UInt8
  | plain bytes => bytes.head?
  | run count byte => if count = 0 then none else some byte

def all (test : UInt8 → Bool) : Piece → Bool
  | plain bytes => bytes.all test
  | run count byte => count = 0 ∨ test byte

variable (piece : Piece)

theorem length_expand : piece.expand.length = piece.size := by
  cases piece with
  | plain bytes => rfl
  | run count byte => exact List.length_replicate

theorem expand_take (limit : Nat) : (piece.take limit).expand = piece.expand.take limit := by
  cases piece with
  | plain bytes => rfl
  | run count byte => exact List.take_replicate.symm

theorem expand_drop (limit : Nat) : (piece.drop limit).expand = piece.expand.drop limit := by
  cases piece with
  | plain bytes => rfl
  | run count byte => exact List.drop_replicate.symm

theorem head?_expand : piece.expand.head? = piece.first? := by
  cases piece with
  | plain bytes => rfl
  | run count byte => exact List.head?_replicate

theorem all_expand (test : UInt8 → Bool) : piece.expand.all test = piece.all test := by
  cases piece with
  | plain bytes => rfl
  | run count byte => cases count <;> simp [expand, all]

end Piece

abbrev Pieces := List Piece

namespace Pieces

def expand (pieces : Pieces) : Bytes := pieces.flatMap Piece.expand

def size : Pieces → Nat
  | [] => 0
  | piece :: rest => piece.size + size rest

/-- The pieces of the first bytes. -/
def front : (limit : Nat) → Pieces → Pieces
  | _, [] => []
  | limit, piece :: rest =>
      if piece.size ≤ limit then piece :: front (limit - piece.size) rest else [piece.take limit]

/-- The pieces of all but the first bytes. -/
def back : (limit : Nat) → Pieces → Pieces
  | _, [] => []
  | limit, piece :: rest =>
      if piece.size ≤ limit then back (limit - piece.size) rest else piece.drop limit :: rest

/-- Lay `data` over the bytes from an offset on. -/
def overwrite (pieces : Pieces) (offset : Nat) (data : Pieces) : Pieces :=
  front offset pieces ++ data ++ back (offset + size data) pieces

/-- The one byte that a string consists of, unless it is empty or has different bytes. -/
def uniform? (pieces : Pieces) : Option UInt8 :=
  (pieces.findSome? Piece.first?).filter fun byte => pieces.all (Piece.all (· = byte))

theorem expand_cons (piece : Piece) (rest : Pieces) :
    expand (piece :: rest) = piece.expand ++ expand rest := rfl

theorem expand_single (piece : Piece) : expand [piece] = piece.expand := List.flatMap_singleton ..

theorem expand_plain (bytes : Bytes) : expand [.plain bytes] = bytes := expand_single _

theorem expand_run (count : Nat) (byte : UInt8) :
    expand [.run count byte] = List.replicate count byte := expand_single _

theorem length_expand (pieces : Pieces) : (expand pieces).length = size pieces := by
  induction pieces with
  | nil => rfl
  | cons piece rest ih =>
      rw [expand_cons, List.length_append, ih, size, Piece.length_expand]

theorem expand_append (pieces others : Pieces) :
    expand (pieces ++ others) = expand pieces ++ expand others := List.flatMap_append

theorem expand_front (limit : Nat) (pieces : Pieces) :
    expand (front limit pieces) = (expand pieces).take limit := by
  induction pieces generalizing limit with
  | nil => exact List.take_nil.symm
  | cons piece rest ih =>
      have length := piece.length_expand
      rw [front, expand_cons, List.take_append, length]
      by_cases inside : piece.size ≤ limit
      · have whole : piece.expand.length ≤ limit := by omega
        rw [if_pos inside, expand_cons, ih, List.take_of_length_le whole]
      · rw [if_neg inside, expand_single, Piece.expand_take, Nat.sub_eq_zero_of_le (by omega),
          List.take_zero, List.append_nil]

theorem expand_back (limit : Nat) (pieces : Pieces) :
    expand (back limit pieces) = (expand pieces).drop limit := by
  induction pieces generalizing limit with
  | nil => exact List.drop_nil.symm
  | cons piece rest ih =>
      have length := piece.length_expand
      rw [back, expand_cons, List.drop_append, length]
      by_cases inside : piece.size ≤ limit
      · have whole : piece.expand.length ≤ limit := by omega
        rw [if_pos inside, ih, List.drop_of_length_le whole, List.nil_append]
      · rw [if_neg inside, expand_cons, Piece.expand_drop, Nat.sub_eq_zero_of_le (by omega),
          List.drop_zero]

theorem expand_overwrite (pieces : Pieces) (offset : Nat) (data : Pieces) :
    expand (overwrite pieces offset data) =
      Bytes.overwrite (expand pieces) offset (expand data) := by
  rw [overwrite, Bytes.overwrite, expand_append, expand_append, expand_front, expand_back,
    length_expand]

theorem size_back (limit : Nat) (pieces : Pieces) :
    size (back limit pieces) = size pieces - limit := by
  rw [← length_expand, expand_back, List.length_drop, length_expand]

theorem uniform?_eq (pieces : Pieces) :
    uniform? pieces =
      (expand pieces).head?.filter fun byte => (expand pieces).all (· = byte) := by
  rw [uniform?, expand, List.head?_flatMap]
  simp only [List.all_flatMap, Piece.head?_expand, Piece.all_expand]

variable {pieces others : Pieces}

theorem size_congr (same : expand pieces = expand others) : size pieces = size others := by
  rw [← length_expand, same, length_expand]

theorem uniform?_congr (same : expand pieces = expand others) :
    uniform? pieces = uniform? others := by
  rw [uniform?_eq, same, uniform?_eq]

end Pieces

end RowStore
