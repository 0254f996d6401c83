import RowStore.Block.Codec

/-! LZ4 blocks behind their size.

A block is a run of sequences. Each is a token, literal bytes, and a match: a distance back into
what has been written and a length of at least four. The last sequence has no match. Lengths of 15
and more go on in further bytes, up to the first that is not 255.
-/

namespace RowStore.Lz4

/-- The length that starts with four bits of a token. -/
def readLength? (bits : Nat) (bytes : Bytes) : Option (Nat × Bytes) :=
  if bits < 15 then some (bits, bytes) else extend bits bytes
where
  extend (length : Nat) : Bytes → Option (Nat × Bytes)
    | [] => none
    | byte :: rest =>
        if byte = 0xFF then extend (length + 255) rest else some (length + byte.toNat, rest)

theorem length_extend {length found : Nat} {bytes rest : Bytes}
    (read : readLength?.extend length bytes = some (found, rest)) :
    rest.length ≤ bytes.length := by
  induction bytes generalizing length with
  | nil => simp [readLength?.extend] at read
  | cons byte tail ih =>
      simp only [readLength?.extend] at read
      split at read
      · exact Nat.le_succ_of_le (ih read)
      · simp only [Option.some.injEq, Prod.mk.injEq] at read
        rw [← read.2, List.length_cons]
        exact Nat.le_succ _

theorem length_readLength? {bits found : Nat} {bytes rest : Bytes}
    (read : readLength? bits bytes = some (found, rest)) : rest.length ≤ bytes.length := by
  unfold readLength? at read
  split at read
  · cases read
    exact Nat.le_refl _
  · exact length_extend read

/-- Expand sequences onto an output of `written` bytes, which may grow to `limit`. -/
def sequences? (limit written : Nat) (output : Bytes) (input : Bytes) : Option Bytes :=
  match input with
  | [] => none
  | token :: rest =>
      match _first : readLength? (token.toNat / 16) rest with
      | none => none
      | some (literals, rest) =>
          if rest.length < literals ∨ limit < written + literals then none
          else
            let output := (rest.take literals).reverse ++ output
            let written := written + literals
            match _after : rest.drop literals with
            | [] => some output
            | [_] => none
            | low :: high :: rest =>
                let distance := Bytes.toNat [low, high]
                match _second : readLength? (token.toNat % 16) rest with
                | none => none
                | some (length, rest) =>
                    let length := length + 4
                    if distance = 0 ∨ written < distance ∨ limit < written + length then none
                    else sequences? limit (written + length) (Bytes.copyBack distance length output) rest
termination_by input.length
decreasing_by
  have first := length_readLength? _first
  have second := length_readLength? _second
  have after := congrArg List.length _after
  simp only [List.length_drop, List.length_cons] at *
  omega

def expand (stored : Bytes) : Except Fault Bytes :=
  if stored.length < 4 then .error .malformedLz4
  else
    match sequences? (Bytes.toNat (stored.take 4)) 0 [] (stored.drop 4) with
    | some output => .ok output.reverse
    | none => .error .malformedLz4

/-- The bytes that continue a length of 15 and more. -/
def writeLength (length : Nat) : Bytes :=
  if length < 255 then [UInt8.ofNat length] else 0xFF :: writeLength (length - 255)
termination_by length
decreasing_by omega

/-- A block of one sequence, all of it literal. -/
def compress (raw : Bytes) : Bytes :=
  let length := raw.length
  let head :=
    if length < 15 then [UInt8.ofNat (16 * length)] else 0xF0 :: writeLength (length - 15)
  Bytes.ofNat 4 length ++ head ++ raw

def coder : SizedCoder where
  compress := compress
  expand := expand

end RowStore.Lz4
