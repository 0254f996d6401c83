import RowStore.Block.Catalog

/-! Codecs that take blocks in pieces. -/

namespace RowStore

structure PiecewiseCodec extends BlockCodec where
  compressPieces : (rowLength : Nat) → (raw : Pieces) → Except Fault StoredBlock
  /-- A block is stored the same way, whatever pieces it is in. -/
  agrees : ∀ rowLength raw, compressPieces rowLength raw = compress rowLength raw.expand

namespace PiecewiseCodec

/-- Any codec takes a block that is written out. -/
def written (codec : BlockCodec) : PiecewiseCodec where
  toBlockCodec := codec
  compressPieces rowLength raw := codec.compress rowLength raw.expand
  agrees _ _ := rfl

def zstandard (level : Int) : PiecewiseCodec where
  toBlockCodec := .zstandard Frame.coder level
  compressPieces _ raw := .ok ⟨[], Frame.write raw⟩
  agrees _ raw := by
    rw [Frame.write_congr (Pieces.expand_plain raw.expand).symm]
    rfl

def ofName (name : String) (level : Int) : Except Fault PiecewiseCodec :=
  if name = "zstd" then .ok (zstandard level) else (BlockCodec.ofName name level).map written

/-- Names stand for the same codecs as ever. -/
theorem toBlockCodec_ofName (name : String) (level : Int) :
    (ofName name level).map toBlockCodec = BlockCodec.ofName name level := by
  rw [ofName]
  split
  · rename_i named
    rw [named]
    rfl
  · cases BlockCodec.ofName name level <;> rfl

end PiecewiseCodec

end RowStore
