import RowStore.RowFile.Reading

/-! Row files read through a handle.

The handle of an open file stands at an offset. Seeking sets the offset, and each read starts where the
handle stands and moves it behind what was there, also when that was too little. Rows are read by a
seek to their block and three reads.
-/

namespace RowStore.RowFile

/-- What is done with a handle, which is left somewhere in any case. -/
abbrev Handled (α : Type) := ExceptT Fault (StateM Nat) α

namespace Handled

/-- What comes of it when the handle stands at an offset. -/
def answer {α : Type} (done : Handled α) (offset : Nat) : Except Fault α := (done.run.run offset).1

/-- Where it leaves the handle. -/
def left {α : Type} (done : Handled α) (offset : Nat) : Nat := (done.run.run offset).2

end Handled

def seekTo (offset : Nat) : Handled Unit := do
  let there ← liftM (seek offset)
  set there

def readNext (bytes : Bytes) (count : Nat) : Handled Bytes := do
  let offset ← get
  let found := (bytes.drop offset).take count
  set (offset + found.length)
  if found.length = count then pure found else throw (.io .unexpectedEnd)

def fetchBlock (file : RowFile) (entry : BlockEntry) : Handled StoredBlock := do
  seekTo entry.offset.toNat
  let length ← readNext file.bytes 2
  let sidecar ← readNext file.bytes (Bytes.toNat length)
  let payload ← readNext file.bytes entry.storedLength.toNat
  pure ⟨sidecar, payload⟩

/-- The number and the entry of the block that a row is in. -/
def locate (file : RowFile) (row : Nat) : Except Fault (Nat × BlockEntry) :=
  if file.header.rows.toNat ≤ row then .error (.rowOutOfRange row file.header.rows.toNat)
  else do
    let block ← file.blockOf row
    match file.index[block]? with
    | none => .error (.noBlock row)
    | some entry => .ok (block, entry)

/-- A row of a block, once it is known what is stored of the block. -/
def extract [Checksum] (file : RowFile) (row block : Nat) (entry : BlockEntry) (stored : StoredBlock) :
    Except Fault (List Value) := do
  file.checkPayload block entry stored.payload
  let raw ← Outcome.inContext (.expanding block)
    (file.codec.expand file.header.rowLength.toNat entry.rawLength.toNat stored)
  if raw.length = entry.rawLength.toNat then do
    let span ← file.rowSpan row entry.firstRow.toNat
    match raw.slice? span.start span.stop with
    | none => .error (.blockTooShort block row)
    | some bytes =>
        Outcome.inContext (.decoding row)
          (Outcome.ofData (Row.read file.header.order bytes file.layout))
  else .error (.blockLength block raw.length entry.rawLength.toNat)

def fetchRow [Checksum] (file : RowFile) (row : Nat) : Handled (List Value) := do
  let (block, entry) ← liftM (file.locate row)
  let stored ← file.fetchBlock entry
  liftM (file.extract row block entry stored)

/-- Rows read one after another through one handle, each with what came of it. -/
def fetchRows [Checksum] (file : RowFile) (rows : List Nat) :
    StateM Nat (List (Except Fault (List Value))) :=
  rows.mapM fun row => (file.fetchRow row).run

end RowStore.RowFile
