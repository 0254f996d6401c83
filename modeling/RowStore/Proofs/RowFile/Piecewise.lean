import Mathlib
import RowStore.Proofs.RowFile.Refusals
import RowStore.RowFile.Piecewise

/-! Writing a row file in pieces gives the file that writing it out gives.

Each operation on pieces is followed by the operation on their expansion: cells and rows first, then
the calls that a builder takes, and from them whole series of calls.
-/

namespace RowStore

namespace Row

theorem putPieces_expand (row : Pieces) (offset : Nat) (data : Pieces) :
    put row.expand offset data.expand = (putPieces row offset data).map Pieces.expand := by
  rw [put, putPieces, Pieces.length_expand, Pieces.length_expand]
  split_ifs
  · exact congrArg Except.ok (Pieces.expand_overwrite row offset data).symm
  · rfl

variable [Host] [CalendarText] (order : ByteOrder) (row : Pieces)

theorem putCell_expand (value : Value) (column : Column) :
    writeCell order value column row.expand =
      (putCell order value column row).map Pieces.expand := by
  rw [writeCell, putCell]
  cases column.span? with
  | none => rfl
  | some span =>
      dsimp only
      split_ifs
      · rfl
      · have zeros := putPieces_expand row span.start [.run span.length 0]
        rwa [Pieces.expand_run] at zeros
      · cases encodeCell order value column with
        | error reason => rfl
        | ok encoded =>
            simp only [bind, Except.bind]
            split_ifs
            · rfl
            · have laid := putPieces_expand row span.start
                [.plain (terminated column.type encoded span.length)]
              rwa [Pieces.expand_plain] at laid

theorem putCells_expand (cells : List (Value × Column)) :
    ∃ buffer, writeCells order row.expand cells =
        ((putCells order row cells).map fun _ => (), buffer) ∧
      ∀ final, putCells order row cells = .ok final → buffer = final.expand := by
  induction cells generalizing row with
  | nil => exact ⟨row.expand, rfl, fun final same => congrArg Pieces.expand (Except.ok.inj same)⟩
  | cons cell rest ih =>
      obtain ⟨value, column⟩ := cell
      rw [writeCells, putCells, putCell_expand]
      cases putCell order value column row with
      | error reason => exact ⟨row.expand, rfl, fun _ found => by contradiction⟩
      | ok next => exact ih next

/-- Assembling a row is writing it into zeros. -/
theorem assemble_expand (values : List Value) (layout : Layout) :
    ∃ buffer, write order values layout (List.replicate layout.rowLength 0) =
        ((assemble order values layout).map fun _ => (), buffer) ∧
      ∀ final, assemble order values layout = .ok final → buffer = final.expand := by
  rw [write, assemble, List.length_replicate, if_neg (lt_irrefl _), ← Pieces.expand_run]
  split_ifs
  · exact ⟨_, rfl, by simp⟩
  · exact putCells_expand order _ _

end Row

namespace RowFile

namespace Builder

variable [Host] [Checksum] [CalendarText]

theorem codec_writeRows (cursor : RowCursor) (builder : Builder) (written : Nat)
    (numbers : List Nat) :
    (writeRows cursor builder written numbers).2.codec = builder.codec := by
  induction numbers generalizing builder written with
  | nil => rfl
  | cons number numbers ih =>
      rw [writeRows]
      cases cursor.rowValues number with
      | error reason => rfl
      | ok values =>
          obtain ⟨first, -⟩ := shape_write builder values
          dsimp only
          generalize builder.write values = answered at first ⊢
          obtain ⟨_ | _, next⟩ := answered
          · exact first
          · exact (ih next _).trans first

theorem codec_writeCursor (builder : Builder) (cursor : RowCursor) :
    (builder.writeCursor cursor).2.codec = builder.codec := by
  rw [writeCursor]
  split_ifs
  · rfl
  · exact codec_writeRows cursor builder 0 _

end Builder

namespace PiecewiseBuilder

variable (builder : PiecewiseBuilder)

section Blocks

variable [Checksum]

theorem whole_entry (stored : StoredBlock) :
    builder.entry stored = builder.whole.entry stored := by
  rw [entry, Builder.entry, Builder.entry, whole, Pieces.length_expand]
  rfl

theorem whole_flush : builder.flush.map id whole = builder.whole.flush := by
  have rows : builder.whole.pendingRows = builder.base.pendingRows := rfl
  have length : builder.whole.pending.length = builder.pending.size := Pieces.length_expand _
  have stores : builder.codec.compressPieces builder.base.layout.rowLength builder.pending =
      builder.whole.codec.compress builder.whole.layout.rowLength builder.whole.pending :=
    builder.codec.agrees _ _
  rw [flush, Builder.flush, rows, length]
  dsimp only
  rw [stores]
  by_cases idle : builder.base.pendingRows = 0
  · rw [if_pos idle, if_pos idle]
    rfl
  · rw [if_neg idle, if_neg idle]
    cases builder.whole.codec.compress builder.whole.layout.rowLength builder.whole.pending with
    | error fault => rfl
    | ok stored =>
        -- The block is the same on both sides, and so are the checks that it has to pass.
        dsimp only
        split_ifs
        · rfl
        · rfl
        · rfl
        · rw [whole_entry]
          rfl

theorem whole_finish [Host] : builder.finish = builder.whole.finish := by
  rw [finish, Builder.finish, ← whole_flush]
  rcases builder.flush with ⟨_ | _, full⟩ <;> rfl

end Blocks

theorem whole_append (row : Pieces) :
    (builder.append row).whole = builder.whole.append row.expand := by
  rw [append, Builder.append, whole, whole, Pieces.expand_append]

section Calls

variable [Host] [Checksum] [CalendarText]

theorem whole_write (values : List Value) :
    (builder.write values).map id whole = builder.whole.write values := by
  obtain ⟨buffer, wrote, same⟩ := Row.assemble_expand .native values builder.base.layout
  have layout : builder.whole.layout = builder.base.layout := rfl
  rw [write, Builder.write, layout, wrote]
  cases assembled : Row.assemble .native values builder.base.layout with
  | error reason => rfl
  | ok row =>
      rw [same row assembled]
      dsimp only [Except.map]
      rw [← whole_append]
      have joined : builder.whole.pending ++ row.expand = (builder.pending ++ row).expand :=
        (Pieces.expand_append _ _).symm
      have crowded : builder.whole.isCrowded = builder.base.isCrowded := rfl
      have complete : (builder.append row).whole.pendingRows = (builder.append row).base.pendingRows ∧
          (builder.append row).whole.rowsPerBlock = (builder.append row).base.rowsPerBlock := ⟨rfl, rfl⟩
      rw [crowded, complete.1, complete.2]
      split_ifs
      · rw [joined]
        rfl
      · exact whole_flush _
      · rfl

theorem whole_writeCursor (cursor : RowCursor) :
    (builder.writeCursor cursor).map id whole = builder.whole.writeCursor cursor := by
  have codec := Builder.codec_writeCursor builder.whole cursor
  rw [writeCursor]
  generalize builder.whole.writeCursor cursor = answered at codec ⊢
  have same : builder.codec.toBlockCodec = answered.2.codec := codec.symm
  dsimp only [Prod.map, whole]
  rw [Pieces.expand_plain, same]
  rfl

/-- The answers to a series of calls, and the builder after them. -/
def writeAll (builder : PiecewiseBuilder) :
    List (List Value) → List (Except Fault Unit) × PiecewiseBuilder
  | [] => ([], builder)
  | values :: calls =>
      let (answer, next) := builder.write values
      let (answers, last) := writeAll next calls
      (answer :: answers, last)

theorem whole_writeAll (calls : List (List Value)) :
    (builder.writeAll calls).map id whole = builder.whole.writeAll calls := by
  induction calls generalizing builder with
  | nil => rfl
  | cons values calls ih =>
      rw [writeAll, Builder.writeAll, ← whole_write]
      dsimp only [Prod.map]
      rw [← ih]
      rfl

/-- Whatever calls are made, they are answered alike, and the file is the same. -/
theorem finish_writeAll (calls : List (List Value)) :
    (builder.writeAll calls).1 = (builder.whole.writeAll calls).1 ∧
      (builder.writeAll calls).2.finish = (builder.whole.writeAll calls).2.finish := by
  rw [← whole_writeAll]
  exact ⟨rfl, whole_finish _⟩

end Calls

theorem whole_create (codec : PiecewiseCodec) (layout : Layout) (rowsPerBlock : UInt32) :
    (create codec layout rowsPerBlock).map whole =
      Builder.create codec.toBlockCodec layout rowsPerBlock := by
  rw [create]
  cases created : Builder.create codec.toBlockCodec layout rowsPerBlock with
  | error fault => rfl
  | ok base =>
      obtain ⟨fresh, -⟩ := Builder.create_eq_ok created
      rw [fresh]
      rfl

end PiecewiseBuilder

end RowFile

end RowStore
