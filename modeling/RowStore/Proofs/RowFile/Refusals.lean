import Mathlib
import RowStore.Environment
import RowStore.Proofs.RowFile.RoundTrip
import RowStore.Proofs.Trapping

/-! Row files whose blocks are not all stored.

A call that cannot encode its row changes nothing. A call that completes a block which cannot be stored
loses the rows of the block, and still counts them: no further block is stored until the file is
finished, and then the file counts one row more than there were calls that succeeded.
-/

namespace RowStore.RowFile

open Outcome (Traps)

namespace Builder

variable {builder origin full : Builder} {values : List Value} {rows : List Bytes} {row : Bytes}

/-- As many rows are pending as fill a block, or more: none of the calls to come stores them. -/
def Overfull (builder : Builder) : Prop :=
  builder.rowsPerBlock.toNat ≤ builder.pendingRows.toNat

theorem countP_isOk {answers : List (Except Fault Unit)} {calls : List (List Value)}
    {image : List Value → Option Bytes}
    (same : answers.map Except.isOk = calls.map fun values => (image values).isSome) :
    answers.countP Except.isOk = (calls.filterMap image).length := by
  have counts := congrArg (List.countP id) same
  rw [List.countP_map, List.countP_map] at counts
  rw [List.length_filterMap_eq_countP]
  exact counts

section Blocks

variable [Checksum]

/-- Storing pending rows either adds their block, within the bounds of the format, or is refused and
takes the rows all the same. -/
theorem flush_cases (occupied : builder.pendingRows ≠ 0) :
    (∃ fault blocks, builder.flush = (.error fault, { builder with pending := [], blocks })) ∨
      ∃ block, builder.codec.compress builder.layout.rowLength builder.pending = .ok block ∧
        block.sidecar.length ≤ 65535 ∧ block.payload.length < UInt32.size ∧
        builder.pending.length < UInt32.size ∧ builder.flush = (.ok (), builder.stored block) := by
  rw [flush, if_neg occupied]
  dsimp only
  cases compressed : builder.codec.compress builder.layout.rowLength builder.pending with
  | error fault => exact .inl ⟨fault, builder.blocks, rfl⟩
  | ok block =>
      dsimp only
      split_ifs with sidecar payload raw
      · exact .inl ⟨_, builder.blocks, rfl⟩
      · exact .inl ⟨_, _, rfl⟩
      · exact .inl ⟨_, _, rfl⟩
      · exact .inr ⟨block, rfl, not_lt.mp sidecar, not_le.mp payload, not_le.mp raw, rfl⟩

theorem shape_flush (builder : Builder) : SameShape builder builder.flush.2 := by
  by_cases idle : builder.pendingRows = 0
  · rw [flush, if_pos idle]
    exact .refl builder
  · obtain ⟨fault, blocks, flushed⟩ | ⟨block, -, -, -, -, flushed⟩ := flush_cases idle <;> rw [flushed]
    exacts [⟨rfl, rfl, rfl, rfl⟩, ⟨rfl, rfl, rfl, rfl⟩]

theorem rows_flush (builder : Builder) : builder.flush.2.rows = builder.rows := by
  by_cases idle : builder.pendingRows = 0
  · rw [flush, if_pos idle]
  · obtain ⟨fault, blocks, flushed⟩ | ⟨block, -, -, -, -, flushed⟩ := flush_cases idle <;> rw [flushed]
    rfl

theorem finish_eq_ok [Host] {count : Nat} {bytes : Bytes}
    (finished : builder.finish = (.ok count, bytes)) :
    ∃ full, builder.flush = (.ok (), full) ∧ count = builder.rows ∧ full.rows = builder.rows ∧
      bytes = full.sealed := by
  have rows := rows_flush builder
  rw [finish] at finished
  split at finished
  · cases finished
  · rename_i full flushed
    rw [flushed] at rows
    cases finished
    exact ⟨full, flushed, rows, rows, rfl⟩

theorem keeps_of_flush (lossless : builder.codec.Lossless) (flushed : builder.flush = (.ok (), full))
    (occupied : builder.pendingRows ≠ 0) :
    builder.codec.Keeps builder.layout.rowLength builder.pending := by
  obtain ⟨fault, blocks, refused⟩ | ⟨block, compressed, sidecar, payload, raw, -⟩ := flush_cases occupied
  · rw [refused] at flushed
    cases flushed
  · exact ⟨block, compressed, sidecar, payload, raw, lossless _ _ _ compressed⟩

theorem Tracks.covers_of_flush (tracks : Tracks origin builder rows)
    (lossless : builder.codec.Lossless) (flushed : builder.flush = (.ok (), full)) :
    Covers origin full rows := by
  obtain ⟨other, flushed', covers, -⟩ := tracks.flush (keeps_of_flush lossless flushed)
  obtain ⟨-, rfl⟩ := Prod.mk.inj (flushed.symm.trans flushed')
  exact covers

end Blocks

section Accepted

variable [Host] [CalendarText]

/-- The rows of the calls that succeeded. -/
def acceptedRows (layout : Layout) (calls : List (List Value)) (answers : List (Except Fault Unit)) :
    List Bytes :=
  (calls.zip answers).filterMap fun (values, answer) =>
    if answer.isOk then Row.image? layout values else none

theorem acceptedRows_eq {layout : Layout} {calls : List (List Value)}
    {answers : List (Except Fault Unit)}
    (same : answers.map Except.isOk = calls.map fun values => (Row.image? layout values).isSome) :
    acceptedRows layout calls answers = calls.filterMap (Row.image? layout) := by
  induction calls generalizing answers with
  | nil => rfl
  | cons values calls ih =>
      cases answers with
      | nil => cases same
      | cons answer answers =>
          obtain ⟨here, others⟩ : answer.isOk = (Row.image? layout values).isSome ∧ _ :=
            List.cons.inj same
          have image : (if answer.isOk then Row.image? layout values else none) =
              Row.image? layout values := by
            rw [here]
            cases Row.image? layout values <;> rfl
          have later := ih others
          rw [acceptedRows] at later ⊢
          rw [List.zip_cons_cons, List.filterMap_cons, List.filterMap_cons, later]
          dsimp only
          rw [image]

end Accepted

section Calls

variable [Host] [Checksum] [CalendarText]

theorem shape_write (builder : Builder) (values : List Value) :
    SameShape builder (builder.write values).2 := by
  cases encoded : Row.image? builder.layout values with
  | none =>
      obtain ⟨fault, refused⟩ := write_unencoded encoded
      rw [refused]
      exact .refl builder
  | some row =>
      rw [write_encoded encoded]
      split_ifs
      · exact ⟨rfl, rfl, rfl, rfl⟩
      · exact shape_flush (builder.append row)
      · exact ⟨rfl, rfl, rfl, rfl⟩

/-- A row that is encoded has been counted, unless the call traps. -/
theorem isCrowded_of_quiet (encoded : Row.image? builder.layout values = some row)
    (quiet : ¬ Traps Fault.trap (builder.write values).1) : builder.isCrowded = false := by
  rw [write_encoded encoded] at quiet
  by_contra crowded
  rw [Bool.not_eq_false] at crowded
  rw [crowded, if_pos rfl] at quiet
  exact quiet ⟨_, rfl⟩

theorem rows_write (encoded : Row.image? builder.layout values = some row)
    (quiet : ¬ Traps Fault.trap (builder.write values).1) :
    (builder.write values).2.rows = builder.rows + 1 := by
  rw [write_counted encoded (isCrowded_of_quiet encoded quiet)]
  split_ifs
  · exact rows_flush (builder.append row)
  · rfl

/-- The first call of a series that does not trap, and the others. -/
theorem quiet_cons {calls : List (List Value)}
    (quiet : ∀ answer ∈ (builder.writeAll (values :: calls)).1, ¬ Traps Fault.trap answer) :
    ¬ Traps Fault.trap (builder.write values).1 ∧
      ∀ answer ∈ ((builder.write values).2.writeAll calls).1, ¬ Traps Fault.trap answer :=
  List.forall_mem_cons.mp quiet

theorem rows_writeAll (builder : Builder) (calls : List (List Value))
    (quiet : ∀ answer ∈ (builder.writeAll calls).1, ¬ Traps Fault.trap answer) :
    (builder.writeAll calls).2.rows =
      builder.rows + (calls.filterMap (Row.image? builder.layout)).length := by
  induction calls generalizing builder with
  | nil => rfl
  | cons values calls ih =>
      obtain ⟨here, others⟩ := quiet_cons quiet
      have later := ih (builder.write values).2 others
      have layout : (builder.write values).2.layout = builder.layout := (shape_write builder values).2.1
      rw [layout] at later
      rw [Builder.writeAll]
      dsimp only
      rw [later]
      cases encoded : Row.image? builder.layout values with
      | none =>
          obtain ⟨fault, refused⟩ := write_unencoded encoded
          rw [refused, List.filterMap_cons_none encoded]
      | some row =>
          rw [rows_write encoded here, List.filterMap_cons_some encoded, List.length_cons]
          omega

theorem Overfull.write (overfull : builder.Overfull)
    (encoded : Row.image? builder.layout values = some row)
    (quiet : ¬ Traps Fault.trap (builder.write values).1) :
    builder.write values = (.ok (), builder.append row) ∧ (builder.append row).Overfull := by
  have counted := isCrowded_of_quiet encoded quiet
  have more : builder.rowsPerBlock.toNat < (builder.append row).pendingRows.toNat := by
    rw [toNat_pendingRows_append counted]
    exact Nat.lt_succ_of_le overfull
  rw [write_counted encoded counted]
  exact ⟨if_neg fun full => more.ne' (congrArg UInt32.toNat full), more.le⟩

theorem Overfull.writeAll (overfull : builder.Overfull) (calls : List (List Value))
    (quiet : ∀ answer ∈ (builder.writeAll calls).1, ¬ Traps Fault.trap answer) :
    (builder.writeAll calls).1.map Except.isOk =
      calls.map fun values => (Row.image? builder.layout values).isSome := by
  induction calls generalizing builder with
  | nil => rfl
  | cons values calls ih =>
      obtain ⟨here, others⟩ := quiet_cons quiet
      rw [Builder.writeAll]
      cases encoded : Row.image? builder.layout values with
      | none =>
          obtain ⟨fault, refused⟩ := write_unencoded encoded
          rw [refused] at others ⊢
          simp only [List.map_cons, ih overfull others, encoded]
          rfl
      | some row =>
          obtain ⟨accepted, overfull'⟩ := overfull.write encoded here
          rw [accepted] at others ⊢
          simp only [List.map_cons, ih overfull' others, encoded]
          rfl

/-- A call that encodes its row adds it to the rows that are tracked, or its block is refused. -/
theorem Tracks.write_cases (tracks : Tracks origin builder rows)
    (resting : builder.pendingRows.toNat < builder.rowsPerBlock.toNat) (lossless : builder.codec.Lossless)
    (encoded : Row.image? builder.layout values = some row) :
    (∃ next, builder.write values = (.ok (), next) ∧ Tracks origin next (rows ++ [row]) ∧
        next.pendingRows.toNat < next.rowsPerBlock.toNat) ∨
      ∃ fault stopped, builder.write values = (.error fault, stopped) ∧ stopped.Overfull ∧
        stopped.layout = builder.layout := by
  have appended := tracks.append resting row
  have counted := isCrowded_of_resting resting
  have occupied := pendingRows_append_ne_zero counted row
  rw [write_counted encoded counted]
  split_ifs with complete
  · obtain ⟨fault, blocks, refused⟩ | ⟨block, compressed, sidecar, payload, raw, -⟩ :=
      flush_cases occupied
    · exact .inr ⟨fault, _, refused, (congrArg UInt32.toNat complete).ge, rfl⟩
    · exact .inl (appended.flush_complete complete occupied
        ⟨block, compressed, sidecar, payload, raw, lossless _ _ _ compressed⟩)
  · exact .inl ⟨_, rfl, appended, UInt32.lt_of_le_of_ne appended.room complete⟩

/-- The calls of a series that encode their rows all succeed, and then their rows are tracked; or one
of them is refused, and no other. -/
theorem Tracks.writeAll_cases (tracks : Tracks origin builder rows)
    (resting : builder.pendingRows.toNat < builder.rowsPerBlock.toNat) (lossless : origin.codec.Lossless)
    (calls : List (List Value))
    (quiet : ∀ answer ∈ (builder.writeAll calls).1, ¬ Traps Fault.trap answer) :
    ((builder.writeAll calls).1.map Except.isOk =
        calls.map (fun values => (Row.image? origin.layout values).isSome) ∧
      Tracks origin (builder.writeAll calls).2
        (rows ++ calls.filterMap (Row.image? origin.layout))) ∨
    ((builder.writeAll calls).1.countP Except.isOk + 1 =
        (calls.filterMap (Row.image? origin.layout)).length ∧
      ∃ call ∈ calls.zip (builder.writeAll calls).1, (Row.image? origin.layout call.1).isSome ∧
        call.2.isOk = false) := by
  induction calls generalizing builder rows with
  | nil => exact .inl ⟨rfl, by rw [List.filterMap_nil, List.append_nil]; exact tracks⟩
  | cons values calls ih =>
      have layout := tracks.shape.2.1
      have others := (quiet_cons quiet).2
      rw [Builder.writeAll]
      cases encoded : Row.image? origin.layout values with
      | none =>
          obtain ⟨fault, refused⟩ := write_unencoded (layout ▸ encoded)
          rw [refused] at others ⊢
          rw [List.filterMap_cons_none encoded]
          rcases ih tracks resting others with ⟨answers, tracks'⟩ | ⟨count, call, mem, lost⟩
          · refine .inl ⟨?_, tracks'⟩
            simp only [List.map_cons, answers, encoded]
            rfl
          · exact .inr ⟨count, call, List.mem_cons_of_mem _ mem, lost⟩
      | some row =>
          have lossless' : builder.codec.Lossless := tracks.shape.1 ▸ lossless
          rw [List.filterMap_cons_some encoded]
          rcases tracks.write_cases resting lossless' (layout ▸ encoded) with
            ⟨next, accepted, added, rested⟩ | ⟨fault, stopped, refused, overfull, kept⟩
          · rw [accepted] at others ⊢
            rw [List.append_cons]
            rcases ih added rested others with ⟨answers, tracks'⟩ | ⟨count, call, mem, lost⟩
            · refine .inl ⟨?_, tracks'⟩
              simp only [List.map_cons, answers, encoded]
              rfl
            · refine .inr ⟨?_, call, List.mem_cons_of_mem _ mem, lost⟩
              dsimp only
              rw [List.countP_cons_of_pos rfl, count, List.length_cons]
          -- No block is completed after the one that was refused, so no other call can lose one.
          · rw [refused] at others ⊢
            have answers := overfull.writeAll calls others
            rw [kept, layout] at answers
            refine .inr ⟨?_, (values, .error fault), List.mem_cons_self, ?_, rfl⟩
            · dsimp only
              rw [List.countP_cons_of_neg Bool.false_ne_true, countP_isOk answers, List.length_cons]
            · rw [encoded]
              rfl

end Calls

end Builder

/-- Where calls have failed, a file that is finished counts the rows that were encoded. These are the
rows of the calls that succeeded, and all of them read back, unless the block of a call was not
stored: then there is one row more than calls that succeeded. A call that traps is none that has
failed. -/
theorem finish_after_refusals [Host] [Checksum] [CalendarText] {codec : BlockCodec}
    {layout : Layout} {rowsPerBlock : UInt32} {builder : Builder}
    (created : Builder.create codec layout rowsPerBlock = .ok builder)
    (lossless : codec.Lossless) (calls : List (List Value))
    (quiet : ∀ answer ∈ (builder.writeAll calls).1, ¬ Traps Fault.trap answer)
    {count : Nat} {bytes : Bytes}
    (finished : (builder.writeAll calls).2.finish = (.ok count, bytes))
    (numbered : (calls.filterMap (Row.image? layout)).length < UInt64.size)
    (seekable : bytes.length < 1 <<< 63) :
    count = (calls.filterMap (Row.image? layout)).length ∧
    (∃ header, peek bytes = .ok header ∧ header.rows.toNat = count) ∧
    (((builder.writeAll calls).1.map Except.isOk =
          calls.map (fun values => (Row.image? layout values).isSome) ∧
        count = (builder.writeAll calls).1.countP Except.isOk ∧
        ∃ file, ofBytes codec bytes = .ok file ∧ file.header.rows.toNat = count ∧
          ∀ (row : Nat) (image : Bytes),
            (Builder.acceptedRows layout calls (builder.writeAll calls).1)[row]? = some image →
              file.readRow row = Outcome.inContext (.decoding row)
                (Outcome.ofData (Row.read .native image layout))) ∨
      ((∃ call ∈ calls.zip (builder.writeAll calls).1, (Row.image? layout call.1).isSome ∧
          call.2.isOk = false) ∧
        count = (builder.writeAll calls).1.countP Except.isOk + 1)) := by
  obtain ⟨fresh, admissible⟩ := Builder.create_eq_ok created
  obtain ⟨tracks, resting⟩ := Builder.tracks_create created
  obtain ⟨codec_eq, layout_eq⟩ : builder.codec = codec ∧ builder.layout = layout := by
    rw [fresh]
    exact ⟨rfl, rfl⟩
  subst codec_eq layout_eq
  obtain ⟨full, flushed, rfl, rows, rfl⟩ := Builder.finish_eq_ok finished
  have counted := Builder.rows_writeAll builder calls quiet
  rw [tracks.counted, List.length_nil, Nat.zero_add] at counted
  have header : full.header.rows.toNat = (builder.writeAll calls).2.rows := by
    rw [← counted, ← rows] at numbered
    exact (UInt64.toNat_ofNat_of_lt numbered).trans rows
  refine ⟨counted, ⟨full.header, Builder.peek_sealed full, header⟩, ?_⟩
  rcases tracks.writeAll_cases resting lossless calls quiet with ⟨answers, written⟩ | ⟨lost, refused⟩
  · left
    rw [List.nil_append] at written
    have accepted := Builder.countP_isOk answers
    have kept : (builder.writeAll calls).2.codec.Lossless := by
      rw [written.shape.1]
      exact lossless
    have covers := written.covers_of_flush kept flushed
    have bounded := covers.bounded admissible numbered seekable
    have uniform : ∀ row ∈ calls.filterMap (Row.image? builder.layout),
        row.length = builder.layout.rowLength := by
      intro row mem
      obtain ⟨values, -, encoded⟩ := List.mem_filterMap.mp mem
      exact Row.length_of_image? encoded
    refine ⟨answers, counted.trans accepted.symm, full.file, covers.ofBytes admissible bounded, header, ?_⟩
    intro row image found
    rw [Builder.acceptedRows_eq answers] at found
    exact covers.readRow admissible bounded uniform found
  · right
    exact ⟨refused, counted.trans lost.symm⟩

section Bytewise

private def bytewise : Layout := [⟨⟨"n", .integer .int8, 0, 1⟩, []⟩]

private def call (number : Int) : List Value := [.integer .int8 (IntType.int8.wrap number)]

/-- Blocks are stored as they are, but for one block that is refused. -/
private def refusing (refused : Bytes) : BlockCodec :=
  { BlockCodec.passthrough with
    compress := fun _ raw => if raw = refused then .error (.io .other) else .ok ⟨[], raw⟩ }

private theorem refusing_lossless (refused : Bytes) : (refusing refused).Lossless := by
  intro rowLength raw stored compressed
  rw [refusing] at compressed
  dsimp only at compressed
  split_ifs at compressed
  cases compressed
  rfl

private def opened (codec : BlockCodec) : Builder :=
  ⟨codec, bytewise, 2, [1, 0, 110, 1, 0, 0, 0, 0, 1, 0, 0, 0], [], 0, 0, [], []⟩

theorem finish_after_refusals_unencoded :
    let builder := opened (refusing [5, 6])
    let calls := [call 5, [.string "six"], call 7, call 8]
    (builder.writeAll calls).1.countP Except.isOk = 3 ∧
      ∃ file, ofBytes (refusing [5, 6]) (builder.writeAll calls).2.finish.2 = .ok file ∧
        file.header.rows.toNat = 3 ∧ file.readRow 1 = .ok (call 7) := by
  intro builder calls
  have created : Builder.create (refusing [5, 6]) bytewise 2 = .ok builder := rfl
  have images : calls.filterMap (Row.image? bytewise) = [[5], [7], [8]] := by decide
  have answers : (builder.writeAll calls).1 = [.ok (),
      .error (.within (.encoding 1) (.data (.malformedNumber "six" .unexpectedCharacter))), .ok (),
      .ok ()] := by
    decide +kernel
  have accepted : (builder.writeAll calls).1.countP Except.isOk = 3 := by
    rw [answers]
    rfl
  have finished : (builder.writeAll calls).2.finish.1 = .ok 3 := by decide +kernel
  have quiet : ∀ answer ∈ (builder.writeAll calls).1, ¬ Traps Fault.trap answer := by
    rw [answers]
    simp [Traps, Fault.trap]
  obtain ⟨-, -, ⟨same, -, file, reopened, count, read⟩ | ⟨-, miscounted⟩⟩ :=
    finish_after_refusals created (refusing_lossless _) calls quiet (Prod.ext finished rfl)
      (by rw [images]; decide) (by decide +kernel)
  · rw [Builder.acceptedRows_eq same, images] at read
    refine ⟨accepted, file, reopened, count, ?_⟩
    rw [read 1 [7] rfl]
    rfl
  · rw [accepted] at miscounted
    contradiction

/-- The block of the first two rows is refused. The file counts three rows and has the last one in
the place of the first. -/
theorem finish_after_refusals_lost_block :
    let builder := opened (refusing [5, 6])
    let (answers, last) := builder.writeAll [call 5, call 6, call 7]
    Builder.create (refusing [5, 6]) bytewise 2 = .ok builder ∧ (refusing [5, 6]).Lossless ∧
      answers.map Except.isOk = [true, false, true] ∧ last.finish.1 = .ok 3 ∧
      (ofBytes (refusing [5, 6]) last.finish.2).bind (RowFile.readRow · 0) = .ok (call 7) := by
  exact ⟨rfl, refusing_lossless _, by decide, by decide +kernel, by decide +kernel⟩

end Bytewise

end RowStore.RowFile
