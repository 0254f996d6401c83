import Mathlib
import RowStore.Environment
import RowStore.Proofs.RowFile.Hostile
import RowStore.RowFile.Handle

/-! Reading a row touches one block only.

All that is read of a file after it was opened are the stored bytes of the block that the row is in.
Where earlier reads left the handle does not matter either, because each read of a block begins with a
seek.
-/

namespace RowStore.RowFile

section Blocks

variable {bytes : Bytes} {offset count : Nat}

theorem readAt_eq_ite (bytes : Bytes) (offset count : Nat) :
    readAt bytes offset count =
      if ((bytes.drop offset).take count).length = count then .ok ((bytes.drop offset).take count)
      else .error (.io .unexpectedEnd) := by
  rw [readAt, Bytes.slice?, List.length_take, List.length_drop, Nat.add_sub_cancel_left]
  by_cases inside : offset + count ≤ bytes.length
  · have enough : min count (bytes.length - offset) = count := by omega
    rw [if_pos ⟨Nat.le_add_right _ _, inside⟩, if_pos enough]
  · rw [if_neg fun both => inside both.2]
    by_cases nothing : count = 0
    · simp [nothing]
    · have short : min count (bytes.length - offset) ≠ count := by omega
      rw [if_neg short]
      exact if_neg nothing

/-- What is read inside a part of the bytes is read from the part. -/
theorem readAt_window {start room : Nat} (inside : start + count ≤ room) :
    readAt bytes (offset + start) count = readAt ((bytes.drop offset).take room) start count := by
  have same : (((bytes.drop offset).take room).drop start).take count =
      (bytes.drop (offset + start)).take count := by
    rw [List.drop_take, List.take_take, List.drop_drop, min_eq_left (by omega)]
  rw [readAt_eq_ite, readAt_eq_ite, same]

theorem length_of_readAt {found : Bytes} (read : readAt bytes offset count = .ok found) :
    found.length = count ∧ found = (bytes.drop offset).take count := by
  rw [readAt_eq_ite] at read
  split_ifs at read with enough
  cases read
  exact ⟨enough, rfl⟩

theorem eq_of_seek {start : Nat} (sought : seek offset = .ok start) : start = offset := by
  rw [seek] at sought
  split_ifs at sought
  cases sought
  rfl

/-- How many bytes a block takes: those of the length of its sidecar, of the sidecar and of the
payload. -/
def blockRoom (bytes : Bytes) (entry : BlockEntry) : Nat :=
  2 + Bytes.toNat ((bytes.drop entry.offset.toNat).take 2) + entry.storedLength.toNat

/-- The bytes of a block, as far as the file goes. -/
def blockBytes (bytes : Bytes) (entry : BlockEntry) : Bytes :=
  (bytes.drop entry.offset.toNat).take (blockRoom bytes entry)

theorem readAt_blockBytes {entry : BlockEntry} {start : Nat}
    (inside : start + count ≤ blockRoom bytes entry) :
    readAt bytes (entry.offset.toNat + start) count = readAt (blockBytes bytes entry) start count :=
  readAt_window inside

/-- Find sidecar and payload in the bytes of a block. -/
def splitBlock (stored : Bytes) (payloadLength : Nat) : Except Fault StoredBlock := do
  let length ← readAt stored 0 2
  let sidecar ← readAt stored 2 (Bytes.toNat length)
  let payload ← readAt stored (2 + sidecar.length) payloadLength
  .ok ⟨sidecar, payload⟩

theorem storedBlock_eq (file : RowFile) (entry : BlockEntry) :
    file.storedBlock entry = seek entry.offset.toNat >>= fun _ =>
      splitBlock (blockBytes file.bytes entry) entry.storedLength.toNat := by
  refine Outcome.bind_congr fun start sought => ?_
  obtain rfl := eq_of_seek sought
  have inside : 0 + 2 ≤ blockRoom file.bytes entry := by
    rw [blockRoom]
    omega
  have first : readAt file.bytes entry.offset.toNat 2 = readAt (blockBytes file.bytes entry) 0 2 := by
    rw [← readAt_blockBytes inside, Nat.add_zero]
  rw [splitBlock, ← first]
  refine Outcome.bind_congr fun length read => ?_
  have second : readAt file.bytes (entry.offset.toNat + 2) (Bytes.toNat length) =
      readAt (blockBytes file.bytes entry) 2 (Bytes.toNat length) := by
    rw [(length_of_readAt read).2]
    exact readAt_blockBytes (Nat.le_add_right _ _)
  rw [← second]
  refine Outcome.bind_congr fun sidecar read' => ?_
  have room : 2 + sidecar.length + entry.storedLength.toNat = blockRoom file.bytes entry := by
    rw [(length_of_readAt read').1, (length_of_readAt read).2, blockRoom]
  rw [Nat.add_assoc, readAt_blockBytes room.le]

theorem readRow_eq [Checksum] (file : RowFile) (row : Nat) :
    file.readRow row = file.locate row >>= fun (block, entry) =>
      file.storedBlock entry >>= file.extract row block entry := by
  rw [readRow, locate]
  split_ifs
  · rfl
  · rw [bind_assoc]
    refine Outcome.bind_congr fun block _ => ?_
    cases held : file.index[block]? with
    | none => rfl
    | some entry =>
        dsimp only
        rw [readBlock, held]
        dsimp only
        rw [bind_assoc]
        refine Outcome.bind_congr fun stored _ => ?_
        rw [bind_assoc, extract]
        refine Outcome.bind_congr fun _ _ => ?_
        rw [bind_assoc]
        refine Outcome.bind_congr fun raw _ => ?_
        split_ifs <;> rfl

end Blocks

section Handles

variable {α β : Type}

namespace Handled

theorem answer_bind (first : Handled α) (next : α → Handled β) (offset : Nat) :
    (first >>= next).answer offset =
      first.answer offset >>= fun found => (next found).answer (first.left offset) := by
  rw [answer, ExceptT.run_bind, StateT.run_bind, answer, left]
  cases (first.run.run offset) with
  | mk result there => cases result <;> rfl

theorem answer_liftM (result : Except Fault α) (offset : Nat) :
    (liftM result : Handled α).answer offset = result := rfl

theorem left_liftM (result : Except Fault α) (offset : Nat) :
    (liftM result : Handled α).left offset = offset := rfl

end Handled

theorem run_seekTo {target there : Nat} (sought : seek target = .ok there) (offset : Nat) :
    (seekTo target).answer offset = .ok () ∧ (seekTo target).left offset = there := by
  rw [seekTo, sought]
  exact ⟨rfl, rfl⟩

/-- A read finds what stands behind the handle, and leaves the handle behind that. -/
theorem run_readNext (bytes : Bytes) (count offset : Nat) :
    (readNext bytes count).answer offset = readAt bytes offset count ∧
      (readNext bytes count).left offset = offset + ((bytes.drop offset).take count).length := by
  let found := (bytes.drop offset).take count
  have unfolded : (readNext bytes count).run.run offset =
      (if found.length = count then pure found else throw (.io .unexpectedEnd) :
        Handled Bytes).run.run (offset + found.length) := rfl
  rw [Handled.answer, Handled.left, unfolded, readAt_eq_ite]
  split_ifs <;> exact ⟨rfl, rfl⟩

theorem left_readNext {bytes found : Bytes} {count offset : Nat}
    (read : readAt bytes offset count = .ok found) :
    (readNext bytes count).left offset = offset + found.length := by
  rw [(run_readNext bytes count offset).2, ← (length_of_readAt read).2]

/-- Wherever the handle stands, a block is read from its own place. -/
theorem answer_fetchBlock (file : RowFile) (entry : BlockEntry) (offset : Nat) :
    (file.fetchBlock entry).answer offset = file.storedBlock entry := by
  rw [fetchBlock, storedBlock, Handled.answer_bind]
  cases sought : seek entry.offset.toNat with
  | error fault => rw [seekTo, sought]; rfl
  | ok start =>
      obtain ⟨answered, there⟩ := run_seekTo sought offset
      rw [answered, there]
      show Handled.answer _ start = _
      rw [Handled.answer_bind, (run_readNext file.bytes 2 start).1]
      refine Outcome.bind_congr fun length read => ?_
      rw [left_readNext read, (length_of_readAt read).1, Handled.answer_bind, (run_readNext _ _ _).1]
      refine Outcome.bind_congr fun sidecar read' => ?_
      rw [left_readNext read', Handled.answer_bind, (run_readNext _ _ _).1]
      rfl

theorem answer_fetchRow [Checksum] (file : RowFile) (row offset : Nat) :
    (file.fetchRow row).answer offset = file.readRow row := by
  rw [fetchRow, readRow_eq, Handled.answer_bind, Handled.answer_liftM, Handled.left_liftM]
  refine Outcome.bind_congr fun (block, entry) _ => ?_
  rw [Handled.answer_bind, answer_fetchBlock]
  rfl

theorem fetchRows_eq [Checksum] (file : RowFile) (rows : List Nat) (offset : Nat) :
    ((file.fetchRows rows).run offset).1 = rows.map file.readRow := by
  rw [fetchRows]
  induction rows generalizing offset with
  | nil => rfl
  | cons row rows ih =>
      rw [List.mapM_cons, StateT.run_bind, List.map_cons, ← answer_fetchRow file row offset,
        ← ih ((file.fetchRow row).left offset)]
      rfl

end Handles

section Opened

variable {bytes : Bytes} {file : RowFile} {row : Nat}

theorem located_cases {block : Nat} {entry : BlockEntry}
    (located : file.locate row = .ok (block, entry)) :
    file.blockOf row = .ok block ∧ file.index[block]? = some entry := by
  rw [locate] at located
  split_ifs at located
  obtain ⟨block', divided, located⟩ := Outcome.bind_eq_ok_iff.mp located
  cases held : file.index[block']? with
  | none => simp [held] at located
  | some entry' =>
      rw [held] at located
      cases located
      exact ⟨divided, held⟩

/-- Bytes outside the block of a row can be any. -/
theorem readRow_withBytes [Checksum]
    (agree : ∀ block entry, file.blockOf row = .ok block → file.index[block]? = some entry →
      blockBytes file.bytes entry = blockBytes bytes entry) :
    { file with bytes := bytes }.readRow row = file.readRow row := by
  rw [readRow_eq, readRow_eq]
  have same : { file with bytes := bytes }.locate row = file.locate row := rfl
  rw [same]
  refine Outcome.bind_congr fun (block, entry) located => ?_
  obtain ⟨divided, held⟩ := located_cases located
  dsimp only
  rw [storedBlock_eq, storedBlock_eq, agree block entry divided held]
  rfl

theorem getLast?_fetchRows [Checksum] (file : RowFile) (earlier : List Nat) (row offset : Nat) :
    ((file.fetchRows (earlier ++ [row])).run offset).1.getLast? = some (file.readRow row) := by
  rw [fetchRows_eq, List.map_append, List.map_singleton, List.getLast?_concat]

end Opened

/-- Random access touches one block. Two files that were opened with one codec, and that have the same
header, schema and block index, give the same answer for a row when they agree on the bytes of the block
that the row is in, from its offset to the end of its payload. All other bytes can be any. The same
answer comes through a handle of either file, as the last of the rows that are read, whatever rows were
read before and wherever the handle stood. -/
theorem readRow_local [Checksum] (codec : BlockCodec) (left right : Bytes) (leftFile rightFile : RowFile)
    (openedLeft : ofBytes codec left = .ok leftFile)
    (openedRight : ofBytes codec right = .ok rightFile)
    (header : leftFile.header = rightFile.header) (layout : leftFile.layout = rightFile.layout)
    (index : leftFile.index = rightFile.index) (row : Nat)
    (agree : ∀ block entry, leftFile.blockOf row = .ok block → leftFile.index[block]? = some entry →
      blockBytes left entry = blockBytes right entry) :
    leftFile.readRow row = rightFile.readRow row ∧
    ∀ earlier offset,
      ((leftFile.fetchRows (earlier ++ [row])).run offset).1.getLast? =
        some (leftFile.readRow row) ∧
      ((rightFile.fetchRows (earlier ++ [row])).run offset).1.getLast? =
        some (leftFile.readRow row) := by
  obtain ⟨bytesLeft, codecLeft⟩ := parts_of_openIn openedLeft
  obtain ⟨bytesRight, codecRight⟩ := parts_of_openIn openedRight
  have same : rightFile = { leftFile with bytes := right } := by
    rw [header, layout, index, codecLeft.trans codecRight.symm, ← bytesRight]
  have rows : leftFile.readRow row = rightFile.readRow row := by
    rw [same]
    refine (readRow_withBytes fun block entry divided held => ?_).symm
    rw [bytesLeft]
    exact agree block entry divided held
  refine ⟨rows, fun earlier offset => ⟨getLast?_fetchRows leftFile earlier row offset, ?_⟩⟩
  rw [getLast?_fetchRows, rows]

/-- Two files of two rows that differ in the second block, and in where their index stands. The first
row is the same, also after the second one was read from one of them only. -/
theorem readRow_local_second_block_differs :
    let head := FileHeader.toBytes ⟨1, 0, .little, 1, 1, 2, 2, 0, 12, 1⟩ ++
      [1, 0, 0x6E, 1, 0, 0, 0, 0, 1, 0, 0, 0]
    let index := BlockEntry.toBytes ⟨76, 0, 1, 1, 0⟩ ++ BlockEntry.toBytes ⟨79, 1, 1, 1, 0⟩
    let left := head ++ [0, 0, 7] ++ [0, 0, 8] ++ index ++ Bytes.ofNat 8 82
    let right := head ++ [0, 0, 7] ++ [2, 0, 3, 4, 9] ++ index ++ Bytes.ofNat 8 84
    ∃ leftFile rightFile, ofBytes .passthrough left = .ok leftFile ∧
      ofBytes .passthrough right = .ok rightFile ∧
      leftFile.readRow 0 = .ok [.integer .int8 ⟨7, by decide⟩] ∧
      rightFile.readRow 0 = .ok [.integer .int8 ⟨7, by decide⟩] ∧
      leftFile.readRow 1 ≠ rightFile.readRow 1 ∧
      ((rightFile.fetchRows [1, 0]).run 0).1.getLast? = some (leftFile.readRow 0) := by
  intro head index left right
  obtain ⟨leftFile, openedLeft, foundLeft⟩ := Outcome.map_eq_ok_iff.mp
    (show (ofBytes .passthrough left).map (fun file => (file.header, file.layout, file.index)) =
      .ok (⟨1, 0, .little, 1, 1, 2, 2, 0, 12, 1⟩, [⟨⟨"n", .integer .int8, 0, 1⟩, []⟩],
        [⟨76, 0, 1, 1, 0⟩, ⟨79, 1, 1, 1, 0⟩]) by decide +kernel)
  obtain ⟨rightFile, openedRight, foundRight⟩ := Outcome.map_eq_ok_iff.mp
    (show (ofBytes .passthrough right).map (fun file => (file.header, file.layout, file.index)) =
      .ok (⟨1, 0, .little, 1, 1, 2, 2, 0, 12, 1⟩, [⟨⟨"n", .integer .int8, 0, 1⟩, []⟩],
        [⟨76, 0, 1, 1, 0⟩, ⟨79, 1, 1, 1, 0⟩]) by decide +kernel)
  have rowsLeft : (ofBytes .passthrough left).map (fun file => (file.readRow 0, file.readRow 1)) =
      .ok (.ok [.integer .int8 ⟨7, by decide⟩], .ok [.integer .int8 ⟨8, by decide⟩]) := by
    decide +kernel
  have rowsRight : (ofBytes .passthrough right).map (·.readRow 1) =
      .ok (.ok [.integer .int8 ⟨9, by decide⟩]) := by
    decide +kernel
  rw [openedLeft] at rowsLeft
  rw [openedRight] at rowsRight
  obtain ⟨firstLeft, secondLeft⟩ := Prod.mk.inj (Except.ok.inj rowsLeft)
  have secondRight : rightFile.readRow 1 = _ := Except.ok.inj rowsRight
  simp only [Prod.mk.injEq] at foundLeft foundRight
  obtain ⟨headerLeft, layoutLeft, indexLeft⟩ := foundLeft
  obtain ⟨headerRight, layoutRight, indexRight⟩ := foundRight
  obtain ⟨first, run⟩ := readRow_local .passthrough left right leftFile rightFile openedLeft
    openedRight (headerLeft.trans headerRight.symm) (layoutLeft.trans layoutRight.symm)
    (indexLeft.trans indexRight.symm) 0 (by
      intro block entry divided held
      rw [blockOf, headerLeft] at divided
      obtain rfl : 0 = block := Except.ok.inj divided
      rw [indexLeft] at held
      obtain rfl := Option.some.inj held
      decide +kernel)
  refine ⟨leftFile, rightFile, openedLeft, openedRight, firstLeft, first ▸ firstLeft, ?_,
    (run [1] 0).2⟩
  intro same
  exact absurd (secondLeft.symm.trans (same.trans secondRight)) (by decide)

end RowStore.RowFile
