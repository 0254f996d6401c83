import Mathlib
import RowStore.Proofs.Csv.Collecting
import RowStore.Proofs.Csv.Split
import RowStore.Proofs.Evidence.Deduction

/-! The lines of a table.

A line is found at the first byte behind an offset that is no line break, and the next one is looked
for where it ends. Lines follow one another in this way until no content is left. A table is scanned
to just these lines, and refused at the first one of another width.
-/

namespace RowStore.Csv

section Content

variable {base offset : Nat} {byte : UInt8} {bytes rest : Bytes}

/-- What is left of a table is its content and then blank bytes, and content does not end in one. -/
theorem exists_contentEnd (base : Nat) (rest : Bytes) :
    ∃ content blanks, rest = content ++ blanks ∧ contentEnd base rest = base + content.length ∧
      (∀ byte ∈ blanks, isEndBlank byte = true) ∧
      ∀ byte ∈ content.getLast?, isEndBlank byte = false := by
  refine ⟨(rest.reverse.dropWhile isEndBlank).reverse,
    (rest.reverse.takeWhile isEndBlank).reverse, ?_, ?_, ?_, ?_⟩
  · rw [← List.reverse_append, List.takeWhile_append_dropWhile, List.reverse_reverse]
  · rw [contentEnd, List.length_reverse]
  · intro byte mem
    exact List.mem_takeWhile_imp (List.mem_reverse.mp mem)
  · intro byte last
    rw [List.getLast?_reverse] at last
    have stopped := List.head?_dropWhile_not isEndBlank rest.reverse
    rw [Option.mem_def.mp last] at stopped
    simpa using stopped

theorem contentEnd_le (inside : base ≤ bytes.length) :
    contentEnd base (bytes.drop base) ≤ bytes.length := by
  obtain ⟨content, blanks, split, stop, -, -⟩ := exists_contentEnd base (bytes.drop base)
  have length := congrArg List.length split
  rw [List.length_drop, List.length_append] at length
  omega

theorem isEndBlank_of_contentEnd_le (after : contentEnd base (bytes.drop base) ≤ offset)
    (found : bytes[offset]? = some byte) : isEndBlank byte = true := by
  obtain ⟨content, blanks, split, stop, blank, -⟩ := exists_contentEnd base (bytes.drop base)
  have position : (bytes.drop base)[offset - base]? = some byte := by
    rw [List.getElem?_drop, Nat.add_sub_cancel' (by omega), found]
  rw [split, List.getElem?_append_right (by omega)] at position
  exact blank byte (List.mem_of_getElem? position)

/-- Content behind an offset is before the end of the content. -/
theorem lt_contentEnd (mem : byte ∈ bytes.drop offset) (content : isEndBlank byte = false) :
    offset < contentEnd base (bytes.drop base) := by
  obtain ⟨index, found⟩ := List.mem_iff_getElem?.mp mem
  rw [List.getElem?_drop] at found
  by_contra before
  have behind : contentEnd base (bytes.drop base) ≤ offset + index := by omega
  rw [isEndBlank_of_contentEnd_le behind found] at content
  contradiction

/-- The content behind an offset ends in a byte that is not blank. -/
theorem exists_of_lt_contentEnd (content : base < contentEnd base (bytes.drop base)) :
    ∃ byte, bytes[contentEnd base (bytes.drop base) - 1]? = some byte ∧ isEndBlank byte = false := by
  obtain ⟨content', blanks, split, stop, -, last⟩ := exists_contentEnd base (bytes.drop base)
  have nonempty : content' ≠ [] := by
    rintro rfl
    simp only [List.length_nil] at stop
    omega
  refine ⟨content'.getLast nonempty, ?_, last _ (List.getLast?_eq_some_getLast nonempty)⟩
  have length := List.length_pos_iff.mpr nonempty
  have position : (bytes.drop base)[content'.length - 1]? = some (content'.getLast nonempty) := by
    rw [split, List.getElem?_append_left (by omega), ← List.getLast?_eq_getElem?,
      List.getLast?_eq_some_getLast nonempty]
  rw [List.getElem?_drop] at position
  rw [← position]
  congr 1
  omega

theorem isEndBlank_of_isLineBreak (breaks : isLineBreak byte = true) : isEndBlank byte = true := by
  rw [isLineBreak, Bool.or_eq_true, decide_eq_true_iff, decide_eq_true_iff] at breaks
  rcases breaks with rfl | rfl <;> rfl

end Content

namespace Line

variable {bytes : Bytes} {bound origin since offset stop behind : Nat} {line : Line}
  {lines : List Line}

/-- Where the fields of a line end. -/
def textStop (line : Line) : Nat := (line.fields.getLast?.map Span.stop).getD 0

theorem textStop_eq {field : Span} (last : line.fields.getLast? = some field) :
    line.textStop = field.stop := by
  rw [textStop, last]
  rfl

theorem textStop_cons {field second : Span} {others : List Span} {next : Nat} :
    textStop ⟨field :: second :: others, next⟩ = textStop ⟨second :: others, next⟩ := by
  rw [textStop, textStop, List.getLast?_cons_cons]

theorem IsSplit.isEnd (split : IsSplit bytes bound origin since line) :
    IsEnd bytes origin bound line.textStop line.stop := by
  have last := List.getLast?_eq_some_getLast split.nonempty
  rw [textStop_eq last]
  exact split.ending _ last

theorem IsSplit.since_le_textStop (split : IsSplit bytes bound origin since line) :
    since ≤ line.textStop := by
  obtain ⟨fields, next⟩ := line
  induction fields generalizing since with
  | nil => exact absurd rfl split.nonempty
  | cons field rest ih =>
      obtain ⟨starts, ordered, -, ⟨rfl, -⟩ | ⟨-, more⟩⟩ := split.uncons
      · rw [textStop_eq rfl]
        exact starts ▸ ordered
      · obtain ⟨second, others, rfl⟩ := List.exists_cons_of_ne_nil more.nonempty
        have later := ih more
        rw [textStop_cons]
        omega

/-- The line that is found from an offset on, and ends at a line break or with the bytes. -/
def FoundAt (bytes : Bytes) (offset : Nat) (line : Line) : Prop :=
  ∃ origin, start? bytes offset bytes.length = some origin ∧
    IsSplit bytes bytes.length origin origin line

theorem start?_eq_some (started : start? bytes offset bound = some origin) :
    offset ≤ origin ∧ origin < bound ∧
      (∃ byte, bytes[origin]? = some byte ∧ isLineBreak byte = false) ∧
      ∀ skipped, offset ≤ skipped → skipped < origin →
        ∀ byte, bytes[skipped]? = some byte → isLineBreak byte = true := by
  rw [start?, List.find?_range'_eq_some] at started
  obtain ⟨content, mem, skipped⟩ := started
  rw [List.mem_range'_1] at mem
  refine ⟨mem.1, by omega, ?_, fun passed after before byte found => ?_⟩
  · cases found : bytes[origin]? with
    | none => simp [found] at content
    | some byte => exact ⟨byte, rfl, by simpa [found] using content⟩
  · simpa [found] using skipped passed after before

theorem FoundAt.bounds (found : FoundAt bytes offset line) :
    ∃ origin, start? bytes offset bytes.length = some origin ∧
      IsSplit bytes bytes.length origin origin line ∧ offset ≤ origin ∧ origin < bytes.length ∧
      origin ≤ line.textStop ∧ line.textStop ≤ line.stop ∧ line.stop ≤ bytes.length := by
  obtain ⟨origin, started, split⟩ := found
  obtain ⟨after, inside, -, -⟩ := start?_eq_some started
  have ordered := split.since_le_textStop
  refine ⟨origin, started, split, after, inside, ordered, ?_⟩
  rcases split.isEnd with ⟨last, next⟩ | ⟨before, -, next⟩ <;> omega

theorem FoundAt.lt_stop (found : FoundAt bytes offset line) : offset < line.stop := by
  obtain ⟨origin, -, split, after, inside, ordered, -⟩ := found.bounds
  rcases split.isEnd with ⟨-, next⟩ | ⟨-, -, next⟩ <;> omega

theorem FoundAt.stop_le (found : FoundAt bytes offset line) : line.stop ≤ bytes.length := by
  obtain ⟨-, -, -, -, -, -, -, inside⟩ := found.bounds
  exact inside

theorem exists_foundAt {base : Nat} (inside : base ≤ bytes.length) (reached : base ≤ offset)
    (content : offset < contentEnd base (bytes.drop base)) : ∃ line, FoundAt bytes offset line := by
  obtain ⟨byte, found, blank⟩ := exists_of_lt_contentEnd (reached.trans_lt content)
  have bounded := contentEnd_le inside
  have started : (start? bytes offset bytes.length).isSome := by
    rw [start?, List.find?_isSome]
    refine ⟨contentEnd base (bytes.drop base) - 1, ?_, ?_⟩
    · rw [List.mem_range'_1]
      omega
    · rw [found, Option.any_some, Bool.not_eq_true']
      cases breaks : isLineBreak byte with
      | false => rfl
      | true => rw [isEndBlank_of_isLineBreak breaks] at blank; contradiction
  obtain ⟨origin, started⟩ := Option.isSome_iff_exists.mp started
  obtain ⟨line, -, split⟩ := first?_isSplit (Nat.le_refl _) started none
  exact ⟨line.line, origin, started, split⟩

theorem FoundAt.first? (found : FoundAt bytes offset line) (evidence : Option (List Evidence)) :
    ∃ read, Line.first? offset (bytes.drop offset) evidence = some read ∧ read.line = line := by
  obtain ⟨origin, started, split⟩ := found
  obtain ⟨read, first, other⟩ := first?_isSplit (Nat.le_refl _) started evidence
  rw [List.take_length] at first
  exact ⟨read, first, other.unique split⟩

theorem foundAt_of_first? {read : ReadLine} {evidence : Option (List Evidence)}
    (first : Line.first? offset (bytes.drop offset) evidence = some read) :
    FoundAt bytes offset read.line := by
  cases started : start? bytes offset bytes.length with
  | none =>
      rw [start?_eq (Nat.le_refl _), List.take_length] at started
      split at started
      · rename_i empty
        rw [Line.first?_eq, empty] at first
        cases first
      · cases started
  | some origin =>
      obtain ⟨other, first', split⟩ := first?_isSplit (Nat.le_refl _) started evidence
      rw [List.take_length, first, Option.some.injEq] at first'
      subst first'
      exact ⟨origin, started, split⟩

theorem FoundAt.parse (found : FoundAt bytes 0 line) (evidence : Option (List Evidence)) :
    ∃ read, Line.parse bytes 0 (-1) evidence = .ok read ∧ read.line = line := by
  obtain ⟨read, first, same⟩ := found.first? evidence
  rw [List.drop_zero] at first
  exact ⟨read, by rw [parse_zero, first], same⟩

theorem foundAt_of_parse {read : ReadLine} {evidence : Option (List Evidence)}
    (parsed : Line.parse bytes 0 (-1) evidence = .ok read) : FoundAt bytes 0 read.line := by
  rw [parse_zero] at parsed
  cases first : Line.first? 0 bytes evidence with
  | none => rw [first] at parsed; cases parsed
  | some other =>
      rw [first] at parsed
      cases parsed
      rw [← List.drop_zero (l := bytes)] at first
      exact foundAt_of_first? first

/-- Lines that follow one another from an offset on, each read where the one before has ended and
only while there is content before `stop`. -/
inductive Follow (bytes : Bytes) (stop : Nat) : (offset : Nat) → List Line → (behind : Nat) → Prop
  | done (offset : Nat) : Follow bytes stop offset [] offset
  | next {offset behind : Nat} {line : Line} {lines : List Line} (content : offset < stop)
      (found : FoundAt bytes offset line) (more : Follow bytes stop line.stop lines behind) :
      Follow bytes stop offset (line :: lines) behind

theorem Follow.isChain (follow : Follow bytes stop offset lines behind) :
    (offset :: lines.map Line.stop).IsChain (· < ·) := by
  induction follow with
  | done offset => exact .singleton _
  | next content found more ih =>
      rw [List.map_cons]
      exact List.isChain_cons_cons.mpr ⟨found.lt_stop, ih⟩

/-- The next line is looked for where the last one has ended. -/
theorem Follow.getLast?_stop (follow : Follow bytes stop offset lines behind) :
    (offset :: lines.map Line.stop).getLast? = some behind := by
  induction follow with
  | done offset => rfl
  | next content found more ih => rw [List.map_cons, List.getLast?_cons_cons, ih]

theorem Follow.behind_le (follow : Follow bytes stop offset lines behind)
    (inside : offset ≤ bytes.length) : behind ≤ bytes.length := by
  induction follow with
  | done offset => exact inside
  | next content found more ih => exact ih found.stop_le

/-- Lines of one width follow one another until the content ends or a line of another width comes. -/
theorem exists_follow {base : Nat} (width : Nat) (inside : base ≤ bytes.length)
    (reached : base ≤ offset) :
    ∃ lines behind, Follow bytes (contentEnd base (bytes.drop base)) offset lines behind ∧
      (∀ line ∈ lines, line.fields.length = width) ∧
      (contentEnd base (bytes.drop base) ≤ behind ∨
        behind < contentEnd base (bytes.drop base) ∧
          ∃ line, FoundAt bytes behind line ∧ line.fields.length ≠ width) := by
  generalize stopped : contentEnd base (bytes.drop base) = stop
  have bounded := contentEnd_le inside
  generalize left : bytes.length - offset = room
  -- Every line read leaves fewer bytes, so the induction is on how many are left.
  induction room using Nat.strong_induction_on generalizing offset with
  | _ room ih =>
      by_cases content : offset < stop
      · obtain ⟨line, found⟩ := exists_foundAt inside reached (stopped ▸ content)
        have progress := found.lt_stop
        have within := found.stop_le
        by_cases fields : line.fields.length = width
        · obtain ⟨lines, behind, follow, widths, ending⟩ :=
            ih (bytes.length - line.stop) (by omega) (by omega) rfl
          exact ⟨line :: lines, behind, .next content found follow,
            List.forall_mem_cons.mpr ⟨fields, widths⟩, ending⟩
        · exact ⟨[], offset, .done offset, by simp, .inr ⟨content, line, found, fields⟩⟩
      · exact ⟨[], offset, .done offset, by simp, .inl (not_lt.mp content)⟩

end Line

section Counts

open Evidence (counted ofField)

variable {file added : List Evidence} {lines : Nat}

/-- The counts of every column can still take a number of lines. -/
def HasRoom (evidence : Option (List Evidence)) (lines : Nat) : Prop :=
  ∀ file ∈ evidence, lines < UInt32.size ∧ ∀ column ∈ file,
    column.empty + lines < UInt32.size ∧ column.nonEmpty + lines < UInt32.size

theorem counts_ofField (field : Bytes) : (ofField field).empty ≤ 1 ∧ (ofField field).nonEmpty ≤ 1 := by
  obtain ⟨empty, nonEmpty, -⟩ := Evidence.foldl_push_counts .none (field.map Text.Bmp.latin1)
  have fed : (Evidence.fed field).empty = 0 ∧ (Evidence.fed field).nonEmpty = 0 := ⟨empty, nonEmpty⟩
  rw [ofField, Evidence.endField]
  split_ifs
  · simp only [fed]
    omega
  · obtain ⟨-, empty, nonEmpty, -⟩ := Evidence.settle_frame
      { Evidence.fed field with
        field := .empty
        nonEmpty := (Evidence.fed field).nonEmpty + 1
        width := max (Evidence.fed field).width
          (min (max field.length (Evidence.fed field).field.encoded) Evidence.widthLimit) }
      (Evidence.fed field).field
    rw [empty, nonEmpty]
    simp only [fed]
    omega

theorem HasRoom.mergeAll (room : HasRoom (some file) (lines + 1))
    (once : ∀ column ∈ added, column.empty ≤ 1 ∧ column.nonEmpty ≤ 1) :
    HasRoom (some (Evidence.mergeAll file added)) lines := by
  obtain ⟨enough, counts⟩ := room file rfl
  intro sum same
  obtain rfl := Option.some.inj same
  refine ⟨by omega, fun column mem => ?_⟩
  obtain ⟨index, found⟩ := List.mem_iff_getElem?.mp mem
  rw [Evidence.mergeAll, Evidence.getElem?_mergeEach (Evidence.length_le_padded ..),
    Option.map_eq_some_iff] at found
  obtain ⟨first, before, merged⟩ := found
  have room : first.empty + (lines + 1) < UInt32.size ∧
      first.nonEmpty + (lines + 1) < UInt32.size := by
    rcases List.mem_append.mp (List.mem_of_getElem? before) with mem | mem
    · exact counts first mem
    · rw [List.eq_of_mem_replicate mem]
      simp only [Evidence.none]
      omega
  cases more : added[index]? with
  | none =>
      rw [more] at merged
      obtain rfl : first = column := merged
      omega
  | some second =>
      obtain ⟨empty, nonEmpty⟩ := once second (List.mem_of_getElem? more)
      rw [more] at merged
      obtain rfl : first.merge second = column := merged
      simp only [Evidence.merge]
      omega

theorem mapM_counted (room : HasRoom (some file) lines) : file.mapM counted = .ok file := by
  obtain ⟨-, counts⟩ := room file rfl
  rw [Outcome.mapM_eq_ok_iff, List.forall₂_same]
  intro column mem
  have bounds := counts column mem
  rw [counted, if_pos (by omega)]

/-- Counting past the width of a count is the one way in which evidence stops a scan. -/
theorem addEvidence_eq_error {evidence line : Option (List Evidence)} {reason : Error}
    (refused : addEvidence evidence line = .error reason) : reason = .trap .overflow := by
  cases evidence with
  | none => cases refused
  | some file =>
      cases line with
      | none => cases refused
      | some added =>
          rw [addEvidence] at refused
          cases counts : (Evidence.mergeAll file added).mapM counted with
          | ok sum => rw [counts] at refused; cases refused
          | error other =>
              rw [counts] at refused
              cases refused
              obtain ⟨column, -, failed⟩ := Outcome.exists_of_mapM_eq_error counts
              rw [counted] at failed
              split at failed
              · cases failed
              · exact (Except.error.inj failed).symm

end Counts

section Scanning

variable {bytes : Bytes} {width stop offset behind : Nat} {evidence : Option (List Evidence)}
  {lines : List Line}

theorem scanLines_read (width : Nat) (rows : List (List Span)) {rest : Bytes} {found : ReadLine}
    (content : offset < stop)
    (read : Line.first? offset rest (evidence.map fun _ => []) = some found) :
    scanLines width stop offset rest rows evidence =
      if found.line.fields.length ≠ width then
        (.error (.columnCountMismatch rows.length offset width found.line.fields.length), evidence)
      else
        match addEvidence evidence found.evidence with
        | .error reason => (.error reason, evidence)
        | .ok sum =>
            scanLines width stop found.line.stop found.rest (found.line.fields :: rows) sum := by
  rw [scanLines, if_pos content]
  split
  · rename_i unread
    rw [read] at unread
    contradiction
  · rename_i other same
    obtain rfl := Option.some.inj (same.symm.trans read)
    rfl

/-- A line of the right width is added, and so is its evidence while there is room to count it. -/
theorem scanLines_foundAt {line : Line} (content : offset < stop) (inside : offset ≤ bytes.length)
    (found : Line.FoundAt bytes offset line) (fields : line.fields.length = width)
    (rows : List (List Span)) (evidence : Option (List Evidence)) :
    (∃ sum, scanLines width stop offset (bytes.drop offset) rows evidence =
        scanLines width stop line.stop (bytes.drop line.stop) (line.fields :: rows) sum ∧
        (evidence = none → sum = none) ∧
        ∀ lines, HasRoom evidence (lines + 1) → HasRoom sum lines) ∨
      ((scanLines width stop offset (bytes.drop offset) rows evidence).1 =
          .error (.trap .overflow) ∧ ∀ lines, ¬ HasRoom evidence (lines + 1)) := by
  obtain ⟨read, first, rfl⟩ := found.first? (evidence.map fun _ => [])
  obtain ⟨rest, -⟩ := Line.rest_of_first? inside first
  have step := scanLines_read width rows content first
  rw [if_neg (not_not_intro fields), rest] at step
  cases evidence with
  | none =>
      refine .inl ⟨none, step, fun _ => rfl, ?_⟩
      intro lines room file absent
      contradiction
  | some file =>
      have once : ∀ column ∈ LineScan.fieldsEvidence bytes read.line.fields,
          column.empty ≤ 1 ∧ column.nonEmpty ≤ 1 := by
        intro column mem
        obtain ⟨field, -, rfl⟩ := List.mem_map.mp mem
        exact counts_ofField _
      rw [Line.evidence_of_first? inside first] at step
      cases added : addEvidence (some file)
          (some (LineScan.fieldsEvidence bytes read.line.fields)) with
      | ok sum =>
          rw [added] at step
          refine .inl ⟨sum, step, (fun absent => by cases absent), ?_⟩
          intro lines room
          obtain rfl := addEvidence_eq_ok added
          exact room.mergeAll once
      | error reason =>
          rw [added] at step
          obtain rfl := addEvidence_eq_error added
          refine .inr ⟨by rw [step], ?_⟩
          intro lines room
          have counted := mapM_counted (room.mergeAll once)
          rw [addEvidence, counted] at added
          cases added

/-- Lines of the right width are added one after another. -/
theorem scanLines_follow (follow : Line.Follow bytes stop offset lines behind)
    (inside : offset ≤ bytes.length) (fields : ∀ line ∈ lines, line.fields.length = width)
    (rows : List (List Span)) (evidence : Option (List Evidence)) :
    (∃ sum, scanLines width stop offset (bytes.drop offset) rows evidence =
        scanLines width stop behind (bytes.drop behind)
          ((lines.map Line.fields).reverse ++ rows) sum ∧ (evidence = none → sum = none)) ∨
      ((scanLines width stop offset (bytes.drop offset) rows evidence).1 =
          .error (.trap .overflow) ∧ ¬ HasRoom evidence lines.length) := by
  induction follow generalizing rows evidence with
  | done offset => exact .inl ⟨evidence, rfl, id⟩
  | @next offset behind line lines content found more ih =>
      obtain ⟨here, later⟩ := List.forall_mem_cons.mp fields
      rcases scanLines_foundAt content inside found here rows evidence with
        ⟨sum, same, kept, room⟩ | ⟨trapped, full⟩
      · rcases ih found.stop_le later (line.fields :: rows) sum with
          ⟨last, same', kept'⟩ | ⟨trapped, full⟩
        · refine .inl ⟨last, ?_, fun absent => kept' (kept absent)⟩
          rw [same, same', List.map_cons, List.reverse_cons, List.append_assoc]
          rfl
        · refine .inr ⟨by rw [same]; exact trapped, ?_⟩
          intro enough
          exact full (room _ enough)
      · exact .inr ⟨trapped, full _⟩

theorem scanLines_done (above : stop ≤ behind) (rest : Bytes) (rows : List (List Span)) :
    scanLines width stop behind rest rows evidence = (.ok rows.reverse, evidence) := by
  rw [scanLines, if_neg (not_lt.mpr above)]

/-- A line of another width is refused, with its number and where it was looked for. -/
theorem scanLines_mismatch {line : Line} (content : behind < stop)
    (found : Line.FoundAt bytes behind line) (fields : line.fields.length ≠ width)
    (rows : List (List Span)) :
    scanLines width stop behind (bytes.drop behind) rows evidence =
      (.error (.columnCountMismatch rows.length behind width line.fields.length), evidence) := by
  obtain ⟨read, first, rfl⟩ := found.first? (evidence.map fun _ => [])
  rw [scanLines_read width rows content first, if_pos fields]

end Scanning

end RowStore.Csv
