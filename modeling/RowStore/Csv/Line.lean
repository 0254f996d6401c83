import RowStore.Column
import RowStore.Csv.Quoting
import RowStore.Evidence

/-! The fields of one line.

A comma outside quotes divides fields; a line break ends the line, also inside quotes. An escaped
byte does neither. Line breaks before the line are skipped, so that blank lines have no fields. The
bytes of each field may be fed to the evidence of its column on the way.
-/

namespace RowStore.Csv

/-- The field ranges of a line and where the next line may start. -/
structure Line where
  fields : List Span
  stop : Nat
deriving Repr, DecidableEq

/-- A line being scanned: the fields closed so far, the last one first, and where the open field
starts. Without evidence, none is collected. -/
structure LineScan where
  quoting : Quoting
  since : Nat
  closed : List Span
  evidence : Option (List Evidence)
deriving Repr, DecidableEq

namespace LineScan

def start (offset : Nat) (evidence : Option (List Evidence)) : LineScan :=
  ⟨.plain, offset, [], evidence⟩

/-- Change the evidence of the column of the open field. -/
def witness (scan : LineScan) (change : Evidence → Evidence) : LineScan :=
  { scan with evidence := scan.evidence.map (Evidence.update · scan.closed.length change) }

/-- The byte at an offset belongs to the open field. -/
def content (scan : LineScan) (byte : UInt8) : LineScan :=
  let fed := scan.witness (·.push (Text.Bmp.latin1 byte))
  { fed with quoting := scan.quoting.step byte }

/-- Close the open field at an offset. -/
def close (scan : LineScan) (offset : Nat) : LineScan :=
  let ended := scan.witness (·.endField (offset - scan.since))
  { ended with closed := ⟨scan.since, offset⟩ :: scan.closed }

/-- A comma at an offset closes a field and opens the next one. -/
def divide (scan : LineScan) (offset : Nat) : LineScan :=
  { scan.close offset with since := offset + 1 }

def line (scan : LineScan) (stop : Nat) : Line := ⟨scan.closed.reverse, stop⟩

/-- Scan the bytes from an offset on to the end of the line or of the bytes. The bytes after the
line are returned too. -/
def run (scan : LineScan) (offset : Nat) : Bytes → LineScan × Nat × Bytes
  | [] => (scan.close offset, offset, [])
  | byte :: rest =>
      if scan.quoting.escaped then (scan.content byte).run (offset + 1) rest
      else if byte = comma && scan.quoting.outside then (scan.divide offset).run (offset + 1) rest
      else if isLineBreak byte then (scan.close offset, offset + 1, rest)
      else (scan.content byte).run (offset + 1) rest

theorem length_run_le (scan : LineScan) (offset : Nat) (bytes : Bytes) :
    (scan.run offset bytes).2.2.length ≤ bytes.length := by
  induction bytes generalizing scan offset with
  | nil => simp [run]
  | cons byte rest ih =>
      simp only [run, List.length_cons]
      split
      · exact Nat.le_succ_of_le (ih ..)
      · split
        · exact Nat.le_succ_of_le (ih ..)
        · split
          · exact Nat.le_succ _
          · exact Nat.le_succ_of_le (ih ..)

/-- The first byte of a line is consumed, whatever it is. -/
theorem length_run_lt (scan : LineScan) (offset : Nat) (byte : UInt8) (rest : Bytes) :
    (scan.run offset (byte :: rest)).2.2.length < (byte :: rest).length := by
  simp only [run, List.length_cons]
  split
  · exact Nat.lt_succ_of_le (length_run_le ..)
  · split
    · exact Nat.lt_succ_of_le (length_run_le ..)
    · split
      · exact Nat.lt_succ_self _
      · exact Nat.lt_succ_of_le (length_run_le ..)

/-- A line that is scanned to its end has a field. -/
theorem closed_run_ne_nil (scan : LineScan) (offset : Nat) (bytes : Bytes) :
    (scan.run offset bytes).1.closed ≠ [] := by
  induction bytes generalizing scan offset with
  | nil => exact List.cons_ne_nil _ _
  | cons byte rest ih =>
      rw [run]
      split
      · exact ih _ _
      · split
        · exact ih _ _
        · split
          · exact List.cons_ne_nil _ _
          · exact ih _ _

/-- Scan the first line of `bytes`, which stand at an offset. Where they are all line breaks, no field
is come upon. -/
def first (offset : Nat) (bytes : Bytes) (evidence : Option (List Evidence)) :
    LineScan × Nat × Bytes :=
  let content := bytes.dropWhile isLineBreak
  let origin := offset + (bytes.takeWhile isLineBreak).length
  let opened := start origin evidence
  if content.isEmpty then (opened, origin, []) else opened.run origin content

end LineScan

/-- A line, the bytes after it, and the evidence with what the line added. -/
structure ReadLine where
  line : Line
  rest : Bytes
  evidence : Option (List Evidence)
deriving Repr, DecidableEq

namespace Line

/-- The line that a scan has come to the end of, if it has come upon a field. -/
def ofScan? (scan : LineScan) (stop : Nat) (rest : Bytes) : Option ReadLine :=
  if scan.closed.isEmpty then none else some ⟨scan.line stop, rest, scan.evidence⟩

/-- The first line of `bytes`, which stand at an offset, unless they are all line breaks. -/
def first? (offset : Nat) (bytes : Bytes) (evidence : Option (List Evidence)) : Option ReadLine :=
  let (scan, stop, rest) := LineScan.first offset bytes evidence
  ofScan? scan stop rest

theorem first?_eq (offset : Nat) (bytes : Bytes) (evidence : Option (List Evidence)) :
    first? offset bytes evidence =
      let content := bytes.dropWhile isLineBreak
      if content.isEmpty then none
      else
        let start := offset + (bytes.takeWhile isLineBreak).length
        let (scan, stop, rest) := (LineScan.start start evidence).run start content
        some ⟨scan.line stop, rest, scan.evidence⟩ := by
  have fields := LineScan.closed_run_ne_nil
  simp only [first?, LineScan.first]
  split
  · rfl
  · simp only [ofScan?, List.isEmpty_iff, fields, if_false]

theorem length_rest_of_first? {offset : Nat} {bytes : Bytes} {evidence : Option (List Evidence)}
    {found : ReadLine} (read : first? offset bytes evidence = some found) :
    found.rest.length < bytes.length := by
  simp only [first?_eq] at read
  split at read
  · contradiction
  · rename_i nonempty
    cases read
    have shorter : (bytes.dropWhile isLineBreak).length ≤ bytes.length :=
      (List.dropWhile_sublist isLineBreak).length_le
    cases kept : bytes.dropWhile isLineBreak with
    | nil => simp [kept] at nonempty
    | cons byte rest =>
        rw [kept] at shorter
        exact Nat.lt_of_lt_of_le (LineScan.length_run_lt ..) shorter

/-- How far a line is scanned: to a given offset, or to the end if that is negative. -/
def reach (bytes : Bytes) (stop : Int) : Nat :=
  if stop < 0 then bytes.length else min stop.toNat bytes.length

/-- Scan the line at `start`, no further than `stop` reaches. The list of evidence is what the scan
leaves it as, whether or not it has come upon a field. -/
def scan (bytes : Bytes) (start stop : Int) (evidence : Option (List Evidence)) :
    Except Error ReadLine × Option (List Evidence) :=
  let unread := (bytes.take (reach bytes stop)).drop start.toNat
  let (scan, behind, rest) := LineScan.first start.toNat unread evidence
  match ofScan? scan behind rest with
  | some found => (.ok found, scan.evidence)
  | none => (.error (.noFields start), scan.evidence)

/-- The line that is scanned, with the bytes after it. -/
def parse (bytes : Bytes) (start stop : Int) (evidence : Option (List Evidence)) :
    Except Error ReadLine :=
  (scan bytes start stop evidence).1

/-- The line that is scanned, beside the list of evidence. -/
def collect (bytes : Bytes) (start stop : Int) (evidence : Option (List Evidence)) :
    Except Error Line × Option (List Evidence) :=
  (scan bytes start stop evidence).map (·.map ReadLine.line) id

theorem parse_eq (bytes : Bytes) (start stop : Int) (evidence : Option (List Evidence)) :
    parse bytes start stop evidence =
      match first? start.toNat ((bytes.take (reach bytes stop)).drop start.toNat) evidence with
      | some found => .ok found
      | none => .error (.noFields start) := by
  simp only [parse, scan, first?]
  split <;> rfl

/-- The first line of all bytes. -/
theorem parse_zero (bytes : Bytes) (evidence : Option (List Evidence)) :
    parse bytes 0 (-1) evidence = match first? 0 bytes evidence with
      | some read => .ok read
      | none => .error (.noFields 0) := by
  have zero : (0 : Int).toNat = 0 := rfl
  have bound : reach bytes (-1) = bytes.length := rfl
  cases first : first? 0 bytes evidence <;>
    simp only [parse_eq, bound, List.take_length, zero, List.drop_zero, first]

end Line

end RowStore.Csv
