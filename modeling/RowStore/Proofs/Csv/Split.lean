import Mathlib
import RowStore.Csv.Line

/-! The split of a line into fields.

What scanning a line finds is said here without scanning: the quoting at an offset is a fold over
the bytes before it, and the quoting alone decides which commas divide and which line break ends the
line. A line is scanned to the one split that fits.
-/

namespace RowStore.Csv

/-- The quoting that the bytes from `origin` up to an offset leave behind. -/
def quotingAt (bytes : Bytes) (origin offset : Nat) : Quoting :=
  ((bytes.drop origin).take (offset - origin)).foldl Quoting.step .plain

/-- A comma divides fields where nothing is open and no escape is pending. -/
def DividesAt (bytes : Bytes) (origin offset : Nat) : Prop :=
  bytes[offset]? = some comma ∧ (quotingAt bytes origin offset).settled = true

/-- A line break ends the line unless it is escaped. Quotes do not protect it. -/
def EndsAt (bytes : Bytes) (origin offset : Nat) : Prop :=
  (∃ byte, bytes[offset]? = some byte ∧ isLineBreak byte = true) ∧
    (quotingAt bytes origin offset).escaped = false

namespace Line

/-- The first offset from `low` on, below a bound, that holds no line break. -/
def start? (bytes : Bytes) (low bound : Nat) : Option Nat :=
  (List.range' low (bound - low)).find? fun offset => bytes[offset]?.any (!isLineBreak ·)

/-- Where the content of a line ends, and where the next line may start: at the bound, or at a line
break that ends the line and one past it. -/
def IsEnd (bytes : Bytes) (origin bound stop next : Nat) : Prop :=
  (stop = bound ∧ next = bound) ∨ (stop < bound ∧ EndsAt bytes origin stop ∧ next = stop + 1)

/-- The split of the bytes from `since` up to a bound into the fields of a line. Quotes and escapes
count from `origin` on, which is where the line starts. -/
structure IsSplit (bytes : Bytes) (bound origin since : Nat) (line : Line) : Prop where
  nonempty : line.fields ≠ []
  first : ∀ field ∈ line.fields.head?, field.start = since
  ordered : ∀ field ∈ line.fields, field.start ≤ field.stop
  adjacent : line.fields.IsChain fun left right =>
    right.start = left.stop + 1 ∧ DividesAt bytes origin left.stop
  whole : ∀ field ∈ line.fields, ∀ offset, field.start ≤ offset → offset < field.stop →
    ¬ DividesAt bytes origin offset ∧ ¬ EndsAt bytes origin offset
  ending : ∀ field ∈ line.fields.getLast?, IsEnd bytes origin bound field.stop line.stop

end Line

section Quoting

variable {bytes : Bytes} {origin bound offset : Nat} {byte : UInt8}

theorem quotingAt_origin : quotingAt bytes origin origin = .plain := by
  simp [quotingAt]

theorem quotingAt_succ (started : origin ≤ offset) (found : bytes[offset]? = some byte) :
    quotingAt bytes origin (offset + 1) = (quotingAt bytes origin offset).step byte := by
  have position : (bytes.drop origin)[offset - origin]? = some byte := by
    rw [List.getElem?_drop, Nat.add_sub_cancel' started, found]
  have length : offset + 1 - origin = offset - origin + 1 := by omega
  rw [quotingAt, length, List.take_add_one, position, Option.toList_some, List.foldl_append]
  rfl

theorem Quoting.step_comma {quoting : Quoting} (escaped : quoting.escaped = false) :
    quoting.step comma = quoting := by
  simp [Quoting.step, escaped, comma]

theorem comma_not_lineBreak : isLineBreak comma = false := by decide

theorem DividesAt.not_endsAt (divides : DividesAt bytes origin offset) :
    ¬ EndsAt bytes origin offset := by
  rintro ⟨⟨byte, found, breaks⟩, _⟩
  rw [divides.1, Option.some.injEq] at found
  rw [← found, comma_not_lineBreak] at breaks
  contradiction

theorem drop_take_cons (below : offset < bound) (inside : bound ≤ bytes.length) :
    ∃ byte, bytes[offset]? = some byte ∧
      (bytes.take bound).drop offset = byte :: (bytes.take bound).drop (offset + 1) := by
  have position : offset < (bytes.take bound).length := by
    rw [List.length_take]
    omega
  refine ⟨bytes[offset], List.getElem?_eq_getElem (by omega), ?_⟩
  rw [List.drop_eq_getElem_cons position, List.getElem_take]

end Quoting

namespace Line

variable {bytes : Bytes} {bound origin since stop next : Nat}

theorem IsEnd.le_bound (ending : IsEnd bytes origin bound stop next) : stop ≤ bound := by
  rcases ending with ⟨same, _⟩ | ⟨below, _⟩ <;> omega

theorem IsEnd.unique {other : Nat} (ending : IsEnd bytes origin bound stop next)
    (otherEnding : IsEnd bytes origin bound stop other) : next = other := by
  rcases ending with ⟨same, rfl⟩ | ⟨below, _, rfl⟩ <;>
    rcases otherEnding with ⟨otherSame, rfl⟩ | ⟨otherBelow, _, rfl⟩ <;> omega

theorem IsSplit.single (ordered : since ≤ stop)
    (whole : ∀ offset, since ≤ offset → offset < stop →
      ¬ DividesAt bytes origin offset ∧ ¬ EndsAt bytes origin offset)
    (ending : IsEnd bytes origin bound stop next) :
    IsSplit bytes bound origin since ⟨[⟨since, stop⟩], next⟩ where
  nonempty := by simp
  first := by simp
  ordered := by simpa using ordered
  adjacent := .singleton _
  whole := by simpa using whole
  ending := by simpa using ending

theorem IsSplit.cons {fields : List Span} (ordered : since ≤ stop)
    (whole : ∀ offset, since ≤ offset → offset < stop →
      ¬ DividesAt bytes origin offset ∧ ¬ EndsAt bytes origin offset)
    (divides : DividesAt bytes origin stop)
    (rest : IsSplit bytes bound origin (stop + 1) ⟨fields, next⟩) :
    IsSplit bytes bound origin since ⟨⟨since, stop⟩ :: fields, next⟩ := by
  obtain ⟨second, others, same⟩ := List.exists_cons_of_ne_nil rest.nonempty
  obtain rfl : fields = second :: others := same
  exact {
    nonempty := by simp
    first := by simp
    ordered := by
      intro field member
      rcases List.mem_cons.mp member with rfl | member
      · exact ordered
      · exact rest.ordered field member
    adjacent := by
      refine List.isChain_cons_cons.mpr ⟨⟨?_, divides⟩, rest.adjacent⟩
      exact rest.first second (by simp)
    whole := by
      intro field member
      rcases List.mem_cons.mp member with rfl | member
      · exact whole
      · exact rest.whole field member
    ending := by
      rw [List.getLast?_cons_cons]
      exact rest.ending }

theorem IsSplit.uncons {field : Span} {fields : List Span}
    (split : IsSplit bytes bound origin since ⟨field :: fields, next⟩) :
    field.start = since ∧ field.start ≤ field.stop ∧
      (∀ offset, field.start ≤ offset → offset < field.stop →
        ¬ DividesAt bytes origin offset ∧ ¬ EndsAt bytes origin offset) ∧
      ((fields = [] ∧ IsEnd bytes origin bound field.stop next) ∨
        (DividesAt bytes origin field.stop ∧
          IsSplit bytes bound origin (field.stop + 1) ⟨fields, next⟩)) := by
  refine ⟨split.first field (by simp), split.ordered field (by simp), split.whole field (by simp), ?_⟩
  cases fields with
  | nil => exact .inl ⟨rfl, split.ending field (by simp)⟩
  | cons second others =>
      obtain ⟨⟨starts, divides⟩, adjacent⟩ := List.isChain_cons_cons.mp split.adjacent
      refine .inr ⟨divides, ?_⟩
      exact {
        nonempty := by simp
        first := by simpa using starts
        ordered := fun other member => split.ordered other (List.mem_cons_of_mem _ member)
        adjacent
        whole := fun other member => split.whole other (List.mem_cons_of_mem _ member)
        ending := fun last member => split.ending last (by rw [List.getLast?_cons_cons]; exact member) }

theorem IsSplit.since_le_bound {line : Line} (split : IsSplit bytes bound origin since line) :
    since ≤ bound := by
  obtain ⟨fields, next⟩ := line
  induction fields generalizing since with
  | nil => exact absurd rfl split.nonempty
  | cons field rest ih =>
      obtain ⟨starts, ordered, _, last | ⟨_, more⟩⟩ := split.uncons
      · have upper := last.2.le_bound
        omega
      · have upper := ih more
        omega

theorem IsSplit.stop_le_bound {field : Span} {fields : List Span}
    (split : IsSplit bytes bound origin since ⟨field :: fields, next⟩) : field.stop ≤ bound := by
  obtain ⟨_, _, _, ⟨_, ending⟩ | ⟨_, more⟩⟩ := split.uncons
  · exact ending.le_bound
  · have later := more.since_le_bound
    omega

theorem IsSplit.stop_le_stop {field otherField : Span} {fields otherFields : List Span}
    {otherNext : Nat} (split : IsSplit bytes bound origin since ⟨field :: fields, next⟩)
    (otherSplit : IsSplit bytes bound origin since ⟨otherField :: otherFields, otherNext⟩) :
    field.stop ≤ otherField.stop := by
  obtain ⟨starts, _, whole, _⟩ := split.uncons
  obtain ⟨otherStarts, otherOrdered, _, tail⟩ := otherSplit.uncons
  have upper := split.stop_le_bound
  by_contra inside
  have quiet := whole otherField.stop (by omega) (by omega)
  rcases tail with ⟨_, ⟨same, _⟩ | ⟨_, ends, _⟩⟩ | ⟨divides, _⟩
  · omega
  · exact quiet.2 ends
  · exact quiet.1 divides

theorem IsSplit.not_isEnd {line : Line} {other : Nat} (divides : DividesAt bytes origin stop)
    (more : IsSplit bytes bound origin (stop + 1) line) :
    ¬ IsEnd bytes origin bound stop other := by
  have inside := more.since_le_bound
  rintro (⟨same, _⟩ | ⟨_, ends, _⟩)
  · omega
  · exact divides.not_endsAt ends

theorem IsSplit.unique {line other : Line} (split : IsSplit bytes bound origin since line)
    (otherSplit : IsSplit bytes bound origin since other) : line = other := by
  obtain ⟨fields, next⟩ := line
  obtain ⟨otherFields, otherNext⟩ := other
  induction fields generalizing since otherFields with
  | nil => exact absurd rfl split.nonempty
  | cons field rest ih =>
      cases otherFields with
      | nil => exact absurd rfl otherSplit.nonempty
      | cons otherField otherRest =>
          -- Neither field can be open where the other one is closed.
          have stops : field.stop = otherField.stop :=
            Nat.le_antisymm (split.stop_le_stop otherSplit) (otherSplit.stop_le_stop split)
          obtain ⟨starts, _, _, tail⟩ := split.uncons
          obtain ⟨otherStarts, _, _, otherTail⟩ := otherSplit.uncons
          obtain rfl : field = otherField := by
            rw [Span.mk.injEq]
            exact ⟨starts.trans otherStarts.symm, stops⟩
          rcases tail with ⟨rfl, ending⟩ | ⟨divides, more⟩ <;>
            rcases otherTail with ⟨rfl, otherEnding⟩ | ⟨otherDivides, otherMore⟩
          · rw [ending.unique otherEnding]
          · exact absurd ending (otherMore.not_isEnd otherDivides)
          · exact absurd otherEnding (more.not_isEnd divides)
          · obtain ⟨rfl, rfl⟩ := Line.mk.inj (ih more otherRest otherMore)
            rfl

end Line

namespace LineScan

variable {bytes : Bytes} {bound origin offset : Nat} {byte : UInt8} {scan : LineScan}

/-- A scan that has come to an offset: its quoting is that of the bytes before, and nothing closes
the open field before the offset. -/
structure Tracks (bytes : Bytes) (origin offset : Nat) (scan : LineScan) : Prop where
  started : origin ≤ scan.since
  opened : scan.since ≤ offset
  quoting : scan.quoting = quotingAt bytes origin offset
  whole : ∀ passed, scan.since ≤ passed → passed < offset →
    ¬ DividesAt bytes origin passed ∧ ¬ EndsAt bytes origin passed

theorem tracks_start {evidence : Option (List Evidence)} :
    (start origin evidence).Tracks bytes origin origin where
  started := Nat.le_refl _
  opened := Nat.le_refl _
  quoting := quotingAt_origin.symm
  whole := by
    intro passed lower upper
    simp only [start] at lower
    omega

theorem Tracks.content (tracks : scan.Tracks bytes origin offset)
    (found : bytes[offset]? = some byte)
    (quiet : ¬ DividesAt bytes origin offset ∧ ¬ EndsAt bytes origin offset) :
    (scan.content byte).Tracks bytes origin (offset + 1) where
  started := tracks.started
  opened := Nat.le_succ_of_le tracks.opened
  quoting := by
    rw [quotingAt_succ (tracks.started.trans tracks.opened) found, ← tracks.quoting]
    rfl
  whole := by
    intro passed lower upper
    rcases Nat.lt_succ_iff_lt_or_eq.mp upper with before | rfl
    · exact tracks.whole passed lower before
    · exact quiet

theorem Tracks.divide (tracks : scan.Tracks bytes origin offset)
    (divides : DividesAt bytes origin offset) :
    (scan.divide offset).Tracks bytes origin (offset + 1) where
  started := Nat.le_succ_of_le (tracks.started.trans tracks.opened)
  opened := Nat.le_refl _
  quoting := by
    have unescaped : (quotingAt bytes origin offset).escaped = false := by
      have settled := divides.2
      simp only [Quoting.settled, Bool.and_eq_true, Bool.not_eq_true'] at settled
      exact settled.2
    rw [quotingAt_succ (tracks.started.trans tracks.opened) divides.1,
      Quoting.step_comma unescaped, ← tracks.quoting]
    rfl
  whole := by
    intro passed lower upper
    simp only [LineScan.divide] at lower
    omega

/-- A byte divides, ends the line or is content, and the scan takes it for just that. -/
theorem Tracks.run_cons (tracks : scan.Tracks bytes origin offset)
    (found : bytes[offset]? = some byte) (rest : Bytes) :
    (DividesAt bytes origin offset ∧
        scan.run offset (byte :: rest) = (scan.divide offset).run (offset + 1) rest) ∨
      (EndsAt bytes origin offset ∧
        scan.run offset (byte :: rest) = (scan.close offset, offset + 1, rest)) ∨
      ((¬ DividesAt bytes origin offset ∧ ¬ EndsAt bytes origin offset) ∧
        scan.run offset (byte :: rest) = (scan.content byte).run (offset + 1) rest) := by
  have dividesAt : DividesAt bytes origin offset ↔
      byte = comma ∧ scan.quoting.outside = true ∧ scan.quoting.escaped = false := by
    simp [DividesAt, found, ← tracks.quoting, Quoting.settled]
  have endsAt : EndsAt bytes origin offset ↔
      isLineBreak byte = true ∧ scan.quoting.escaped = false := by
    simp [EndsAt, found, ← tracks.quoting]
  rw [dividesAt, endsAt, run]
  cases escaped : scan.quoting.escaped with
  | true => simp
  | false =>
      by_cases divides : byte = comma ∧ scan.quoting.outside = true
      · simp [divides]
      · have content : (decide (byte = comma) && scan.quoting.outside) = false := by
          simpa using divides
        cases breaks : isLineBreak byte with
        | true => simp [content]
        | false =>
            refine .inr (.inr ⟨⟨?_, by simp⟩, by simp [content]⟩)
            exact fun dividing => divides ⟨dividing.1, dividing.2.1⟩

theorem Tracks.run_isSplit (tracks : scan.Tracks bytes origin offset) (below : offset ≤ bound)
    (inside : bound ≤ bytes.length) :
    ∃ fields, (scan.run offset ((bytes.take bound).drop offset)).1.closed =
        fields.reverse ++ scan.closed ∧
      Line.IsSplit bytes bound origin scan.since
        ⟨fields, (scan.run offset ((bytes.take bound).drop offset)).2.1⟩ := by
  -- The invariant is carried over each byte of what is left before the bound.
  generalize remains : (bytes.take bound).drop offset = rest
  induction rest generalizing scan offset with
  | nil =>
      have atBound : offset = bound := by
        have none := congrArg List.length remains
        simp only [List.length_drop, List.length_take, List.length_nil] at none
        omega
      refine ⟨[⟨scan.since, offset⟩], rfl, ?_⟩
      exact .single tracks.opened tracks.whole (.inl ⟨atBound, atBound⟩)
  | cons byte rest ih =>
      have before : offset < bound := by
        have some := congrArg List.length remains
        simp only [List.length_drop, List.length_take, List.length_cons] at some
        omega
      obtain ⟨found, position, split⟩ := drop_take_cons before inside
      obtain ⟨rfl, next⟩ := List.cons.inj (split.symm.trans remains)
      rcases tracks.run_cons position rest with
        ⟨divides, taken⟩ | ⟨ends, taken⟩ | ⟨quiet, taken⟩
      · obtain ⟨fields, closed, split⟩ := ih (tracks.divide divides) before next
        refine ⟨⟨scan.since, offset⟩ :: fields, ?_, ?_⟩
        · rw [taken, closed]
          simp [LineScan.divide, LineScan.close]
        · rw [taken]
          exact split.cons tracks.opened tracks.whole divides
      · refine ⟨[⟨scan.since, offset⟩], by rw [taken]; rfl, ?_⟩
        rw [taken]
        exact .single tracks.opened tracks.whole (.inr ⟨before, ends, rfl⟩)
      · rw [taken]
        exact ih (tracks.content position quiet) before next

end LineScan

namespace Line

variable {bytes : Bytes} {low bound : Nat}

theorem start?_eq (inside : bound ≤ bytes.length) :
    start? bytes low bound =
      if ((bytes.take bound).drop low).dropWhile isLineBreak = [] then none
      else some (low + (((bytes.take bound).drop low).takeWhile isLineBreak).length) := by
  generalize size : bound - low = room
  induction room generalizing low with
  | zero =>
      have nothing : (bytes.take bound).drop low = [] := by
        rw [List.drop_eq_nil_iff, List.length_take]
        omega
      simp [start?, size, nothing]
  | succ room ih =>
      obtain ⟨byte, found, split⟩ := drop_take_cons (show low < bound by omega) inside
      have later := @ih (low + 1) (by omega)
      have room' : bound - (low + 1) = room := by omega
      rw [start?, room'] at later
      rw [start?, size, List.range'_succ, List.find?_cons, found, split, Option.any_some]
      cases breaks : isLineBreak byte with
      | true =>
          rw [List.dropWhile_cons_of_pos breaks, List.takeWhile_cons_of_pos breaks, List.length_cons]
          simp only [Bool.not_true, later, Nat.add_assoc, Nat.add_comm 1]
      | false => simp [breaks]

theorem first?_isSplit (inside : bound ≤ bytes.length) {origin : Nat}
    (started : start? bytes low bound = some origin) (evidence : Option (List Evidence)) :
    ∃ found, first? low ((bytes.take bound).drop low) evidence = some found ∧
      IsSplit bytes bound origin origin found.line := by
  rw [start?_eq inside] at started
  generalize remains : (bytes.take bound).drop low = unread at started ⊢
  split at started
  · contradiction
  · rename_i nonempty
    obtain rfl : low + (unread.takeWhile isLineBreak).length = origin := Option.some.inj started
    have content : unread.dropWhile isLineBreak =
        (bytes.take bound).drop (low + (unread.takeWhile isLineBreak).length) := by
      rw [← List.drop_drop, remains]
      conv_rhs => arg 2; rw [← List.takeWhile_append_dropWhile (p := isLineBreak) (l := unread)]
      rw [List.drop_left]
    have below : low + (unread.takeWhile isLineBreak).length ≤ bound := by
      by_contra above
      apply nonempty
      rw [content, List.drop_eq_nil_iff, List.length_take]
      omega
    have began : (LineScan.start (low + (unread.takeWhile isLineBreak).length) evidence).Tracks
        bytes _ _ := LineScan.tracks_start
    obtain ⟨fields, closed, split⟩ := began.run_isSplit below inside
    have unread' : (unread.dropWhile isLineBreak).isEmpty = false := by simpa using nonempty
    rw [← content] at closed split
    simp only [first?_eq, unread', Bool.false_eq_true, if_false]
    refine ⟨_, rfl, ?_⟩
    have fieldsRead := congrArg List.reverse closed
    rw [List.reverse_append, List.reverse_reverse] at fieldsRead
    simp only [LineScan.line, fieldsRead]
    exact split

theorem reach_le_length (bytes : Bytes) (stop : Int) : reach bytes stop ≤ bytes.length := by
  rw [reach]
  split
  · exact Nat.le_refl _
  · exact Nat.min_le_right ..

end Line

end RowStore.Csv
