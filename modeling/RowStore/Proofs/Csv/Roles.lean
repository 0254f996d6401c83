import Mathlib
import RowStore.Proofs.Csv.Lines

/-! What every byte of a table is there for.

Behind the header line each byte belongs to one field, divides two fields of one row, breaks lines
before a row, or is blank behind all rows. None is lost between rows and none is in two of them.
-/

namespace RowStore.Csv

/-- What a byte behind the header line is there for. -/
inductive Role where
  | field (row column : Nat)
  | comma (row column : Nat)
  | lineBreak (row : Nat)
  | blank
deriving Repr, DecidableEq

section Rows

variable {bytes : Bytes} {stop offset row column : Nat} {fields : List Span}
  {rows : List (List Span)}

def cell? (rows : List (List Span)) (row column : Nat) : Option Span := rows[row]?.bind (·[column]?)

/-- Where the row before a row ends. Before the first one, it is where the header line ends. -/
def endBefore (stop : Nat) : List (List Span) → (row : Nat) → Nat
  | fields :: rows, row + 1 => endBefore ((fields.getLast?.map Span.stop).getD stop) rows row
  | _, _ => stop

/-- Does a byte have a role in the rows of a table, whose header line ends at `stop`? -/
def Role.Fits (bytes : Bytes) (stop : Nat) (rows : List (List Span)) (offset : Nat) : Role → Prop
  | .field row column =>
      ∃ field, cell? rows row column = some field ∧ field.start ≤ offset ∧ offset < field.stop
  | .comma row column =>
      bytes[offset]? = some Csv.comma ∧ ∃ left right, cell? rows row column = some left ∧
        cell? rows row (column + 1) = some right ∧ left.stop = offset ∧ right.start = offset + 1
  | .lineBreak row =>
      (∃ byte, bytes[offset]? = some byte ∧ isLineBreak byte = true) ∧
        ∃ first, cell? rows row 0 = some first ∧ endBefore stop rows row ≤ offset ∧
          offset < first.start
  | .blank =>
      (∃ byte, bytes[offset]? = some byte ∧ isEndBlank byte = true) ∧
        endBefore stop rows rows.length ≤ offset

/-- The same role in a table with one more row at its front. -/
def Role.later : Role → Role
  | .field row column => .field (row + 1) column
  | .comma row column => .comma (row + 1) column
  | .lineBreak row => .lineBreak (row + 1)
  | .blank => .blank

/-- A role in the first row, or one in the rows behind it. -/
theorem Role.first_or_later (role : Role) :
    (∃ column, role = .field 0 column) ∨ (∃ column, role = .comma 0 column) ∨
      role = .lineBreak 0 ∨ ∃ other : Role, role = other.later := by
  cases role with
  | field row column =>
      cases row with
      | zero => exact .inl ⟨column, rfl⟩
      | succ row => exact .inr (.inr (.inr ⟨.field row column, rfl⟩))
  | comma row column =>
      cases row with
      | zero => exact .inr (.inl ⟨column, rfl⟩)
      | succ row => exact .inr (.inr (.inr ⟨.comma row column, rfl⟩))
  | lineBreak row =>
      cases row with
      | zero => exact .inr (.inr (.inl rfl))
      | succ row => exact .inr (.inr (.inr ⟨.lineBreak row, rfl⟩))
  | blank => exact .inr (.inr (.inr ⟨.blank, rfl⟩))

/-- The rows behind the first one begin where it ends. -/
theorem Role.fits_later {last : Span} (ends : fields.getLast? = some last) (role : Role) :
    role.later.Fits bytes stop (fields :: rows) offset ↔ role.Fits bytes last.stop rows offset := by
  have before (row : Nat) :
      endBefore stop (fields :: rows) (row + 1) = endBefore last.stop rows row := by
    rw [endBefore, ends]
    rfl
  cases role with
  | field row column => exact Iff.rfl
  | comma row column => exact Iff.rfl
  | lineBreak row => simp only [Role.later, Role.Fits, before]; exact Iff.rfl
  | blank => simp only [Role.later, Role.Fits, List.length_cons, before]

end Rows

namespace Line

variable {bytes : Bytes} {bound origin since place : Nat} {line : Line}

theorem IsSplit.since_le_start (split : IsSplit bytes bound origin since line) :
    ∀ field ∈ line.fields, since ≤ field.start := by
  obtain ⟨fields, next⟩ := line
  induction fields generalizing since with
  | nil => exact absurd rfl split.nonempty
  | cons field rest ih =>
      obtain ⟨starts, ordered, -, tail⟩ := split.uncons
      intro other mem
      rcases List.mem_cons.mp mem with rfl | mem
      · exact starts.ge
      · rcases tail with ⟨rfl, -⟩ | ⟨-, more⟩
        · contradiction
        · have later := ih more other mem
          omega

theorem IsSplit.stop_le_textStop (split : IsSplit bytes bound origin since line) :
    ∀ field ∈ line.fields, field.stop ≤ line.textStop := by
  obtain ⟨fields, next⟩ := line
  induction fields generalizing since with
  | nil => exact absurd rfl split.nonempty
  | cons field rest ih =>
      obtain ⟨-, -, -, ⟨rfl, -⟩ | ⟨-, more⟩⟩ := split.uncons
      · intro other mem
        rw [List.mem_singleton.mp mem, textStop_eq rfl]
        exact Nat.le_refl _
      · obtain ⟨second, others, rfl⟩ := List.exists_cons_of_ne_nil more.nonempty
        rw [textStop_cons]
        refine List.forall_mem_cons.mpr ⟨?_, ih more⟩
        have ordered := more.since_le_textStop
        omega

/-- The fields of a line stand in order, with a byte between any two. -/
theorem IsSplit.pairwise (split : IsSplit bytes bound origin since line) :
    line.fields.Pairwise fun left right => left.stop < right.start := by
  obtain ⟨fields, next⟩ := line
  induction fields generalizing since with
  | nil => exact .nil
  | cons field rest ih =>
      obtain ⟨-, -, -, ⟨rfl, -⟩ | ⟨-, more⟩⟩ := split.uncons
      · exact List.pairwise_singleton _ _
      · exact List.pairwise_cons.mpr ⟨more.since_le_start, ih more⟩

/-- Up to its end a line has nothing but fields and the commas between them. -/
theorem IsSplit.exists_field_or_comma (split : IsSplit bytes bound origin since line)
    (after : since ≤ place) (before : place < line.textStop) :
    (∃ (column : Nat) (field : Span), line.fields[column]? = some field ∧ field.start ≤ place ∧
        place < field.stop) ∨
      ∃ (column : Nat) (left right : Span), bytes[place]? = some comma ∧ line.fields[column]? = some left ∧
        line.fields[column + 1]? = some right ∧ left.stop = place ∧ right.start = place + 1 := by
  obtain ⟨fields, next⟩ := line
  induction fields generalizing since with
  | nil => exact absurd rfl split.nonempty
  | cons field rest ih =>
      obtain ⟨starts, -, -, tail⟩ := split.uncons
      by_cases inside : place < field.stop
      · exact .inl ⟨0, field, rfl, by omega, inside⟩
      rcases tail with ⟨rfl, -⟩ | ⟨divides, more⟩
      · rw [textStop_eq rfl] at before
        contradiction
      · obtain ⟨second, others, rfl⟩ := List.exists_cons_of_ne_nil more.nonempty
        rw [textStop_cons] at before
        by_cases here : place = field.stop
        · subst here
          exact .inr ⟨0, field, second, divides.1, rfl, rfl, rfl, more.first second (by simp)⟩
        · rcases ih (by omega) more before with
            ⟨column, found, at', bounds⟩ | ⟨column, left, right, byte, atLeft, atRight, bounds⟩
          · exact .inl ⟨column + 1, found, at', bounds⟩
          · exact .inr ⟨column + 1, left, right, byte, atLeft, atRight, bounds⟩

variable {column other : Nat} {left right next : Span}

theorem IsSplit.stop_lt_start (split : IsSplit bytes bound origin since line)
    (before : column < other) (atLeft : line.fields[column]? = some left)
    (atRight : line.fields[other]? = some right) :
    left.stop < right.start ∧ right.start ≤ right.stop := by
  refine ⟨?_, split.ordered right (List.mem_of_getElem? atRight)⟩
  obtain ⟨inLeft, rfl⟩ := List.getElem?_eq_some_iff.mp atLeft
  obtain ⟨inRight, rfl⟩ := List.getElem?_eq_some_iff.mp atRight
  exact List.pairwise_iff_getElem.mp split.pairwise column other inLeft inRight before

/-- Two fields with nothing between them are the same field. -/
theorem IsSplit.column_unique (split : IsSplit bytes bound origin since line)
    (atLeft : line.fields[column]? = some left) (atRight : line.fields[other]? = some right)
    (beforeLeft : right.start ≤ left.stop) (beforeRight : left.start ≤ right.stop) :
    column = other := by
  rcases Nat.lt_trichotomy column other with before | same | before
  · have apart := split.stop_lt_start before atLeft atRight
    omega
  · exact same
  · have apart := split.stop_lt_start before atRight atLeft
    omega

/-- A byte behind a field is no part of another field that it ends. -/
theorem IsSplit.not_field_of_comma (split : IsSplit bytes bound origin since line)
    (atLeft : line.fields[column]? = some left) (atNext : line.fields[column + 1]? = some next)
    (atOther : line.fields[other]? = some right) (ends : left.stop = place)
    (starts : next.start = place + 1) (inside : right.start ≤ place ∧ place < right.stop) :
    False := by
  rcases Nat.lt_trichotomy other column with before | rfl | before
  · have apart := split.stop_lt_start before atOther atLeft
    omega
  · obtain rfl := Option.some.inj (atLeft.symm.trans atOther)
    omega
  · have ordered := split.ordered next (List.mem_of_getElem? atNext)
    rcases Nat.lt_or_eq_of_le (Nat.succ_le_of_lt before) with behind | rfl
    · have apart := split.stop_lt_start behind atNext atOther
      omega
    · obtain rfl := Option.some.inj (atNext.symm.trans atOther)
      omega

end Line

section Table

variable {bytes : Bytes} {bound origin stop base offset behind place : Nat} {role : Role}
  {line : Line} {lines : List Line} {rows : List (List Span)}

/-- A role breaks lines before the first row, is in that row, or is in the rows behind it. -/
theorem Role.fits_cons (split : Line.IsSplit bytes bound origin origin line)
    (fits : role.Fits bytes base (line.fields :: rows) place) :
    (role = .lineBreak 0 ∧ base ≤ place ∧ place < origin) ∨
      (((∃ column, role = .field 0 column) ∨ ∃ column, role = .comma 0 column) ∧
        origin ≤ place ∧ place < line.textStop) ∨
      ∃ other : Role, role = other.later ∧ other.Fits bytes line.textStop rows place := by
  rcases role.first_or_later with ⟨column, rfl⟩ | ⟨column, rfl⟩ | rfl | ⟨other, rfl⟩
  · obtain ⟨field, found, after, before⟩ := fits
    have mem := List.mem_of_getElem? found
    exact .inr (.inl ⟨.inl ⟨column, rfl⟩, (split.since_le_start field mem).trans after,
      before.trans_le (split.stop_le_textStop field mem)⟩)
  · obtain ⟨-, left, right, atLeft, atRight, ends, starts⟩ := fits
    have memLeft := List.mem_of_getElem? atLeft
    have memRight := List.mem_of_getElem? atRight
    have lower := (split.since_le_start left memLeft).trans (split.ordered left memLeft)
    have upper := (split.ordered right memRight).trans (split.stop_le_textStop right memRight)
    exact .inr (.inl ⟨.inr ⟨column, rfl⟩, by omega, by omega⟩)
  · obtain ⟨-, first, found, after, before⟩ := fits
    have starts : first.start = origin := by
      refine split.first first ?_
      rw [List.head?_eq_getElem?]
      exact found
    exact .inl ⟨rfl, after, by omega⟩
  · have last := List.getLast?_eq_some_getLast split.nonempty
    rw [Role.fits_later last, ← Line.textStop_eq last] at fits
    exact .inr (.inr ⟨other, rfl, fits⟩)

theorem Role.fits_nil (fits : role.Fits bytes base [] place) : role = .blank ∧ base ≤ place := by
  cases role with
  | field row column =>
      obtain ⟨_, found, -⟩ := fits
      cases found
  | comma row column =>
      obtain ⟨-, _, _, found, -⟩ := fits
      cases found
  | lineBreak row =>
      obtain ⟨-, _, found, -⟩ := fits
      cases found
  | blank => exact ⟨rfl, fits.2⟩

/-- In the text of a row, a byte is in one field or divides two of them. -/
theorem Line.IsSplit.existsUnique_role (base : Nat) (rows : List (List Span))
    (split : Line.IsSplit bytes bound origin origin line) (after : origin ≤ place)
    (before : place < line.textStop) :
    ∃! role, Role.Fits bytes base (line.fields :: rows) place role ∧
      ((∃ column, role = .field 0 column) ∨ ∃ column, role = .comma 0 column) := by
  rcases split.exists_field_or_comma after before with
    ⟨column, field, found, bounds⟩ | ⟨column, left, right, byte, atLeft, atRight, ends, starts⟩
  · refine ⟨.field 0 column, ⟨⟨field, found, bounds⟩, .inl ⟨column, rfl⟩⟩, ?_⟩
    rintro role ⟨fits, ⟨other, rfl⟩ | ⟨other, rfl⟩⟩
    · obtain ⟨second, found', bounds'⟩ := fits
      rw [split.column_unique found found' (by omega) (by omega)]
    · obtain ⟨-, left, right, atLeft, atRight, ends, starts⟩ := fits
      exact (split.not_field_of_comma atLeft atRight found ends starts bounds).elim
  · refine ⟨.comma 0 column,
      ⟨⟨byte, left, right, atLeft, atRight, ends, starts⟩, .inr ⟨column, rfl⟩⟩, ?_⟩
    rintro role ⟨fits, ⟨other, rfl⟩ | ⟨other, rfl⟩⟩
    · obtain ⟨field, found, bounds⟩ := fits
      exact (split.not_field_of_comma atLeft atRight found ends starts bounds).elim
    · obtain ⟨-, other', -, atOther, -, endsOther, -⟩ := fits
      have ordered := split.ordered left (List.mem_of_getElem? atLeft)
      have ordered' := split.ordered other' (List.mem_of_getElem? atOther)
      rw [split.column_unique atLeft atOther (by omega) (by omega)]

/-- No role lies before the end of the header line. -/
theorem Role.le_of_fits (follow : Line.Follow bytes stop offset lines behind)
    (reached : base ≤ offset) (fits : role.Fits bytes base (lines.map Line.fields) place) :
    base ≤ place := by
  induction follow generalizing base role with
  | done offset => exact (Role.fits_nil fits).2
  | next content found more ih =>
      obtain ⟨origin, -, split, after, -, ordered, ends, -⟩ := found.bounds
      rcases Role.fits_cons split fits with ⟨-, lower, -⟩ | ⟨-, lower, -⟩ | ⟨other, -, fits⟩
      · exact lower
      · omega
      · have later := ih ends fits
        omega

/-- Every byte behind the header line has exactly one role. -/
theorem existsUnique_role (follow : Line.Follow bytes stop offset lines behind)
    (ended : stop ≤ behind)
    (blank : ∀ place byte, stop ≤ place → bytes[place]? = some byte → isEndBlank byte = true)
    (reached : base ≤ offset)
    (breaks : ∀ place byte, base ≤ place → place < offset → bytes[place]? = some byte →
      isLineBreak byte = true)
    (after : base ≤ place) (inside : place < bytes.length) :
    ∃! role, Role.Fits bytes base (lines.map Line.fields) place role := by
  have here := List.getElem?_eq_getElem inside
  induction follow generalizing base with
  | done offset =>
      refine ⟨.blank, ⟨⟨_, here, ?_⟩, after⟩, fun role fits => (Role.fits_nil fits).1⟩
      by_cases before : place < offset
      · exact isEndBlank_of_isLineBreak (breaks place _ after before here)
      · exact blank place _ (by omega) here
  | @next offset behind line lines content found more ih =>
      obtain ⟨origin, started, split, skipped, -, ordered, ends, -⟩ := found.bounds
      rw [List.map_cons]
      by_cases gap : place < origin
      · have first := List.head?_eq_some_head split.nonempty
        have starts := split.first _ first
        rw [List.head?_eq_getElem?] at first
        refine ⟨.lineBreak 0, ⟨⟨_, here, ?_⟩, _, first, after, by omega⟩, ?_⟩
        · by_cases before : place < offset
          · exact breaks place _ after before here
          · exact (Line.start?_eq_some started).2.2.2 place (by omega) gap _ here
        · intro role fits
          rcases Role.fits_cons split fits with ⟨same, -⟩ | ⟨-, lower, -⟩ | ⟨other, -, fits⟩
          · exact same
          · omega
          · have later := Role.le_of_fits more ends fits
            omega
      by_cases text : place < line.textStop
      · obtain ⟨role, ⟨fits, -⟩, unique⟩ :=
          split.existsUnique_role base _ (not_lt.mp gap) text
        refine ⟨role, fits, fun other fitsOther => unique other ⟨fitsOther, ?_⟩⟩
        rcases Role.fits_cons split fitsOther with ⟨-, -, upper⟩ | ⟨kind, -⟩ | ⟨_, -, later⟩
        · omega
        · exact kind
        · have behindText := Role.le_of_fits more ends later
          omega
      · have terminator : ∀ place byte, line.textStop ≤ place → place < line.stop →
            bytes[place]? = some byte → isLineBreak byte = true := by
          intro place byte lower upper found
          rcases split.isEnd with ⟨same, next⟩ | ⟨-, ⟨⟨byte', found', breaks⟩, -⟩, next⟩
          · omega
          · obtain rfl : place = line.textStop := by omega
            rw [found, Option.some.injEq] at found'
            rwa [found']
        obtain ⟨role, fits, unique⟩ := ih ended ends terminator (not_lt.mp text)
        have last := List.getLast?_eq_some_getLast split.nonempty
        refine ⟨role.later, ?_, fun other fitsOther => ?_⟩
        · simp only
          rw [Role.fits_later last, ← Line.textStop_eq last]
          exact fits
        · rcases Role.fits_cons split fitsOther with
            ⟨-, -, upper⟩ | ⟨-, -, upper⟩ | ⟨same, rfl, later⟩
          · omega
          · omega
          · rw [unique same later]

end Table

end RowStore.Csv
