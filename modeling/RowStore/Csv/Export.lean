import RowStore.Csv.Field
import RowStore.Cursor

/-! Rows written as lines of a table. -/

namespace RowStore.Csv

def header (cursor : RowCursor) : String := Field.renderLine cursor.names

def rowLine [CalendarText] (values : List Value) : String := Field.renderLine (values.map Value.text)

/-- The lines of some rows, and whether there is one for each. The first row that cannot be read
ends the table. -/
def rowLines [CalendarText] (cursor : RowCursor) : List Nat → Except Error Unit × List String
  | [] => (.ok (), [])
  | row :: rest =>
      match cursor.rowValues row with
      | .error reason => (.error reason, [])
      | .ok values =>
          let (outcome, lines) := rowLines cursor rest
          (outcome, rowLine values :: lines)

/-- The column names and all rows. -/
def lines [CalendarText] (cursor : RowCursor) : Except Error Unit × List String :=
  let (outcome, rows) := rowLines cursor (List.range cursor.length)
  (outcome, header cursor :: rows)

/-- Lines as text; each ends with a line feed. -/
def joined (lines : List String) : String := String.join (lines.map (· ++ "\n"))

end RowStore.Csv
