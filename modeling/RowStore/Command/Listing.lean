import RowStore.Column
import RowStore.Command.Measure

/-! Layouts as tables and as JSON. -/

namespace RowStore.Listing

/-- The type of a column stands in its cell as it is, however short it is. -/
def columnRow (column : Column) : String :=
  "  " ++ Measure.left 24 column.name ++ "  " ++ column.type.name ++ "  " ++
    Measure.right 8 (toString column.start.toInt) ++ "  " ++
    Measure.right 8 (toString column.stop.toInt)

def table (layout : Layout) : List String :=
  ("  " ++ Measure.left 24 "column" ++ "  " ++ Measure.right 8 "codec" ++ "  " ++
    Measure.right 8 "begin" ++ "  " ++ Measure.right 8 "end") ::
  ("  " ++ Measure.rule 54) :: layout.map columnRow

def hexPadded (width number : Nat) : List Char :=
  let digits := Text.hexDigits number
  List.replicate (width - digits.length) '0' ++ digits

/-- A character inside a JSON string. Only the quote, the backslash and control characters are
escaped. -/
def jsonChar (c : Char) : List Char :=
  if c = '"' then ['\\', '"']
  else if c = '\\' then ['\\', '\\']
  else if c = '\n' then ['\\', 'n']
  else if c = '\r' then ['\\', 'r']
  else if c = '\t' then ['\\', 't']
  else if c = '\x08' then ['\\', 'b']
  else if c = '\x0c' then ['\\', 'f']
  else if c.toNat < 32 then ['\\', 'u'] ++ hexPadded 4 c.toNat
  else [c]

def jsonString (text : String) : String :=
  String.ofList ('"' :: text.toList.flatMap jsonChar ++ ['"'])

/-- The members of a column, its next stage last and nested. -/
def jsonMembers (indent : String) : List Slot → List String
  | [] => []
  | slot :: stages =>
      let head := [
        s!"{indent}\"name\": " ++ jsonString slot.name ++ ",",
        s!"{indent}\"codec\": " ++ jsonString slot.type.label ++ ",",
        s!"{indent}\"begin\": " ++ toString slot.start.toInt ++ ","]
      let stop := s!"{indent}\"end\": " ++ toString slot.stop.toInt
      if stages.isEmpty then head ++ [stop]
      else
        head ++ [stop ++ ",", s!"{indent}\"child\": \x7b"] ++ jsonMembers (indent ++ "  ") stages ++
          [s!"{indent}\x7d"]

def jsonColumn (column : Column) : List String :=
  "  \x7b" :: jsonMembers "    " (column.toSlot :: column.stages) ++ ["  \x7d"]

/-- Put a comma behind the last line of every column but the last one. -/
def jsonColumns : Layout → List String
  | [] => []
  | [column] => jsonColumn column
  | column :: rest =>
      let lines := jsonColumn column
      lines.dropLast ++ (lines.getLast?.toList.map (· ++ ",")) ++ jsonColumns rest

def json (layout : Layout) : List String :=
  if layout.isEmpty then ["[]"] else "[" :: jsonColumns layout ++ ["]"]

end RowStore.Listing
