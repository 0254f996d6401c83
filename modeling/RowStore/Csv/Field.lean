import RowStore.Csv.Quoting
import RowStore.Text.Utf8

/-! Texts written as fields.

A text that leaves the quoting as it found it, with no bare comma and no line break that would end
the line, is written as it is. Every other text stands in double quotes, with a backslash before
each backslash, quote and line break of its own.
-/

namespace RowStore.Csv.Field

/-- Is the text one whole field when it is written as it is? -/
def standsFrom (quoting : Quoting) : Bytes → Bool
  | [] => quoting.settled
  | byte :: rest =>
      if quoting.escaped then standsFrom (quoting.step byte) rest
      else if isLineBreak byte then false
      else if byte = comma && quoting.outside then false
      else standsFrom (quoting.step byte) rest

def stands (text : String) : Bool := standsFrom .plain (Text.Utf8.ofString text)

def needsEscape (c : Char) : Bool :=
  c = '\\' || c = '"' || c = '\'' || c = '\n' || c = '\r'

def escaped (text : List Char) : List Char :=
  text.flatMap fun c => if needsEscape c then ['\\', c] else [c]

def render (text : String) : String :=
  if stands text then text else String.ofList ('"' :: escaped text.toList ++ ['"'])

/-- The fields of a line, with commas between them. -/
def renderLine (texts : List String) : String := ",".intercalate (texts.map render)

end RowStore.Csv.Field
