/-! Quotes and escapes of a line.

The two kinds of quotes are independent toggles, and a backslash takes the force of the next byte.
-/

namespace RowStore.Csv

structure Quoting where
  escaped : Bool
  single : Bool
  double : Bool
deriving Repr, DecidableEq

namespace Quoting

def plain : Quoting := ⟨false, false, false⟩

/-- Neither kind of quotes is open. -/
def outside (quoting : Quoting) : Bool := !quoting.single && !quoting.double

/-- Nothing is open and no escape is pending. -/
def settled (quoting : Quoting) : Bool := quoting.outside && !quoting.escaped

/-- The state after a byte of content. -/
def step (quoting : Quoting) (byte : UInt8) : Quoting :=
  if quoting.escaped then { quoting with escaped := false }
  else if byte = 0x22 then { quoting with double := !quoting.double }
  else if byte = 0x27 then { quoting with single := !quoting.single }
  else if byte = 0x5C then { quoting with escaped := true }
  else quoting

end Quoting

def comma : UInt8 := 0x2C

def isLineBreak (byte : UInt8) : Bool := byte = 0x0D || byte = 0x0A

end RowStore.Csv
