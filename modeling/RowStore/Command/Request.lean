import RowStore.Command.Files

/-! The commands as data, and their arguments.

Arguments that start with a hyphen are options; all others are taken by position.
-/

namespace RowStore.Command

inductive Request where
  | importTable (options : ImportOptions)
  | printSchema (input : String) (json : Bool)
  | inspect (path : String) (blocks : Bool)
  | exportTable (input output : String) (columns : Option String)
  | readRow (path : String) (row : Nat)
deriving Repr, DecidableEq

namespace Request

def run : Request → Action Unit
  | importTable options => Command.importTable options
  | printSchema input json => Command.printSchema input json
  | inspect path blocks => Command.inspect path blocks
  | exportTable input output columns => Command.exportTable input output columns
  | readRow path row => Command.readRow path row

/-- How the time that a request took is reported, if it is. -/
def timing? (request : Request) (nanoseconds : Nat) : Option String :=
  match request with
  | importTable _ =>
      some ("  elapsed     : " ++ Decimal.withPlaces 3 (roundDiv nanoseconds 1000000) ++ "s")
  | readRow _ _ =>
      some ("  decoded in " ++ Decimal.withPlaces 3 (roundDiv nanoseconds 1000) ++ "ms")
  | _ => none

/-- The file that is read. -/
def source : Request → String
  | importTable options => options.input
  | printSchema input _ => input
  | inspect path _ => path
  | exportTable input _ _ => input
  | readRow path _ => path

/-- The file that is written, if there is one. -/
def target? : Request → Option String
  | importTable options => some options.output
  | exportTable _ output _ => if output = "-" then none else some output
  | _ => none

end Request

/-- The arguments by position, and the options with their values. Options without a value have the
empty text for one. -/
structure Arguments where
  positions : List String
  options : List (String × String)
deriving Repr, DecidableEq

namespace Arguments

/-- The options that stand alone. -/
def flags : List String := ["--json", "--blocks"]

def isOption (word : String) : Bool := word.startsWith "-" && word ≠ "-"

/-- Sort words into positions and options. An option that lacks its value gives none. -/
def read? : List String → Option Arguments
  | [] => some ⟨[], []⟩
  | [word] =>
      if flags.contains word then some ⟨[], [(word, "")]⟩
      else if isOption word then none
      else some ⟨[word], []⟩
  | word :: value :: rest => do
      if isOption word && !flags.contains word then
        let arguments ← read? rest
        some { arguments with options := (word, value) :: arguments.options }
      else
        let arguments ← read? (value :: rest)
        if flags.contains word then
          some { arguments with options := (word, "") :: arguments.options }
        else some { arguments with positions := word :: arguments.positions }

/-- The value of an option under either of its names. -/
def option? (arguments : Arguments) (names : List String) : Option String :=
  (arguments.options.find? fun (name, _) => names.contains name).map Prod.snd

/-- The number an option gives, or what it is without the option. -/
def number? (arguments : Arguments) (names : List String) (default : Nat) : Option Nat :=
  match arguments.option? names with
  | some text => text.toNat?
  | none => some default

def hasFlag (arguments : Arguments) (name : String) : Bool := (arguments.option? [name]).isSome

def importOptions? (arguments : Arguments) (input output : String) : Option ImportOptions := do
  let level ← arguments.number? ["--zstd-level"] 3
  let rows ← arguments.number? ["-r", "--rows-per-block"] defaultRowsPerBlock.toNat
  if rows < UInt32.size then
    some {
      input
      output
      codec := (arguments.option? ["-c", "--codec"]).getD "zstd"
      level := level
      rowsPerBlock := UInt32.ofNat rows
      columns := (arguments.options.filter (·.1 = "--column")).map Prod.snd }
  else none

/-- The request of a command by its name. -/
def request? (arguments : Arguments) (command : String) : Option Request :=
  match command, arguments.positions with
  | "import", [input, output] => (arguments.importOptions? input output).map .importTable
  | "schema", [input] => some (.printSchema input (arguments.hasFlag "--json"))
  | "inspect", [path] => some (.inspect path (arguments.hasFlag "--blocks"))
  | "export", [input, output] => some (.exportTable input output (arguments.option? ["--columns"]))
  | "read-row", [path] => do
      let index ← arguments.option? ["-i", "--index"]
      let row ← index.toNat?
      if row < UInt64.size then some (.readRow path row) else none
  | _, _ => none

end Arguments

def readRequest? : List String → Option Request
  | [] => none
  | command :: words => do
      let arguments ← Arguments.read? words
      arguments.request? command

end RowStore.Command
