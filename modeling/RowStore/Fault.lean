import RowStore.Error
import RowStore.Text.Utf8

/-! What can go wrong with files, blocks and commands.

A fault is a cause inside any number of contexts, the outermost first. A trap is never put into a
context.
-/

namespace RowStore

inductive IoFault where
  | unexpectedEnd
  | notFound
  | invalidInput
  | invalidFilename
  | isADirectory
  | notADirectory
  | other
deriving Repr, DecidableEq

namespace IoFault

def label : IoFault → String
  | unexpectedEnd => "UnexpectedEof"
  | notFound => "NotFound"
  | invalidInput => "InvalidInput"
  | invalidFilename => "InvalidFilename"
  | isADirectory => "IsADirectory"
  | notADirectory => "NotADirectory"
  | other => "Other"

end IoFault

/-- Numbers that do not fit the fields of the file. -/
inductive Oversize where
  | rowLayout
  | schema
  | sidecar
  | payload
  | block
  | columnName (name : String)
deriving Repr, DecidableEq

namespace Oversize

def message : Oversize → String
  | rowLayout => "row layout is too wide"
  | schema => "schema is too large"
  | sidecar => "block sidecar is too large"
  | payload => "compressed block too large"
  | block => "block too large"
  | columnName name => s!"column name {Text.quoted name} is too long"

end Oversize

inductive FaultContext where
  | opening (path : String)
  | creating (path : String)
  | openingInput (path : String)
  | creatingOutput (path : String)
  | unzipping (path : String)
  | header
  | schema
  | blockIndex
  | encoding (row : Nat)
  | decoding (row : Nat)
  | expanding (block : Nat)
deriving Repr, DecidableEq

namespace FaultContext

def message : FaultContext → String
  | opening path => s!"open {path}"
  | creating path => s!"create {path}"
  | openingInput path => s!"opening input file {Text.quoted path}"
  | creatingOutput path => s!"creating output file {Text.quoted path}"
  | unzipping path => s!"gunzipping {Text.quoted path}"
  | header => "file is shorter than an RPAK1 header"
  | schema => "schema truncated"
  | blockIndex => "block index truncated"
  | encoding row => s!"encode row {row}"
  | decoding row => s!"decode row {row}"
  | expanding block => s!"decompress block {block}"

end FaultContext

inductive Fault where
  | data (error : Error)
  | io (fault : IoFault)
  | oversize (what : Oversize)
  | badMagic
  | unknownByteOrder (id : Nat)
  | schemaTruncated (offset : Nat)
  | nameEncoding (flaw : Text.Utf8.Flaw)
  | unknownColumnType (name : String) (id : Nat)
  | noRowsPerBlock
  | tooManyColumns (count : Nat)
  | unplaced (name : String)
  | cursorWidth (cursor layout : Nat)
  | unsupportedVersion (version : Nat)
  | codecMismatch (file given : Nat)
  | blockOutOfRange (block total : Nat)
  | checksumMismatch (block expected found : Nat)
  | blockLength (block found expected : Nat)
  | rowOutOfRange (row rows : Nat)
  | noBlock (row : Nat)
  | blockTooShort (block row : Nat)
  | unknownCodecId (id : Nat)
  | unknownCodecName (name : String)
  | malformedLz4
  | missingRowWidth
  | raggedBlock (length width : Nat)
  | overrideForm (spec : String)
  | overrideColumn (name : String)
  | within (context : FaultContext) (fault : Fault)
deriving Repr, DecidableEq

namespace Fault

def trap (reason : Trap) : Fault := data (.trap reason)

/-- Put a fault into a context, unless it is a trap. -/
def inContext (context : FaultContext) : Fault → Fault
  | data (.trap reason) => trap reason
  | fault => within context fault

def paddedHex (number : Nat) : String :=
  let digits := Text.hexDigits number
  String.ofList (List.replicate (16 - digits.length) '0' ++ digits)

def message : Fault → String
  | data error => error.message
  | io fault => fault.label
  | oversize what => what.message ++ ": number too large to fit in target type"
  | badMagic => "invalid RPAK magic bytes, not an RPAK1 file"
  | unknownByteOrder id => s!"unknown byte order id {id}"
  | schemaTruncated offset => s!"schema truncated at byte {offset}"
  | nameEncoding flaw => "column name is not UTF-8: " ++ flaw.message
  | unknownColumnType name id => s!"column {Text.quoted name} has unknown codec id {id}"
  | noRowsPerBlock => "rows_per_block must be at least 1"
  | tooManyColumns count => s!"{count} columns exceed the format limit of 65535"
  | unplaced name => s!"column {Text.quoted name} has no binary position"
  | cursorWidth cursor layout => s!"cursor has {cursor} columns but the layout has {layout}"
  | unsupportedVersion version =>
      s!"unsupported RPAK version {version} (only version 1 is supported)"
  | codecMismatch file given =>
      s!"codec mismatch: file uses codec {file} but provided codec has id {given}"
  | blockOutOfRange block total => s!"block index {block} out of range (total {total})"
  | checksumMismatch block expected found =>
      s!"block {block} checksum mismatch: expected {paddedHex expected}, got {paddedHex found}"
  | blockLength block found expected =>
      s!"block {block} decompressed to {found} bytes but index says {expected}"
  | rowOutOfRange row rows => s!"row {row} out of range (file has {rows} rows)"
  | noBlock row => s!"no block holds row {row}"
  | blockTooShort block row => s!"block {block} is too short for row {row}"
  | unknownCodecId id =>
      s!"unknown codec id {id}; " ++
        "supported: 0 (passthrough), 1 (zstd), 2 (lz4), 3 (shuffle-zstd)"
  | unknownCodecName name =>
      s!"unknown codec {Text.quoted name}; expected passthrough, zstd, lz4 or shuffle-zstd"
  | malformedLz4 => "lz4 decompress error"
  | missingRowWidth => "shuffle sidecar is missing the row width"
  | raggedBlock length width =>
      s!"shuffled block of {length} bytes is not a multiple of row width {width}"
  | overrideForm spec => s!"--column {Text.quoted spec} is not NAME:TYPE"
  | overrideColumn name => s!"--column {Text.quoted name} does not match any header column"
  | within context fault => context.message ++ ": " ++ fault.message

/-- The cause inside all contexts. -/
def cause : Fault → Fault
  | within _ fault => fault.cause
  | fault => fault

end Fault

namespace Outcome

/-- Report a data error as a fault. -/
def ofData {α : Type} (result : Except Error α) : Except Fault α := result.mapError .data

/-- Report a fault in a context. -/
def inContext {α : Type} (context : FaultContext) (result : Except Fault α) : Except Fault α :=
  result.mapError (.inContext context)

end Outcome

end RowStore
