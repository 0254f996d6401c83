import RowStore.Command.Request

/-! The command line. It loads the files that a request names, runs the request, stores what it
wrote and prints its two streams.
-/

namespace RowStore

def usage : String :=
  "usage: rowstore import INPUT OUTPUT [-c CODEC] [--zstd-level LEVEL] [-r ROWS] " ++
    "[--column NAME:TYPE]\n" ++
  "       rowstore schema INPUT [--json]\n" ++
  "       rowstore inspect FILE [--blocks]\n" ++
  "       rowstore export INPUT OUTPUT [--columns NAMES]\n" ++
  "       rowstore read-row FILE -i ROW"

/-- The bytes of a file, if it can be read. -/
def loadFile (path : String) : IO (Option Bytes) := do
  try
    let content ← IO.FS.readBinFile path
    return some content.toList
  catch _ => return none

/-- Everything up to the end of the input. -/
def loadInput : IO Bytes := do
  let content ← (← IO.getStdin).readBinToEnd
  return content.toList

def storeFile (path : String) (bytes : Bytes) : IO Unit :=
  IO.FS.writeBinFile path ⟨bytes.toArray⟩

/-- Only a directory has a dot inside. -/
def isDirectory (path : String) : IO Bool := do
  try
    discard (IO.FS.realPath (path ++ "/."))
    return true
  catch _ => return false

/-- Add what a path passes. The file that it names itself is only read if it is to be. -/
def loadPath (storage : Storage) (path : String) (wanted : Bool) : IO Storage := do
  match Path.read path with
  | .error _ => return storage
  | .ok found =>
      let mut storage := storage
      let count := found.directories.length
      for ((text, place), index) in found.stages.zipIdx do
        if ← isDirectory text then
          storage := { storage with directories := place :: storage.directories }
        else if index < count ∨ wanted then
          if let some bytes ← loadFile text then
            storage := storage.put place bytes
      return storage

/-- What a request finds when it starts. -/
def openSession (request : Command.Request) : IO Session := do
  let source := request.source
  let input ← if source = "-" then loadInput else pure []
  let storage ← loadPath ⟨[], []⟩ source true
  let storage ← match request.target? with
    | some target => loadPath storage target false
    | none => pure storage
  return { storage, input, output := [], diagnostics := [] }

def runRequest (request : Command.Request) : IO UInt32 := do
  let start ← IO.monoNanosNow
  let session ← openSession request
  let (outcome, session) := request.run.run.run session
  if let some target := request.target? then
    if let some bytes := session.storage.bytes? target then
      storeFile target bytes
  session.diagnostics.forM IO.eprintln
  if outcome.isOk then
    let stop ← IO.monoNanosNow
    (request.timing? (stop - start)).toList.forM IO.eprintln
  session.output.forM IO.println
  match outcome with
  | .ok () => return 0
  | .error fault => do
      IO.eprintln ("Error: " ++ fault.message)
      return 1

end RowStore

def main (args : List String) : IO UInt32 := do
  match RowStore.Command.readRequest? args with
  | some request => RowStore.runRequest request
  | none => do
      IO.eprintln RowStore.usage
      return 2
