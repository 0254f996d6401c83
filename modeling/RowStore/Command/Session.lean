import RowStore.Storage

/-! What a command acts on: stored files, the input, and two streams of lines.

An action that fails leaves behind what it did before.
-/

namespace RowStore

structure Session where
  storage : Storage
  input : Bytes
  output : List String
  diagnostics : List String
deriving Repr, DecidableEq

abbrev Action (α : Type) := ExceptT Fault (StateM Session) α

namespace Action

def lift {α : Type} (outcome : Except Fault α) : Action α := ExceptT.mk (pure outcome)

def data {α : Type} (outcome : Except Error α) : Action α := lift (Outcome.ofData outcome)

def fail {α : Type} (fault : Fault) : Action α := lift (.error fault)

def io {α : Type} (outcome : Except IoFault α) : Action α := lift (outcome.mapError .io)

/-- Put the faults of an action into a context. -/
def within {α : Type} (context : FaultContext) (action : Action α) : Action α :=
  ExceptT.adapt (.inContext context) action

def openNode (path : String) : Action Node := do io ((← get).storage.openNode path)

def writeFile (place : Place) (bytes : Bytes) : Action Unit :=
  modify fun session => { session with storage := session.storage.put place bytes }

/-- Create a file or empty the one there is. -/
def createFile (path : String) : Action Place := do
  let place ← io ((← get).storage.creationPlace path)
  writeFile place []
  pure place

def print (lines : List String) : Action Unit :=
  modify fun session => { session with output := session.output ++ lines }

def report (lines : List String) : Action Unit :=
  modify fun session => { session with diagnostics := session.diagnostics ++ lines }

end Action

end RowStore
