import RowStore.Path

/-! The files that commands read and write, and the directories they are in.

The root, the working directory and the directories above it are always there. What a path names is
found by going through its directories one by one, so a path through a missing directory names
nothing, even if it leaves that directory again.
-/

namespace RowStore

/-- What is found at a place. -/
inductive Node where
  | file (bytes : Bytes)
  | directory
deriving Repr, DecidableEq

/-- A directory can be opened, but has no bytes to read. -/
def Node.content : Node → Except IoFault Bytes
  | file bytes => .ok bytes
  | directory => .error .isADirectory

structure Storage where
  files : List (Place × Bytes)
  directories : List Place
deriving Repr, DecidableEq

namespace Storage

/-- Files in the working directory. -/
def ofFiles (files : List (String × Bytes)) : Storage where
  files := files.map fun (name, bytes) => (Place.working.inside name, bytes)
  directories := []

def node? (storage : Storage) (place : Place) : Option Node :=
  if place.names.isEmpty ∨ storage.directories.contains place then some .directory
  else (storage.files.lookup place).map .file

/-- Go through a directory. -/
def enter (storage : Storage) (place : Place) (word : String) : Except IoFault Place := do
  Path.checkName word
  let next := place.follow word
  match storage.node? next with
  | some .directory => .ok next
  | some (.file _) => .error .notADirectory
  | none => .error .notFound

def walk (storage : Storage) (path : Path) : Except IoFault Place :=
  path.directories.foldlM storage.enter path.start

/-- Open what a path names. Only a directory may be named with a slash at the end. -/
def openNode (storage : Storage) (text : String) : Except IoFault Node := do
  let path ← Path.read text
  let place ← storage.walk path
  match path.name? with
  | none => .ok .directory
  | some name => do
      Path.checkName name
      match storage.node? (place.inside name) with
      | some (.file bytes) => if path.closed then .error .notADirectory else .ok (.file bytes)
      | some .directory => .ok .directory
      | none => .error .notFound

/-- Where a path creates a file, be there one already or not. A slash at the end asks for a
directory. -/
def creationPlace (storage : Storage) (text : String) : Except IoFault Place := do
  let path ← Path.read text
  let place ← storage.walk path
  match path.name? with
  | none => .error .isADirectory
  | some name =>
      if path.closed then .error .isADirectory
      else do
        Path.checkName name
        let target := place.inside name
        if storage.node? target = some .directory then .error .isADirectory else .ok target

/-- Put a file in the place of any other. -/
def put (storage : Storage) (place : Place) (bytes : Bytes) : Storage :=
  { storage with files := (place, bytes) :: storage.files.filter (·.1 ≠ place) }

/-- A file that was put where no directory is can be found there. -/
theorem node?_put {storage : Storage} {place : Place} {bytes : Bytes}
    (vacant : storage.node? place ≠ some .directory) :
    (storage.put place bytes).node? place = some (.file bytes) := by
  unfold node? at vacant ⊢
  split at vacant
  · exact absurd rfl vacant
  · rename_i elsewhere
    rw [put, if_neg elsewhere, List.lookup_cons_self]
    rfl

/-- The bytes of the file that a path names. -/
def bytes? (storage : Storage) (text : String) : Option Bytes :=
  match storage.openNode text with
  | .ok (.file bytes) => some bytes
  | _ => none

end Storage

end RowStore
