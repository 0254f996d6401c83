import RowStore.Fault

/-! Paths, and the places they name.

A path is a list of words between slashes. All words but the last name directories to go through; a
dot stays where it is and two dots go up. A path that ends in dots names a directory only.
-/

namespace RowStore

/-- Where a walk starts: at the root, or so many levels above the working directory. -/
inductive Anchor where
  | root
  | above (levels : Nat)
deriving Repr, DecidableEq

/-- A place in the tree of directories. The names lead to it from the anchor, the innermost first. -/
structure Place where
  anchor : Anchor
  names : List String
deriving Repr, DecidableEq

namespace Place

def root : Place := ⟨.root, []⟩

def working : Place := ⟨.above 0, []⟩

def inside (place : Place) (name : String) : Place := { place with names := name :: place.names }

/-- One level up. The root is its own parent. -/
def parent (place : Place) : Place :=
  match place.anchor, place.names with
  | anchor, _ :: outer => ⟨anchor, outer⟩
  | .root, [] => root
  | .above levels, [] => ⟨.above (levels + 1), []⟩

theorem parent_inside (place : Place) (name : String) : (place.inside name).parent = place := by
  cases place with
  | mk anchor names => cases anchor <;> rfl

/-- Follow a word, whatever is there. -/
def follow (place : Place) (word : String) : Place :=
  if word = "." then place else if word = ".." then place.parent else place.inside word

end Place

structure Path where
  start : Place
  /-- The directories to go through. -/
  directories : List String
  /-- The entry that is named in the last directory, if one is. -/
  name? : Option String
  /-- Does the path end in a slash? -/
  closed : Bool
deriving Repr, DecidableEq

namespace Path

/-- Bytes that a path may have. -/
def lengthLimit : Nat := 4095

/-- Bytes that a name may have. -/
def nameLimit : Nat := 255

def checkName (name : String) : Except IoFault Unit :=
  if name.utf8ByteSize ≤ nameLimit then .ok () else .error .invalidFilename

/-- The words between slashes. Slashes next to each other count as one. -/
def words (text : String) : List String := (text.splitOn "/").filter fun word => !word.isEmpty

/-- The name of the file or directory that a path names by its words alone. -/
def fileName? (text : String) : Option String := ((words text).filter (· ≠ ".")).getLast?

def ofWords (start : Place) (closed : Bool) (words : List String) : Path :=
  match words.getLast? with
  | none => ⟨start, [], none, closed⟩
  | some last =>
      if last = "." ∨ last = ".." then ⟨start, words, none, closed⟩
      else ⟨start, words.dropLast, some last, closed⟩

/-- A path has a text without null characters, not empty and not too long. -/
def read (text : String) : Except IoFault Path :=
  if text.toList.contains '\x00' then .error .invalidInput
  else if text.isEmpty then .error .notFound
  else if lengthLimit < text.utf8ByteSize then .error .invalidFilename
  else
    let start := if text.startsWith "/" then Place.root else Place.working
    .ok (ofWords start (text.endsWith "/") (words text))

/-- The places that a path passes, each with its own text. -/
def stages (path : Path) : List (String × Place) :=
  let words := path.directories ++ path.name?.toList
  let opening := if path.start = .root then "/" else ""
  (List.range words.length).map fun index =>
    let passed := words.take (index + 1)
    (opening ++ "/".intercalate passed, passed.foldl Place.follow path.start)

end Path

end RowStore
