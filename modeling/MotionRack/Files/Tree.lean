import MotionRack.Files.Fault
import MotionRack.Text.Split

/-!
# Directory trees

A directory tree held in memory. Paths are followed name by name, as an operating system follows
them: every name but the last has to be a directory, and a path that ends in a separator asks for
one.
-/
namespace MotionRack

/-- What stands at a place of the tree. -/
inductive FileEntry
  | file (content : ByteArray)
  | directory

/-- The places of a tree, each named by the directories above it and its own name. -/
structure FileTree where
  entries : List (List String × FileEntry)

namespace FileTree

/-- The names of a path, without empty ones and without the current directory. -/
def names (path : String) : List String :=
  ((Split.cut '/' path.toList).filter fun part => !part.isEmpty && part != ['.']).map String.ofList

/-- Builds a tree from places named by paths. -/
def ofList (places : List (String × FileEntry)) : FileTree :=
  ⟨places.map fun (path, entry) => (names path, entry)⟩

/-- What stands at a place. A place above another one is a directory. -/
def entry? (tree : FileTree) (place : List String) : Option FileEntry :=
  match tree.entries.find? (·.1 == place) with
  | some (_, entry) => some entry
  | none =>
    if place.isEmpty || tree.entries.any (place.isPrefixOf ·.1) then some .directory else none

/-- Follows names from a directory outside the tree. Of those only that they are there is known. -/
def followOutside : List String → Except FileFault FileEntry
  | [] => .ok .directory
  | name :: rest =>
    if name = ".." then followOutside rest
    else .error (if 255 < name.utf8ByteSize then .nameTooLong else .noSuchFile)

/-- Follows names from a directory of the tree. The directory above the tree is outside it. -/
def follow (tree : FileTree) (place : List String) : List String → Except FileFault FileEntry
  | [] => match tree.entry? place with
    | some entry => .ok entry
    | none => .error .noSuchFile
  | name :: rest =>
    match tree.entry? place with
    | none => .error .noSuchFile
    | some (.file _) => .error .notDirectory
    | some .directory =>
      if 255 < name.utf8ByteSize then .error .nameTooLong
      else if name = ".." then
        if place.isEmpty then followOutside rest else follow tree place.dropLast rest
      else follow tree (place ++ [name]) rest

/-- Reads the file at a path that is relative to the tree. -/
def read (tree : FileTree) : FileReader := fun path =>
  if path.toList.contains '\x00' then .error .nulInName
  else if path.isEmpty then .error .noSuchFile
  else if 4095 < path.utf8ByteSize then .error .nameTooLong
  else do
    let reached :=
      if path.toList.head? = some '/' then followOutside (names path)
      else tree.follow [] (names path)
    match ← reached with
    | .directory => .error .isDirectory
    | .file content =>
      if (Split.cut '/' path.toList).getLast? ∈ [some [], some ['.']] then .error .notDirectory
      else .ok content

end FileTree
end MotionRack
