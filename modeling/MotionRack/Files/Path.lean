import MotionRack.Text.Split

/-!
# File paths

File paths as texts. A relative path is taken from a base directory, an absolute one stands for
itself; the directory of a path is found without looking at any file.
-/
namespace MotionRack.Path

/-- Whether a path starts at the root. -/
def isAbsolute (path : String) : Bool := path.toList.head? == some '/'

/-- A path as seen from a base directory. -/
def join (base path : String) : String :=
  if isAbsolute path || base.isEmpty then path
  else if base.toList.getLast? == some '/' then base ++ path
  else base ++ "/" ++ path

/-- Whether a part of a path names nothing: it is empty or the current directory. -/
def isIdle (part : List Char) : Bool := part.isEmpty || part == ['.']

/-- Parts without the idle ones at the end. -/
def dropIdle (parts : List (List Char)) : List (List Char) :=
  (parts.reverse.dropWhile isIdle).reverse

/-- The leading root or current directory of a path. -/
def lead : List Char → List Char
  | '/' :: _ => ['/']
  | ['.'] => ['.']
  | '.' :: '/' :: _ => ['.']
  | _ => []

/-- A path without its last name. The root and the empty path have none. -/
def parent? (path : String) : Option String :=
  let cs := path.toList
  let head := lead cs
  match (dropIdle (Split.cut '/' (cs.drop head.length))).reverse with
  | _ :: parts => some (String.ofList (head ++ Split.join '/' (dropIdle parts.reverse)))
  | [] => if head == ['.'] then some "" else none

/-- The directory of a file; a bare name lies in the current directory. -/
def directory (path : String) : String :=
  match parent? path with
  | some dir => if dir.isEmpty then "." else dir
  | none => "."

end MotionRack.Path
