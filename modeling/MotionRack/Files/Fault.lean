/-!
# Faults of reading files

Why a file could not be read, as causes. `FileFault.message` holds all wording.
-/
namespace MotionRack

/-- Why a file could not be read. -/
inductive FileFault
  /-- A store of documents has nothing under this path. -/
  | absent
  | noSuchFile
  | accessDenied
  | notDirectory
  | isDirectory
  | nameTooLong
  | nulInName
  | notText
  /-- Nobody has looked at this path yet. -/
  | unread
  | other (text : String)
  deriving DecidableEq, Repr

/-- The wording of a fault. -/
def FileFault.message : FileFault → String
  | absent => "entity not found"
  | noSuchFile => "No such file or directory (os error 2)"
  | accessDenied => "Permission denied (os error 13)"
  | notDirectory => "Not a directory (os error 20)"
  | isDirectory => "Is a directory (os error 21)"
  | nameTooLong => "File name too long (os error 36)"
  | nulInName => "file name contained an unexpected NUL byte"
  | notText => "stream did not contain valid UTF-8"
  | unread => "not read yet"
  | other text => text

/-- What reading a path gives. -/
abbrev FileReader := String → Except FileFault ByteArray

/-- The text of a file. -/
def FileReader.text (read : FileReader) (path : String) : Except FileFault String := do
  match String.fromUTF8? (← read path) with
  | some text => .ok text
  | none => .error .notText

end MotionRack
