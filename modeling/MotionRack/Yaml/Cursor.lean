/-!
# Places in a YAML text

Places in a YAML text, and the classes of characters that decide where its parts end. A line ends
with a line feed, a carriage return, both, or the next-line character, which all mean the same; the
two separators of Unicode end a line too but stay what they are.
-/
namespace MotionRack.Yaml

/-- Blanks within a line. -/
def isBlank (c : Char) : Bool := c == ' ' || c == '\t'

/-- Ends of lines, once they are unified. -/
def isBreak (c : Char) : Bool := c == '\n' || c == '\u2028' || c == '\u2029'

/-- Blanks and ends of lines. -/
def isSpace (c : Char) : Bool := isBlank c || isBreak c

/-- Characters of names. -/
def isWord (c : Char) : Bool :=
  ('0' ≤ c && c ≤ '9') || ('A' ≤ c && c ≤ 'Z') || ('a' ≤ c && c ≤ 'z') || c == '_' || c == '-'

/-- Brackets, braces and commas, which end a plain text in a flow collection. -/
def isFlowMark (c : Char) : Bool := ",[]\x7b\x7d".contains c

/-- The mark of byte order, which may start a line. -/
def byteOrderMark : Char := '\ufeff'

/-- Whether a character may stand in a document at all. -/
def isAllowed (c : Char) : Bool :=
  c == '\t' || c == '\n' || c == '\r' || (' ' ≤ c && c ≤ '~') || c == '\u0085'
    || ('\u00a0' ≤ c && c ≤ '\ufffd') || 0x10000 ≤ c.toNat

/-- Writes the ends of lines that mean the same in one way. -/
def unifyBreaks : List Char → List Char
  | [] => []
  | '\r' :: '\n' :: rest => '\n' :: unifyBreaks rest
  | c :: rest => (if c = '\r' ∨ c = '\u0085' then '\n' else c) :: unifyBreaks rest

/-- Whether what stands before ends here: with space or with the text. -/
def endsHere : List Char → Bool
  | [] => true
  | c :: _ => isSpace c

/-- A line and a column, both counted from zero, and the number of octets before it in the line. -/
structure Mark where
  line : Nat := 0
  column : Nat := 0
  octets : Nat := 0
  deriving DecidableEq, Repr

namespace Mark

/-- The place behind a character of the line. -/
def next (m : Mark) (c : Char) : Mark :=
  { m with column := m.column + 1, octets := m.octets + c.utf8Size }

/-- The start of the next line. -/
def newLine (m : Mark) : Mark := { line := m.line + 1 }

/-- The place behind a character, which may end the line. -/
def after (m : Mark) (c : Char) : Mark := if isBreak c then m.newLine else m.next c

end Mark

/-- Whether a line that starts here starts or ends a document: three hyphens or three dots, and
nothing more in the word. -/
def isDocumentMark (m : Mark) (text : List Char) : Bool :=
  m.column == 0 && (text.take 3 == ['-', '-', '-'] || text.take 3 == ['.', '.', '.'])
    && endsHere (text.drop 3)

/-- What is left of a text, and the place where it starts. -/
structure Cursor where
  rest : List Char
  mark : Mark := {}

namespace Cursor

/-- Passes over characters of a line. -/
def advance (c : Cursor) (count : Nat) : Cursor :=
  ⟨c.rest.drop count, (c.rest.take count).foldl Mark.next c.mark⟩

/-- The characters of a class that come next, and the place after them. -/
def span (c : Cursor) (p : Char → Bool) : List Char × Cursor :=
  let taken := c.rest.takeWhile p
  (taken, c.advance taken.length)

/-- Passes over the characters of a class that come next. -/
def skip (c : Cursor) (p : Char → Bool) : Cursor := (c.span p).2

/-- The start of the next line, if only blanks and a comment are left of this one. -/
def lineEnd? (c : Cursor) : Option Cursor :=
  let c := c.skip isBlank
  let c := if c.rest.head? = some '#' then c.skip (!isBreak ·) else c
  match c.rest with
  | [] => some c
  | b :: rest => if isBreak b then some ⟨rest, c.mark.newLine⟩ else none

/-- The next part of the text. Blanks, comments and ends of lines are passed over; `tabs` tells
whether a tabulator is a blank here, and `stays` whether this is so in later lines. The second part
tells whether a line ended. -/
def nextPartFrom (stays : Bool) : (tabs comment ended : Bool) → Mark → List Char → Cursor × Bool
  | _, _, ended, m, [] => (⟨[], m⟩, ended)
  | tabs, comment, ended, m, c :: rest =>
    if isBreak c then nextPartFrom stays stays false true m.newLine rest
    else if comment || c == ' ' || (tabs && c == '\t') || (m.column == 0 && c == byteOrderMark) then
      nextPartFrom stays tabs comment ended (m.next c) rest
    else if c == '#' then nextPartFrom stays tabs true ended (m.next c) rest
    else (⟨c :: rest, m⟩, ended)

end Cursor

end MotionRack.Yaml
