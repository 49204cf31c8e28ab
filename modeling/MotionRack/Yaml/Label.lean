import MotionRack.Number.Numeral
import MotionRack.Yaml.Cursor

/-!
# Labels of YAML nodes

What is written before a node besides its content: names of anchors and of references to them, tags,
and the directives at the head of a document that explain the handles of tags.
-/
namespace MotionRack.Yaml

/-- The name of an anchor or of a reference, behind its indicator. -/
def name? (c : Cursor) : Option (String × Cursor) :=
  let (name, after) := (c.advance 1).span isWord
  let ends := match after.rest with
    | [] => true
    | d :: _ => isSpace d || "?:,]\x7d%@\x60".contains d
  if name.isEmpty || !ends then none else some (String.ofList name, after)

/-! ### Tags -/

/-- A tag as it is written: a handle that stands for the start of a text, and the rest of it. -/
structure TagName where
  handle : String
  suffix : String
  deriving DecidableEq, Repr

/-- Characters of the text of a tag that stand for themselves; commas and brackets only in its
verbatim form. -/
def isTagText (verbatim : Bool) (c : Char) : Bool :=
  isWord c || ";/?:@&=+$.!~*'()".contains c || (verbatim && ",[]".contains c)

/-- How many octets follow the first octet of a character. -/
def octetsAfter? (octet : Nat) : Option Nat :=
  if octet < 0x80 then some 0
  else if octet / 0x20 = 6 then some 1
  else if octet / 0x10 = 0xE then some 2
  else if octet / 8 = 0x1E then some 3
  else none

/-- Reads the text of a tag. A percent sign starts an escaped octet, which stands here for the
character of its number; `pending` octets are still to come for the same character. -/
def tagText? (verbatim : Bool) : (pending : Nat) → List Char → Option (List Char × List Char)
  | 0, '%' :: a :: b :: rest => do
    let octet ← Numeral.digits? 16 [a, b]
    let (text, rest) ← tagText? verbatim (← octetsAfter? octet) rest
    return (Char.ofNat octet :: text, rest)
  | 0, '%' :: _ => none
  | 0, c :: rest =>
    if isTagText verbatim c then
      (tagText? verbatim 0 rest).map fun (text, rest) => (c :: text, rest)
    else some ([], c :: rest)
  | 0, [] => some ([], [])
  | pending + 1, '%' :: a :: b :: rest => do
    let octet ← Numeral.digits? 16 [a, b]
    if octet / 0x40 ≠ 2 then none
    else
      let (text, rest) ← tagText? verbatim pending rest
      return (Char.ofNat octet :: text, rest)
  | _ + 1, _ => none

/-- The text of a tag and the place after it. -/
def tagTextAt? (verbatim : Bool) (c : Cursor) : Option (List Char × Cursor) := do
  let (text, rest) ← tagText? verbatim 0 c.rest
  return (text, c.advance (c.rest.length - rest.length))

/-- What counts of the text of a tag: a zero octet ends it. -/
def tagString (text : List Char) : String := String.ofList (text.takeWhile (· != '\x00'))

/-- A handle, or its start where no second exclamation mark follows. -/
def handle (c : Cursor) : List Char × Cursor :=
  let (word, after) := (c.advance 1).span isWord
  if after.rest.head? = some '!' then ('!' :: (word ++ ['!']), after.advance 1)
  else ('!' :: word, after)

/-- A tag at its exclamation mark, without a look at what follows. -/
def tagName? (c : Cursor) : Option (TagName × Cursor) :=
  if c.rest[1]? = some '<' then do
    let (text, after) ← tagTextAt? true (c.advance 2)
    if text.isEmpty ∨ after.rest.head? ≠ some '>' then none
    else return (⟨"", tagString text⟩, after.advance 1)
  else do
    let (start, after) := handle c
    let (text, last) ← tagTextAt? false after
    if 1 < start.length ∧ start.getLast? = some '!' then
      if text.isEmpty then none else return (⟨String.ofList start, tagString text⟩, last)
    else
      let suffix := tagString (start.drop 1 ++ text)
      return (if suffix.isEmpty then ⟨"", "!"⟩ else ⟨"!", suffix⟩, last)

/-- A tag; space has to follow it, or a comma in flow form. -/
def tag? (flow : Bool) (c : Cursor) : Option (TagName × Cursor) := do
  let (tag, after) ← tagName? c
  if endsHere after.rest || (flow && after.rest.head? == some ',') then some (tag, after) else none

/-! ### Directives -/

/-- A directive: the version of the language, or what a handle stands for. -/
inductive Directive
  | version (major minor : Nat)
  | handle (name lead : String)
  deriving DecidableEq, Repr

/-- A number of a version, of at most nine digits. -/
def versionNumber? (c : Cursor) : Option (Nat × Cursor) :=
  let (digits, after) := c.span Char.isDigit
  if 9 < digits.length then none else (Numeral.digits? 10 digits).map fun n => (n, after)

/-- A version: two numbers with a point between them. -/
def version? (c : Cursor) : Option (Directive × Cursor) := do
  let (major, c) ← versionNumber? (c.skip isBlank)
  if c.rest.head? ≠ some '.' then none
  else
    let (minor, c) ← versionNumber? (c.advance 1)
    return (.version major minor, c)

/-- A handle and what it stands for, with blanks between them. -/
def handleMeaning? (c : Cursor) : Option (Directive × Cursor) := do
  let c := c.skip isBlank
  if c.rest.head? ≠ some '!' then none
  else
    let (name, after) := handle c
    if name.getLast? ≠ some '!' then none
    else if !after.rest.head?.any isBlank then none
    else
      let (text, last) ← tagTextAt? true (after.skip isBlank)
      if text.isEmpty || !endsHere last.rest then none
      else return (.handle (String.ofList name) (tagString text), last)

/-- A directive at its percent sign, and the next line. -/
def directive? (c : Cursor) : Option (Directive × Cursor) := do
  let (name, after) := (c.advance 1).span isWord
  if !endsHere after.rest then none
  else
    let (directive, last) ←
      if name = "YAML".toList then version? after
      else if name = "TAG".toList then handleMeaning? after
      else none
    return (directive, ← last.lineEnd?)

end MotionRack.Yaml
