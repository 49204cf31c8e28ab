import MotionRack.Number.Numeral
import MotionRack.Yaml.Cursor

/-!
# YAML scalars

The scalars of YAML: plain and quoted texts, which may run over several lines and are folded to one,
and block scalars, whose lines are told by their indentation.
-/
namespace MotionRack.Yaml

/-- How a scalar is written. -/
inductive Style
  | plain
  | singleQuoted
  | doubleQuoted
  | literal
  | folded
  deriving DecidableEq, Repr

/-! ### Folding -/

/-- The space between two words of a scalar: blanks of one line, or the ends of lines. The first
end counts apart; it is missing where it was escaped. -/
inductive Gap
  | blanks (cs : List Char)
  | lines (first : Option Char) (more : List Char)

namespace Gap

/-- No space at all. -/
def empty : Gap := blanks []

/-- Adds a blank or the end of a line. Blanks before and after the end of a line do not count. -/
def add (c : Char) : Gap → Gap
  | blanks cs => if isBreak c then lines (some c) [] else blanks (cs ++ [c])
  | lines first more => lines first (if isBreak c then more ++ [c] else more)

/-- What space stands for. One end of a line is a blank; of several ones all but the first stay. -/
def text : Gap → List Char
  | blanks cs => cs
  | lines (some '\n') [] => [' ']
  | lines (some '\n') more => more
  | lines first more => first.toList ++ more

def isEmpty : Gap → Bool
  | blanks [] => true
  | _ => false

/-- Whether a line ends in the space. -/
def isLines : Gap → Bool
  | blanks _ => false
  | lines _ _ => true

end Gap

/-! ### Plain scalars -/

/-- A plain scalar, whether the line ended behind it, and the place after it. -/
structure PlainScalar where
  text : String
  endsLine : Bool
  after : Cursor

/-- The scalar of a text, its last character first, and the space behind it. -/
def PlainScalar.ofParts (text : List Char) (gap : Gap) (after : Cursor) : PlainScalar :=
  ⟨String.ofList text.reverse, gap.isLines, after⟩

/-- Reads a plain scalar. It ends before a comment, a mark of a document or a line that is indented
by less than `least`; in flow form also before brackets, and there the indentation does not count.
`text` is read so far, last character first, and `gap` the space behind it. -/
def plainFrom (flow : Bool) (least : Nat) (text : List Char) (gap : Gap) (m : Mark) :
    List Char → Option PlainScalar
  | [] => some (.ofParts text gap ⟨[], m⟩)
  | c :: rest =>
    if isSpace c then
      if c = '\t' ∧ gap.isLines ∧ m.column < least then none
      else plainFrom flow least text (gap.add c) (m.after c) rest
    else if !gap.isEmpty && ((!flow && decide (m.column < least)) || c == '#'
        || isDocumentMark m (c :: rest)) then some (.ofParts text gap ⟨c :: rest, m⟩)
    else if flow && c == ':' && rest.head?.any (fun d => d == '?' || isFlowMark d) then none
    else if (c == ':' && endsHere rest) || (flow && isFlowMark c) then
      some (.ofParts text gap ⟨c :: rest, m⟩)
    else plainFrom flow least (c :: (gap.text.reverse ++ text)) .empty (m.next c) rest

/-! ### Quoted scalars -/

/-- The characters that have a short escape. -/
def escapes : List (Char × Char) :=
  [('0', '\x00'), ('a', '\x07'), ('b', '\x08'), ('t', '\t'), ('\t', '\t'), ('n', '\n'),
   ('v', '\x0b'), ('f', '\x0c'), ('r', '\r'), ('e', '\x1b'), (' ', ' '), ('"', '"'), ('/', '/'),
   ('\\', '\\'), ('N', '\u0085'), ('_', '\u00a0'), ('L', '\u2028'), ('P', '\u2029')]

/-- The number of digits of a numbered escape. -/
def escapeDigits? (c : Char) : Option Nat := [('x', 2), ('u', 4), ('U', 8)].lookup c

/-- Reads a quoted scalar up to its closing quote. A quote inside single quotes is written twice;
inside double quotes there are escapes. `pending` counts the digits of a numbered escape that are
still to come, and `code` is its value so far. -/
def quotedFrom (quote : Char) : (pending code : Nat) → (text : List Char) → Gap → Mark →
    List Char → Option (String × Cursor)
  | _, _, _, _, _, [] => none
  | pending + 1, code, text, gap, m, c :: rest => do
    let code := 16 * code + (← Numeral.digitValue? 16 c)
    if pending ≠ 0 then quotedFrom quote pending code text gap (m.next c) rest
    else if code.isValidChar then quotedFrom quote 0 0 (Char.ofNat code :: text) gap (m.next c) rest
    else none
  | 0, _, text, gap, m, c :: rest =>
    if isSpace c then
      quotedFrom quote 0 0 text (gap.add c) (m.after c) rest
    else if isDocumentMark m (c :: rest) then none
    else
      let text := gap.text.reverse ++ text
      if c = quote then
        match rest with
        | '\'' :: more =>
          if quote = '\'' then quotedFrom quote 0 0 ('\'' :: text) .empty ((m.next c).next c) more
          else some (String.ofList text.reverse, ⟨rest, m.next c⟩)
        | _ => some (String.ofList text.reverse, ⟨rest, m.next c⟩)
      else if quote = '"' ∧ c = '\\' then
        match rest with
        | [] => none
        | d :: more =>
          if isBreak d then quotedFrom quote 0 0 text (.lines none []) m.newLine more
          else match escapeDigits? d with
            | some digits => quotedFrom quote digits 0 text .empty ((m.next c).next d) more
            | none => match escapes.lookup d with
              | some e => quotedFrom quote 0 0 (e :: text) .empty ((m.next c).next d) more
              | none => none
      else quotedFrom quote 0 0 (c :: text) .empty (m.next c) rest

/-! ### Block scalars -/

/-- What becomes of the ends of lines at the end of a block scalar. -/
inductive Chomping
  | strip
  | clip
  | keep
  deriving DecidableEq, Repr

/-- The sign for the end of a block scalar. -/
def chomping? : List Char → Option Chomping × List Char
  | '+' :: rest => (some .keep, rest)
  | '-' :: rest => (some .strip, rest)
  | cs => (none, cs)

/-- The number for the indentation of a block scalar, or zero; it must not be written as zero. -/
def indentation? : List Char → Option (Nat × List Char)
  | [] => some (0, [])
  | c :: rest =>
    if c = '0' then none
    else if c.isDigit then some (c.toNat - 48, rest)
    else some (0, c :: rest)

/-- The sign and the number in the head of a block scalar, in any order, and what follows them. -/
def blockHead? (cs : List Char) : Option (Chomping × Nat × List Char) := do
  let (before, cs) := chomping? cs
  let (indentation, cs) ← indentation? cs
  let (behind, cs) := if before.isNone && indentation != 0 then chomping? cs else (none, cs)
  return ((before.or behind).getD .clip, indentation, cs)

/-- The lines of a block scalar as far as they are read, last character first: without the end of
the last one, and without the empty lines after it. -/
structure BlockLines where
  text : List Char := []
  last : Option Char := none
  empties : List Char := []
  blankLed : Bool := false

namespace BlockLines

/-- Starts a line. In a folded scalar the end of a line becomes a blank, unless empty lines follow
or one of the lines starts with a blank. -/
def start (folded : Bool) (c : Char) (b : BlockLines) : BlockLines :=
  let lead :=
    if folded && b.last == some '\n' && !b.blankLed && !isBlank c then
      if b.empties.isEmpty then [' '] else []
    else b.last.toList
  { text := c :: ((lead ++ b.empties).reverse ++ b.text), blankLed := isBlank c }

/-- The text of a scalar that ends here. -/
def finish (chomping : Chomping) (b : BlockLines) : String :=
  let tail := match chomping with
    | .strip => []
    | .clip => b.last.toList
    | .keep => b.last.toList ++ b.empties
  String.ofList (b.text.reverse ++ tail)

/-- Reads the lines of a block scalar. As long as the indentation is not known, the first line that
is not empty has to be the one that is indented most, and by `least` at least. -/
def read (folded : Bool) (least : Nat) : (indentation : Option Nat) → (widest : Nat) →
    (inLine : Bool) → BlockLines → Mark → List Char → Option (BlockLines × Cursor)
  | _, _, _, b, m, [] => some (b, ⟨[], m⟩)
  | indentation, widest, true, b, m, c :: rest =>
    if isBreak c then
      read folded least indentation widest false { b with last := some c } m.newLine rest
    else read folded least indentation widest true { b with text := c :: b.text } (m.next c) rest
  | indentation, widest, false, b, m, c :: rest =>
    let before := indentation.all (m.column < ·)
    if before && c == ' ' then read folded least indentation widest false b (m.next c) rest
    else if before && c == '\t' then none
    else
      let widest := max widest m.column
      if isBreak c then
        read folded least indentation widest false { b with empties := b.empties ++ [c] }
          m.newLine rest
      else
        let indentation := indentation.getD (max widest least)
        if m.column = indentation then
          read folded least (some indentation) widest true (b.start folded c) (m.next c) rest
        else some (b, ⟨c :: rest, m⟩)

end BlockLines

/-- A block scalar whose head starts after its indicator; `parent` is the column of the block around
it. -/
def blockScalar? (folded : Bool) (parent : Option Nat) (c : Cursor) :
    Option (String × Cursor) := do
  let (chomping, indentation, more) ← blockHead? c.rest
  let c ← (c.advance (c.rest.length - more.length)).lineEnd?
  let given := if indentation = 0 then none else some (parent.getD 0 + indentation)
  let least := (parent.map (· + 1)).getD 1
  let (b, after) ← BlockLines.read folded least given 0 false {} c.mark c.rest
  return (b.finish chomping, after)

end MotionRack.Yaml
