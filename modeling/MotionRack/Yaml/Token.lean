import MotionRack.Yaml.Label
import MotionRack.Yaml.Scalar

/-!
# YAML tokens

The tokens of YAML. Blocks, which the text shows by indentation alone, have tokens at both ends, and
every key has one before it, also where the text shows only the colon after it.
-/
namespace MotionRack.Yaml

/-- A token. -/
inductive Token
  | directive (d : Directive)
  | documentStart
  | documentEnd
  | sequenceBlock
  | mappingBlock
  | blockEnd
  | sequenceOpen
  | sequenceClose
  | mappingOpen
  | mappingClose
  | item
  | comma
  | key
  | value
  | reference (name : String)
  | anchor (name : String)
  | tag (name : TagName)
  | scalar (style : Style) (text : String)
  deriving DecidableEq, Repr

/-- A place that turns out to be a key when a colon follows: the number of tokens before it, and
whether a colon has to follow. -/
structure KeyPlace where
  position : Nat
  mark : Mark
  required : Bool
  deriving DecidableEq, Repr

/-- The tokens of a text as far as they are read. `blocks` are the columns of the open blocks,
innermost first; `place` may be a key of the innermost collection, and `outer` has the places of the
collections around it that are in flow form. -/
structure Layout where
  cursor : Cursor
  tokens : Array Token := #[]
  blocks : List Nat := []
  place : Option KeyPlace := none
  outer : List (Option KeyPlace) := []
  keyAllowed : Bool := true

namespace Layout

/-- Whether a flow collection is open; indentation plays no part in it. -/
def inFlow (s : Layout) : Bool := !s.outer.isEmpty

/-- Where the reading stands. -/
def mark (s : Layout) : Mark := s.cursor.mark

/-- Adds a token. -/
def push (t : Token) (s : Layout) : Layout := { s with tokens := s.tokens.push t }

/-- Adds a token that is written with one character. -/
def pushSign (t : Token) (s : Layout) : Layout :=
  { s with tokens := s.tokens.push t, cursor := s.cursor.advance 1 }

/-! ### Places of keys -/

/-- A key and its colon stand in one line, with at most 1024 octets before the colon. -/
def tooFar (m : Mark) (k : KeyPlace) : Bool :=
  k.mark.line < m.line || k.mark.octets + 1024 < m.octets

/-- Forgets the place of a key that is too far away, unless it has to be one. A place of an outer
collection is looked at again when that collection is the innermost one. -/
def forgetFar? (s : Layout) : Option Layout :=
  match s.place with
  | none => some s
  | some k =>
    if !tooFar s.mark k then some s
    else if k.required then none else some { s with place := none }

/-- Forgets the place of a key in the innermost collection. -/
def forgetPlace? (s : Layout) : Option Layout :=
  if s.place.any (·.required) then none else some { s with place := none }

/-- Notes that a key may start here. In a block it has to when the column is that of the block. -/
def notePlace? (s : Layout) : Option Layout :=
  if s.keyAllowed then do
    let s ← s.forgetPlace?
    let required := !s.inFlow && s.blocks.head? == some s.mark.column
    return { s with place := some ⟨s.tokens.size, s.mark, required⟩ }
  else some s

/-! ### Blocks -/

/-- Opens a block at a column, unless one is open there or further in. -/
def openBlock (column position : Nat) (t : Token) (s : Layout) : Layout :=
  if s.inFlow || s.blocks.head?.any (column ≤ ·) then s
  else { s with tokens := s.tokens.insertIdxIfInBounds position t, blocks := column :: s.blocks }

/-- Closes the innermost blocks for whose columns `p` holds. -/
def closeBlocks (p : Nat → Bool) (s : Layout) : Layout :=
  if s.inFlow then s
  else
    let closed := s.blocks.takeWhile p
    { s with
      tokens := s.tokens ++ Array.replicate closed.length .blockEnd
      blocks := s.blocks.drop closed.length }

/-- Ends all that is open in block form. -/
def closeAll? (s : Layout) : Option Layout := do
  let s ← (s.closeBlocks fun _ => true).forgetPlace?
  return { s with keyAllowed := false }

/-! ### Tokens -/

/-- The start of a flow collection, which may be a key. -/
def openFlow? (t : Token) (s : Layout) : Option Layout := do
  let s ← s.notePlace?
  return { s with place := none, outer := s.place :: s.outer, keyAllowed := true }.pushSign t

/-- The end of a flow collection. -/
def closeFlow? (t : Token) (s : Layout) : Option Layout := do
  let s ← s.forgetPlace?
  let s := match s.outer with
    | place :: outer => { s with place := place, outer := outer }
    | [] => s
  return { s with keyAllowed := false }.pushSign t

/-- A comma between the parts of a flow collection. -/
def comma? (s : Layout) : Option Layout := do
  let s ← s.forgetPlace?
  return { s with keyAllowed := true }.pushSign .comma

/-- The sign of an item. In block form it opens a sequence where none is open. -/
def item? (s : Layout) : Option Layout :=
  if !s.inFlow && !s.keyAllowed then none
  else do
    let s ← (s.openBlock s.mark.column s.tokens.size .sequenceBlock).forgetPlace?
    return { s with keyAllowed := true }.pushSign .item

/-- The sign of a key. In block form it opens a mapping where none is open. -/
def key? (s : Layout) : Option Layout :=
  if !s.inFlow && !s.keyAllowed then none
  else do
    let s ← (s.openBlock s.mark.column s.tokens.size .mappingBlock).forgetPlace?
    return { s with keyAllowed := !s.inFlow }.pushSign .key

/-- The sign of a value. It makes a key of the place noted last; without one, the key was told by a
sign of its own or is missing. -/
def value? (s : Layout) : Option Layout :=
  match s.place with
  | some k =>
    let s := { s with tokens := s.tokens.insertIdxIfInBounds k.position .key }
    let s := s.openBlock k.mark.column k.position .mappingBlock
    some ({ s with place := none, keyAllowed := false }.pushSign .value)
  | none =>
    if !s.inFlow && !s.keyAllowed then none
    else
      let s := s.openBlock s.mark.column s.tokens.size .mappingBlock
      some ({ s with keyAllowed := !s.inFlow }.pushSign .value)

/-- Adds a token that was read at a place where a key may start. -/
def label? (s : Layout) (t : Token) (after : Cursor) : Option Layout := do
  let s ← s.notePlace?
  return { s with keyAllowed := false, cursor := after }.push t

/-- A plain scalar. A line that ends behind it may be followed by a key. -/
def plain? (s : Layout) : Option Layout := do
  let least := (s.blocks.head?.map (· + 1)).getD 0
  let scalar ← plainFrom s.inFlow least [] .empty s.mark s.cursor.rest
  let s ← s.label? (.scalar .plain scalar.text) scalar.after
  return { s with keyAllowed := scalar.endsLine }

/-- A quoted scalar. -/
def quoted? (style : Style) (quote : Char) (s : Layout) : Option Layout := do
  let c := s.cursor.advance 1
  let (text, after) ← quotedFrom quote 0 0 [] .empty c.mark c.rest
  s.label? (.scalar style text) after

/-- A block scalar. -/
def block? (style : Style) (s : Layout) : Option Layout := do
  let s ← s.forgetPlace?
  let (text, after) ← blockScalar? (style == .folded) s.blocks.head? (s.cursor.advance 1)
  return { s with keyAllowed := true, cursor := after }.push (.scalar style text)

/-- A directive. -/
def directive? (s : Layout) : Option Layout := do
  let s ← s.closeAll?
  let (d, after) ← Yaml.directive? s.cursor
  return { s with cursor := after }.push (.directive d)

/-- The start or the end of a document. -/
def documentMark? (t : Token) (s : Layout) : Option Layout := do
  let s ← s.closeAll?
  return { s with cursor := s.cursor.advance 3 }.push t

/-- Whether a plain scalar starts with a character, given what follows it. -/
def startsPlain (flow : Bool) (c : Char) (rest : List Char) : Bool :=
  !(isSpace c || isFlowMark c || "-?:#&*!|>'\"%@\x60".contains c)
    || (c == '-' && !rest.head?.any isBlank)
    || (!flow && (c == '?' || c == ':') && !endsHere rest)

/-- Reads the token that starts with a character. -/
def token? (s : Layout) (c : Char) (rest : List Char) : Option Layout :=
  if s.mark.column = 0 ∧ c = '%' then s.directive?
  else if isDocumentMark s.mark (c :: rest) then
    s.documentMark? (if c = '-' then .documentStart else .documentEnd)
  else if c = '[' then s.openFlow? .sequenceOpen
  else if c = '\x7b' then s.openFlow? .mappingOpen
  else if c = ']' then s.closeFlow? .sequenceClose
  else if c = '\x7d' then s.closeFlow? .mappingClose
  else if c = ',' then s.comma?
  else if c == '-' && endsHere rest then s.item?
  else if c == '?' && (s.inFlow || endsHere rest) then s.key?
  else if c == ':' && (s.inFlow || endsHere rest) then s.value?
  else if c = '*' then do
    let (name, after) ← name? s.cursor
    s.label? (.reference name) after
  else if c = '&' then do
    let (name, after) ← name? s.cursor
    s.label? (.anchor name) after
  else if c = '!' then do
    let (name, after) ← tag? s.inFlow s.cursor
    s.label? (.tag name) after
  else if c == '|' && !s.inFlow then s.block? .literal
  else if c == '>' && !s.inFlow then s.block? .folded
  else if c = '\'' then s.quoted? .singleQuoted '\''
  else if c = '"' then s.quoted? .doubleQuoted '"'
  else if startsPlain s.inFlow c rest then s.plain?
  else none

/-- Goes to the next part of the text. In block form a key may start in every line. -/
def nextPart (s : Layout) : Layout :=
  let (c, ended) := Cursor.nextPartFrom s.inFlow (s.inFlow || !s.keyAllowed) false false
    s.mark s.cursor.rest
  { s with cursor := c, keyAllowed := s.keyAllowed || (ended && !s.inFlow) }

/-- Reads the tokens that are left. Every token takes a character at least, so as many steps as
there are characters, and one more, are enough. -/
def run? : (steps : Nat) → Layout → Option (List Token)
  | 0, _ => none
  | steps + 1, s => do
    let s ← s.nextPart.forgetFar?
    let s := s.closeBlocks (s.mark.column < ·)
    match s.cursor.rest with
    | [] => return (← s.closeAll?).tokens.toList
    | c :: rest => run? steps (← s.token? c rest)

end Layout

/-- The tokens of a text. -/
def Token.ofText? (text : String) : Option (List Token) :=
  let cs := text.toList
  if cs.all isAllowed then
    Layout.run? (cs.length + 1) { cursor := { rest := unifyBreaks cs } }
  else none

end MotionRack.Yaml
