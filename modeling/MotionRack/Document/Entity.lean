import MotionRack.Number.Numeral

/-!
# References to characters

References in attribute values: five named characters, and characters by their code point in
decimal or hexadecimal digits.
-/
namespace MotionRack.Entity

/-- The characters that have names. -/
def named : List (String × Char) :=
  [("lt", '<'), ("gt", '>'), ("amp", '&'), ("quot", '"'), ("apos", '\'')]

/-- The character of a code point, if it is one and not zero. -/
def character? (code : Nat) : Option Char :=
  if code ≠ 0 ∧ code.isValidChar then some (Char.ofNat code) else none

/-- The character that the text between `&` and `;` stands for. -/
def resolve? : List Char → Option Char
  | '#' :: 'x' :: digits => (Numeral.digits? 16 digits).bind character?
  | '#' :: digits => (Numeral.digits? 10 digits).bind character?
  | name => named.lookup (String.ofList name)

/-- A text with its references replaced. `open?` holds the characters read since an `&`, last one
first. -/
def decodeFrom? : Option (List Char) → List Char → Option (List Char)
  | none, [] => some []
  | none, c :: rest =>
    if c = '&' then decodeFrom? (some []) rest else (decodeFrom? none rest).map (c :: ·)
  | some _, [] => none
  | some body, c :: rest =>
    if c = ';' then do
      let character ← resolve? body.reverse
      (decodeFrom? none rest).map (character :: ·)
    else if c = '&' then none
    else decodeFrom? (some (c :: body)) rest

/-- A text with its references replaced; a reference that is unknown or not ended has no text. -/
def decode? (cs : List Char) : Option (List Char) := decodeFrom? none cs

end MotionRack.Entity
