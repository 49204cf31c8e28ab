import MotionRack.Number.Numeral
import MotionRack.Yaml.Document

/-!
# Link profiles

Link profiles: settings of a link that a file keeps. Every setting may be left out, and settings of
other programs are passed over.
-/
namespace MotionRack

/-- The settings of a link. Times are in milliseconds. -/
structure LinkProfile where
  port : Option String := none
  baudRate : Nat := 115200
  responseTimeout : Nat := 2000
  pacing : Nat := 15
  settle : Nat := 400
  deriving DecidableEq, Repr

namespace LinkProfile

/-! ### Values -/

/-- The tag of numbers. -/
def numberTag : String := "tag:yaml.org,2002:int"

/-- The tag of nothing. -/
def nothingTag : String := "tag:yaml.org,2002:null"

/-- The words that mean nothing. -/
def isNothing (text : String) : Bool := ["~", "null", "Null", "NULL"].contains text

/-- Whether a text has a leading zero and is no number for it. -/
def hasLeadingZero (cs : List Char) : Bool :=
  match cs with
  | '0' :: _ :: _ => cs.all fun c => '0' ≤ c && c ≤ '9'
  | _ => false

/-- An unsigned number: decimal, or in one of the radixes that a prefix tells. -/
def number? (cs : List Char) : Option Nat :=
  let cs := match cs with
    | '+' :: rest => rest
    | cs => cs
  match cs with
  | '0' :: 'x' :: rest => Numeral.digits? 16 rest
  | '0' :: 'o' :: rest => Numeral.digits? 8 rest
  | '0' :: 'b' :: rest => Numeral.digits? 2 rest
  | cs => if hasLeadingZero cs then none else Numeral.digits? 10 cs

/-- The number of at most `bits` bits that a node stands for. It is written plainly, or literally
with the tag of numbers. -/
def natural? (bits : Nat) : Yaml.Node Nat → Option Nat
  | .scalar p style text =>
    if style = .plain ∨ (style = .literal ∧ p.tag = some numberTag) then
      (number? text.toList).filter (· < pow2 bits)
    else none
  | _ => none

/-- The text that a node stands for, or nothing. Only a plain scalar means nothing: with the tag for
it, which fits no other text, or without a tag, and then it may be empty too. -/
def text? : Yaml.Node Nat → Option (Option String)
  | .scalar p style text =>
    if style ≠ .plain then some (some text)
    else if p.tag = some nothingTag then if isNothing text then some none else none
    else if p.tag.isNone && (text.isEmpty || isNothing text) then some none
    else some (some text)
  | _ => none

/-! ### Settings -/

/-- The names of the settings. -/
def keys : List String := ["port", "baud_rate", "response_timeout_ms", "pacing_ms", "settle_ms"]

/-- Sets one setting; a setting of another name changes nothing. -/
def withSetting? (p : LinkProfile) (key : String) (value : Yaml.Node Nat) : Option LinkProfile :=
  if key = "port" then (text? value).map fun t => { p with port := t }
  else if key = "baud_rate" then (natural? 32 value).map fun n => { p with baudRate := n }
  else if key = "response_timeout_ms" then
    (natural? 64 value).map fun n => { p with responseTimeout := n }
  else if key = "pacing_ms" then (natural? 64 value).map fun n => { p with pacing := n }
  else if key = "settle_ms" then (natural? 64 value).map fun n => { p with settle := n }
  else some p

/-- Takes the entries of a mapping into account. A setting may stand only once; what a reference in
the value of another name stands for plays no part. -/
def withEntries? (d : Yaml.Document) (seen : List String) (p : LinkProfile) :
    List (Yaml.Node Nat × Yaml.Node Nat) → Option LinkProfile
  | [] => some p
  | (key, value) :: rest => do
    match ← d.target? key with
    | .scalar _ _ key =>
      if !keys.contains key then withEntries? d seen p rest
      else if seen.contains key then none
      else withEntries? d (key :: seen) (← p.withSetting? key (← d.target? value)) rest
    | _ => none

/-- The profile that a document stands for. One without content leaves all settings out. -/
def ofDocument? (d : Yaml.Document) : Option LinkProfile :=
  match d.root with
  | none => some {}
  | some root => do
    match ← d.target? root with
    | .mapping _ entries => withEntries? d [] {} entries
    | .scalar _ style text => if style = .plain ∧ text.isEmpty then some {} else none
    | _ => none

/-- The profile that a text stands for. -/
def parse? (text : String) : Option LinkProfile := (Yaml.Document.parse? text).bind ofDocument?

end LinkProfile
end MotionRack
