import MotionRack.Yaml.Token

/-!
# YAML nodes

The nodes of a YAML document and how tokens build them. A node that is left out is an empty plain
scalar.
-/
namespace MotionRack.Yaml

/-- What is said of a node besides its content. -/
structure Properties where
  anchor : Option String := none
  tag : Option String := none
  deriving DecidableEq, Repr

/-- The properties of a scalar that is written out: the tag of a lone exclamation mark says
nothing. -/
def Properties.ofScalar (p : Properties) : Properties :=
  if p.tag = some "!" then { p with tag := none } else p

/-- A node. A reference stands for the node that is told by its label. -/
inductive Node (Label : Type)
  | reference (target : Label)
  | scalar (properties : Properties) (style : Style) (text : String)
  | sequence (properties : Properties) (items : List (Node Label))
  | mapping (properties : Properties) (entries : List (Node Label × Node Label))
  deriving Inhabited

namespace Node

/-- A node that is left out. -/
def missing {Label : Type} : Node Label := scalar {} .plain ""

/-! ### Properties -/

/-- What the handles of tags stand for, when no directive says something else. -/
def defaultHandles : List (String × String) := [("!", "!"), ("!!", "tag:yaml.org,2002:")]

/-- The tag that a written tag stands for. -/
def resolveTag? (handles : List (String × String)) (t : TagName) : Option String :=
  if t.handle.isEmpty then some t.suffix
  else ((handles ++ defaultHandles).lookup t.handle).map (· ++ t.suffix)

/-- The properties before a node, an anchor and a tag in any order, and the tokens after them. -/
def properties? (handles : List (String × String)) (ts : List Token) :
    Option (Properties × List Token) :=
  match ts with
  | .anchor a :: .tag t :: rest
  | .tag t :: .anchor a :: rest =>
    (resolveTag? handles t).map fun tag => (⟨some a, some tag⟩, rest)
  | .anchor a :: rest => some (⟨some a, none⟩, rest)
  | .tag t :: rest => (resolveTag? handles t).map fun tag => (⟨none, some tag⟩, rest)
  | ts => some ({}, ts)

/-- The node that properties make without content, if there are any. -/
def bare? (p : Properties) (ts : List Token) : Option (Node String × List Token) :=
  if p.anchor.isSome || p.tag.isSome then some (scalar p .plain "", ts) else none

/-! ### Places where a node may be left out -/

/-- Whether the tokens after the sign of an item leave the item out; `mixed` holds in a sequence
that is not indented, where a key may follow. -/
def endsItem (mixed : Bool) : List Token → Bool
  | .item :: _ | .blockEnd :: _ => true
  | .key :: _ | .value :: _ => mixed
  | _ => false

/-- Whether the tokens after the sign of a key or of a value leave it out in block form. -/
def endsEntry : List Token → Bool
  | .key :: _ | .value :: _ | .blockEnd :: _ => true
  | _ => false

/-- Whether the tokens after the sign of a value leave it out in flow form. -/
def endsFlow : List Token → Bool
  | .comma :: _ | .sequenceClose :: _ | .mappingClose :: _ => true
  | _ => false

/-! ### Nodes -/

mutual
/-- The node that tokens start with, and the tokens after it. `block` tells whether it may be in
block form, and `mixed` whether it may be a sequence that is not indented. -/
def ofTokensFrom? (handles : List (String × String)) : (fuel : Nat) → (block mixed : Bool) →
    List Token → Option (Node String × List Token)
  | 0, _, _, _ => none
  | fuel + 1, block, mixed, ts =>
    match ts with
    | .reference name :: rest => some (reference name, rest)
    | ts => do
      let (p, rest) ← properties? handles ts
      match rest with
      | .scalar style text :: rest => some (scalar p.ofScalar style text, rest)
      | .sequenceOpen :: rest => flowItems? handles fuel p true [] rest
      | .mappingOpen :: rest => flowEntries? handles fuel p true [] rest
      | .item :: _ => if mixed then mixedItems? handles fuel p [] rest else bare? p rest
      | .sequenceBlock :: more => if block then items? handles fuel p [] more else bare? p rest
      | .mappingBlock :: more => if block then entries? handles fuel p [] more else bare? p rest
      | _ => bare? p rest

/-- The items of a sequence in block form. -/
def items? (handles : List (String × String)) : (fuel : Nat) → Properties → List (Node String) →
    List Token → Option (Node String × List Token)
  | 0, _, _, _ => none
  | fuel + 1, p, done, ts =>
    match ts with
    | .item :: rest =>
      if endsItem false rest then items? handles fuel p (missing :: done) rest
      else do
        let (item, rest) ← ofTokensFrom? handles fuel true false rest
        items? handles fuel p (item :: done) rest
    | .blockEnd :: rest => some (sequence p done.reverse, rest)
    | _ => none

/-- The items of a sequence that is not indented; it ends before whatever is no item. -/
def mixedItems? (handles : List (String × String)) : (fuel : Nat) → Properties →
    List (Node String) → List Token → Option (Node String × List Token)
  | 0, _, _, _ => none
  | fuel + 1, p, done, ts =>
    match ts with
    | .item :: rest =>
      if endsItem true rest then mixedItems? handles fuel p (missing :: done) rest
      else do
        let (item, rest) ← ofTokensFrom? handles fuel true false rest
        mixedItems? handles fuel p (item :: done) rest
    | ts => some (sequence p done.reverse, ts)

/-- The entries of a mapping in block form. -/
def entries? (handles : List (String × String)) : (fuel : Nat) → Properties →
    List (Node String × Node String) → List Token → Option (Node String × List Token)
  | 0, _, _, _ => none
  | fuel + 1, p, done, ts =>
    match ts with
    | .key :: rest => do
      let (key, rest) ←
        if endsEntry rest then some (missing, rest)
        else ofTokensFrom? handles fuel true true rest
      let (value, rest) ← match rest with
        | .value :: rest =>
          if endsEntry rest then some (missing, rest)
          else ofTokensFrom? handles fuel true true rest
        | rest => some (missing, rest)
      entries? handles fuel p ((key, value) :: done) rest
    | .blockEnd :: rest => some (mapping p done.reverse, rest)
    | _ => none

/-- The value behind a key in flow form. -/
def flowValue? (handles : List (String × String)) : (fuel : Nat) → List Token →
    Option (Node String × List Token)
  | 0, _ => none
  | fuel + 1, ts =>
    match ts with
    | .value :: rest =>
      if endsFlow rest then some (missing, rest) else ofTokensFrom? handles fuel false false rest
    | ts => some (missing, ts)

/-- The items of a sequence in flow form, the first of which needs no comma before it. A key makes
an item a mapping of one entry; a key that is left out takes the token after its sign along. -/
def flowItems? (handles : List (String × String)) : (fuel : Nat) → Properties → (first : Bool) →
    List (Node String) → List Token → Option (Node String × List Token)
  | 0, _, _, _, _ => none
  | fuel + 1, p, first, done, ts => do
    let closed := ts.head? == some .sequenceClose
    let ts ← if first || closed then some ts
      else if ts.head? = some .comma then some (ts.drop 1) else none
    match ts with
    | .sequenceClose :: rest => some (sequence p done.reverse, rest)
    | .key :: rest => do
      let (key, rest) ← match rest with
        | .value :: more | .comma :: more | .sequenceClose :: more => some (missing, more)
        | rest => ofTokensFrom? handles fuel false false rest
      let (value, rest) ← flowValue? handles fuel rest
      flowItems? handles fuel p false (mapping {} [(key, value)] :: done) rest
    | ts => do
      let (item, rest) ← ofTokensFrom? handles fuel false false ts
      flowItems? handles fuel p false (item :: done) rest

/-- The entries of a mapping in flow form, the first of which needs no comma before it. A key
without a sign has no value. -/
def flowEntries? (handles : List (String × String)) : (fuel : Nat) → Properties →
    (first : Bool) → List (Node String × Node String) → List Token →
    Option (Node String × List Token)
  | 0, _, _, _, _ => none
  | fuel + 1, p, first, done, ts => do
    let closed := ts.head? == some .mappingClose
    let ts ← if first || closed then some ts
      else if ts.head? = some .comma then some (ts.drop 1) else none
    match ts with
    | .mappingClose :: rest => some (mapping p done.reverse, rest)
    | .key :: rest => do
      let (key, rest) ← match rest with
        | .value :: _ | .comma :: _ | .mappingClose :: _ => some (missing, rest)
        | rest => ofTokensFrom? handles fuel false false rest
      let (value, rest) ← flowValue? handles fuel rest
      flowEntries? handles fuel p false ((key, value) :: done) rest
    | ts => do
      let (key, rest) ← ofTokensFrom? handles fuel false false ts
      flowEntries? handles fuel p false ((key, missing) :: done) rest
end

/-- The node that tokens start with, and the tokens after it. Every token is looked at in at most
two steps. -/
def ofTokens? (handles : List (String × String)) (ts : List Token) :
    Option (Node String × List Token) :=
  ofTokensFrom? handles (2 * ts.length + 2) true false ts

end Node
end MotionRack.Yaml
