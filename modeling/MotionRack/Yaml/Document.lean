import MotionRack.Yaml.Node

/-!
# YAML documents

A text with a single YAML document, and what its references stand for. An anchor is numbered by the
names that are in use before it, so an anchor that takes a name again may share its number with a
later one; a reference stands for the last node with its number.
-/
namespace MotionRack.Yaml

/-- A document: its root, if the text has one, and the nodes with an anchor, each with its number,
the latest first. -/
structure Document where
  root : Option (Node Nat)
  anchored : List (Nat × Node Nat)

namespace Document

/-! ### References -/

/-- The numbers of the anchors in use, by name. -/
abbrev Anchors := List (String × Nat)

/-- Gives the anchor of a node its number. -/
def number (names : Anchors) (p : Properties) : Anchors :=
  match p.anchor with
  | none => names
  | some name => (name, names.length) :: names.filter (·.1 != name)

/-- The node with its number, if it has an anchor. -/
def record (names : Anchors) (p : Properties) (node : Node Nat) : List (Nat × Node Nat) :=
  if p.anchor.isSome then [(names.length, node)] else []

mutual
/-- Puts numbers for the names in references, in the order of the text: the anchors in use after the
node, the node, and the nodes with an anchor in it, the first one first. A name that is not in use
is a fault. -/
def resolve? (names : Anchors) : Node String → Option (Anchors × Node Nat × List (Nat × Node Nat))
  | .reference name => (names.lookup name).map fun n => (names, .reference n, [])
  | .scalar p style text =>
    let node : Node Nat := .scalar p style text
    some (number names p, node, record names p node)
  | .sequence p items => do
    let (after, items, inner) ← resolveItems? (number names p) items
    let node : Node Nat := .sequence p items
    return (after, node, record names p node ++ inner)
  | .mapping p entries => do
    let (after, entries, inner) ← resolveEntries? (number names p) entries
    let node : Node Nat := .mapping p entries
    return (after, node, record names p node ++ inner)

/-- Puts numbers for names in the items of a sequence. -/
def resolveItems? (names : Anchors) :
    List (Node String) → Option (Anchors × List (Node Nat) × List (Nat × Node Nat))
  | [] => some (names, [], [])
  | item :: rest => do
    let (names, item, inner) ← resolve? names item
    let (names, rest, later) ← resolveItems? names rest
    return (names, item :: rest, inner ++ later)

/-- Puts numbers for names in the entries of a mapping. -/
def resolveEntries? (names : Anchors) :
    List (Node String × Node String) →
      Option (Anchors × List (Node Nat × Node Nat) × List (Nat × Node Nat))
  | [] => some (names, [], [])
  | (key, value) :: rest => do
    let (names, key, inKey) ← resolve? names key
    let (names, value, inValue) ← resolve? names value
    let (names, rest, later) ← resolveEntries? names rest
    return (names, (key, value) :: rest, inKey ++ inValue ++ later)
end

/-- The node that a node stands for. -/
def target? (d : Document) : Node Nat → Option (Node Nat)
  | .reference n => d.anchored.lookup n
  | node => some node

/-! ### Texts -/

/-- The directives before a document, and the tokens after them. -/
def directives : List Token → List Directive × List Token
  | .directive d :: rest =>
    let (ds, rest) := directives rest
    (d :: ds, rest)
  | ts => ([], ts)

/-- The handles that directives explain. A handle is explained once, and a version given once, which
has to be 1.1 or 1.2. -/
def handles? : (versioned : Bool) → List (String × String) → List Directive →
    Option (List (String × String))
  | _, handles, [] => some handles
  | versioned, handles, .version major minor :: rest =>
    if versioned ∨ major ≠ 1 ∨ (minor ≠ 1 ∧ minor ≠ 2) then none else handles? true handles rest
  | versioned, handles, .handle name lead :: rest =>
    if (handles.lookup name).isSome then none
    else handles? versioned (handles ++ [(name, lead)]) rest

/-- The root of a document that starts with a mark, and the tokens after it. -/
def explicitRoot? (handles : List (String × String)) :
    List Token → Option (Node String × List Token)
  | [] => some (.missing, [])
  | .directive d :: rest => some (.missing, .directive d :: rest)
  | .documentStart :: rest => some (.missing, .documentStart :: rest)
  | .documentEnd :: rest => some (.missing, .documentEnd :: rest)
  | ts => Node.ofTokens? handles ts

/-- The root of the only document that tokens make, if there is one. Directives need a document that
starts with a mark. -/
def rootOf? (ts : List Token) : Option (Option (Node String)) :=
  match directives ts with
  | ([], []) => some none
  | (ds, rest) => do
    let handles ← handles? false [] ds
    let (root, rest) ← match rest with
      | .documentStart :: rest => explicitRoot? handles rest
      | rest => if ds.isEmpty then Node.ofTokens? handles rest else none
    if rest.all (· == .documentEnd) then some (some root) else none

/-- Reads the only document of a text. -/
def parse? (text : String) : Option Document := do
  match ← rootOf? (← Token.ofText? text) with
  | none => return ⟨none, []⟩
  | some root =>
    let (_, root, anchored) ← resolve? [] root
    return ⟨some root, anchored.reverse⟩

end Document
end MotionRack.Yaml
