import MotionRack.Text.Split

/-!
# Elements

Elements of a description: a name, attributes with distinct keys in the order of the document, and
child elements. Each element also knows its place, the path from the root of its document and the
file it was read from; the place takes no part in what an element says.
-/
namespace MotionRack

/-- One element of a document. -/
structure Element where
  name : String
  attributes : List (String × String)
  children : List Element
  path : String
  source : Option String
  deriving Inhabited, Repr

namespace Element

/-- An element without attributes and children, as the root of a document. -/
def named (name : String) : Element := ⟨name, [], [], "/" ++ name, none⟩

/-- The value of an attribute. -/
def attr? (e : Element) (key : String) : Option String := e.attributes.lookup key

/-- Whether an attribute is there. -/
def hasAttr (e : Element) (key : String) : Bool := (e.attr? key).isSome

/-- Attributes with one of them set: in its place if it was there, else behind the others. -/
def put (key value : String) : List (String × String) → List (String × String)
  | [] => [(key, value)]
  | (k, v) :: rest => if k = key then (k, value) :: rest else (k, v) :: put key value rest

/-- Sets an attribute. -/
def setAttr (e : Element) (key value : String) : Element :=
  { e with attributes := put key value e.attributes }

/-- The first child of a name. -/
def child? (e : Element) (name : String) : Option Element :=
  e.children.find? (·.name == name)

/-- The children of a name, in order. -/
def childrenNamed (e : Element) (name : String) : List Element :=
  e.children.filter (·.name == name)

/-! ### Equality of content -/

mutual
/-- Whether two elements say the same, wherever they stand. -/
def agrees : Element → Element → Bool
  | ⟨name, attributes, children, _, _⟩, ⟨name', attributes', children', _, _⟩ =>
    name == name' && attributes == attributes' && agreesAll children children'

/-- Whether two lists of elements say the same, one by one. -/
def agreesAll : List Element → List Element → Bool
  | [], [] => true
  | e :: es, d :: ds => agrees e d && agreesAll es ds
  | _, _ => false
end

/-! ### Places -/

/-- Where an element stands, for messages. -/
def location (e : Element) : String :=
  match e.source with
  | some file => file ++ ":" ++ e.path
  | none => e.path

/-- The path of a child. Among several siblings of one name it carries its rank, from one; `seen`
are the names of the siblings before it. -/
def childPath (path : String) (siblings seen : List String) (name : String) : String :=
  if 1 < siblings.count name then s!"{path}/{name}[{seen.count name + 1}]" else s!"{path}/{name}"

mutual
/-- The element and all below it, with the paths they have when the element stands at `path`. -/
def reindex (path : String) : Element → Element
  | ⟨name, attributes, children, _, source⟩ =>
    ⟨name, attributes, reindexAll path (children.map (·.name)) [] children, path, source⟩

/-- The children of an element at `path`, with their paths. -/
def reindexAll (path : String) (siblings seen : List String) : List Element → List Element
  | [] => []
  | e :: es =>
    reindex (childPath path siblings seen e.name) e
      :: reindexAll path siblings (e.name :: seen) es
end

mutual
/-- Notes the file that the element and all below it were read from. -/
def withSource (file : String) : Element → Element
  | ⟨name, attributes, children, path, _⟩ =>
    ⟨name, attributes, withSourceAll file children, path, some file⟩

/-- Notes the file for a list of elements. -/
def withSourceAll (file : String) : List Element → List Element
  | [] => []
  | e :: es => withSource file e :: withSourceAll file es
end

/-- Appends a child and gives every element below the place it now has. -/
def withChild (e child : Element) : Element :=
  reindex e.path { e with children := e.children ++ [child] }

/-! ### Selection -/

/-- A query for an element. -/
inductive Query
  /-- The first element of a name anywhere below, or the starting element itself. -/
  | anywhere (name : String)
  /-- A chain of names that starts with the starting element's own. -/
  | absolute (names : List String)
  /-- A chain of names of children. -/
  | relative (names : List String)

/-- The names between the slashes. -/
def Query.names (cs : List Char) : List String :=
  ((Split.cut '/' cs).filter (!·.isEmpty)).map String.ofList

/-- Reads a query: `//Name`, `/Root/A/B` or `A/B`. -/
def Query.parse (text : String) : Query :=
  match text.toList with
  | '/' :: '/' :: name => anywhere (String.ofList name)
  | '/' :: rest => absolute (names rest)
  | cs => relative (names cs)

mutual
/-- The first element of a name in document order, the element itself included. -/
def find? (name : String) : Element → Option Element
  | ⟨n, attributes, children, path, source⟩ =>
    if n = name then some ⟨n, attributes, children, path, source⟩ else findIn? name children

/-- The first element of a name in or below a list of elements. -/
def findIn? (name : String) : List Element → Option Element
  | [] => none
  | e :: es => (find? name e).or (findIn? name es)
end

/-- Walks down a chain of names, always to the first child of the name. -/
def walk? (e : Element) : List String → Option Element
  | [] => some e
  | name :: rest => (e.child? name).bind fun c => walk? c rest

/-- The element that a query selects. -/
def run? (e : Element) : Query → Option Element
  | .anywhere name => find? name e
  | .absolute [] => none
  | .absolute (name :: rest) => if name = e.name then e.walk? rest else none
  | .relative names => e.walk? names

/-- The element that a query text selects. -/
def select? (e : Element) (query : String) : Option Element := e.run? (.parse query)

end Element
end MotionRack
