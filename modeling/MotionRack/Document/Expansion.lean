import MotionRack.Config.Attribute
import MotionRack.Document.Reader
import MotionRack.Document.Reference

/-!
# Documents of several files

Documents made of several files. An `Include` below the root stands for the document that it names,
an `Import` for one element of it. The named document is expanded itself, against its own
directory, before it takes the place of the directive; how deep documents may name each other is
bounded, so the expansion always ends.
-/
namespace MotionRack.Expansion

/-- What loading a document by its path gives. -/
abbrev Loader := String → Except ConfigError Element

/-- The attribute that tells which file an element was taken from. -/
def sourceKey : String := "_import_src"

/-- How deep documents may name each other when nothing else is said. -/
def defaultDepth : Nat := 32

/-- Elements that stand for others. -/
inductive Directive
  | include_
  | import_
  deriving DecidableEq, Repr

/-- The directive that an element of this name is. -/
def Directive.ofName? (name : String) : Option Directive :=
  if name = "Include" then some .include_
  else if name = "Import" then some .import_
  else none

/-- The part of an expanded document that a directive stands for, marked with its file. -/
def pick (directive : Directive) (e document : Element) (file : String) :
    Except ConfigError Element :=
  match directive with
  | .include_ => .ok (document.setAttr sourceKey file)
  | .import_ => do
    let query ← Attribute.text e "xpath"
    match document.select? query with
    | some node => .ok (node.setAttr sourceKey file)
    | none => .error (.missingField document.location s!"node matching {query}")

mutual
/-- An element with the directives below it replaced by what `splice` makes of them. -/
def expandBelow (splice : Directive → Element → Except ConfigError Element) :
    Element → Except ConfigError Element
  | ⟨name, attributes, children, path, source⟩ => do
    return ⟨name, attributes, ← expandList splice children, path, source⟩

/-- Children with the directives among and below them replaced. -/
def expandList (splice : Directive → Element → Except ConfigError Element) :
    List Element → Except ConfigError (List Element)
  | [] => .ok []
  | e :: es => do
    let e ← match Directive.ofName? e.name with
      | some directive => splice directive e
      | none => expandBelow splice e
    return e :: (← expandList splice es)
end

/-- Expands a document whose file lies in `base`. Documents may name each other `remaining` levels
deeper; `limit` is the bound that a message tells. -/
def expand (load : Loader) (limit : Nat) : Nat → Element → String → Except ConfigError Element
  | 0, root, base => do
    let root ← Reference.resolveAll base root
    let root ← expandBelow (fun _ e => do
      .error (.includeDepth limit (Path.join base (← Attribute.text e "href")))) root
    return root.reindex root.path
  | remaining + 1, root, base => do
    let root ← Reference.resolveAll base root
    let root ← expandBelow (fun directive e => do
      let file := Path.join base (← Attribute.text e "href")
      let document ← expand load limit remaining (← load file) (Path.directory file)
      pick directive e document file) root
    return root.reindex root.path

/-- Expands a document with the whole depth before it. -/
def preprocess (load : Loader) (limit : Nat) (root : Element) (base : String) :
    Except ConfigError Element :=
  expand load limit limit root base

/-- Loads a document and expands it against its own directory. -/
def openWith (load : Loader) (limit : Nat) (path : String) : Except ConfigError Element := do
  preprocess load limit (← load path) (Path.directory path)

/-- Loads documents from files. -/
def fileLoader (read : FileReader) : Loader := fun path =>
  match read.text path with
  | .ok text => Document.parse text (some path)
  | .error fault => .error (.io path fault)

/-- Loads and expands the document in a file. -/
def openFile (read : FileReader) (path : String) : Except ConfigError Element :=
  openWith (fileLoader read) defaultDepth path

end MotionRack.Expansion
