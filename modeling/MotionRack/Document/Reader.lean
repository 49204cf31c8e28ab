import MotionRack.Config.Fault
import MotionRack.Document.Element
import MotionRack.Document.Markup

/-!
# Documents from their text

Documents from their text. The tags are put together to a tree with one root; every element then
learns its place.
-/
namespace MotionRack.Document

/-- An element whose closing tag is still to come, with the children so far, last one first. -/
structure Open where
  name : String
  attributes : Markup.Attributes
  children : List Element

/-- An element before it knows its place. -/
def unplaced (name : String) (attributes : Markup.Attributes) (children : List Element) : Element :=
  ⟨name, attributes, children, "/" ++ name, none⟩

/-- The element that a closing tag completes. -/
def Open.close (o : Open) : Element := unplaced o.name o.attributes o.children.reverse

/-- Puts tags together. `stack` holds the open elements, innermost first, and `root` the root once
it is complete. -/
def assemble : List Open → Option Element → List Markup.Event → Except MarkupFault Element
  | o :: _, _, [] => .error (.neverClosed o.name)
  | [], some root, [] => .ok root
  | [], none, [] => .error .noRoot
  | stack, root, .opening name attributes :: rest =>
    assemble (⟨name, attributes, []⟩ :: stack) root rest
  | o :: stack, root, .empty name attributes :: rest =>
    assemble ({ o with children := unplaced name attributes [] :: o.children } :: stack) root rest
  | [], none, .empty name attributes :: rest =>
    assemble [] (some (unplaced name attributes [])) rest
  | [], some _, .empty _ _ :: _ => .error .severalRoots
  | [], _, .closing _ :: _ => .error .broken
  | o :: stack, root, .closing name :: rest =>
    if o.name ≠ name then .error .broken
    else match stack, root with
      | parent :: stack, root =>
        assemble ({ parent with children := o.close :: parent.children } :: stack) root rest
      | [], none => assemble [] (some o.close) rest
      | [], some _ => .error .severalRoots
  | _, _, .broken :: _ => .error .broken

/-- What a document is called in messages when it was not read from a file. -/
def memoryName : String := "<memory>"

/-- Reads a document from its text; `source` is the file it comes from. -/
def parse (text : String) (source : Option String) : Except ConfigError Element :=
  match assemble [] none (Markup.events text.toList) with
  | .error fault => .error (.markup (source.getD memoryName) fault)
  | .ok root =>
    let placed := root.reindex ("/" ++ root.name)
    .ok (match source with
      | some file => placed.withSource file
      | none => placed)

end MotionRack.Document
