import MotionRack.Config.Fault
import MotionRack.Document.Element
import MotionRack.Files.Path

/-!
# References to files

References in attribute values. `$PATH:` and a path stand for that path as seen from the directory
of the document, `$$` stands for a single dollar sign; any other value that starts with a dollar
sign is an error.
-/
namespace MotionRack.Reference

/-- The word in front of a path. -/
def pathToken : List Char := "$PATH:".toList

/-- The value that an attribute has after its reference is replaced, if it can be. -/
def resolve? (base value : String) : Option String :=
  match value.toList with
  | '$' :: rest =>
    match pathToken.isPrefixOf? ('$' :: rest) with
    | some (c :: path) => some (Path.join base (String.ofList (c :: path)))
    | _ => match rest with
      | '$' :: _ => some (String.ofList rest)
      | _ => none
  | _ => some value

/-- Replaces the references of attributes; the first that cannot be is the error. -/
def resolveAttributes (base place : String) :
    List (String × String) → Except ConfigError (List (String × String))
  | [] => .ok []
  | (key, value) :: rest =>
    match resolve? base value with
    | none => .error (.malformedValue place key value)
    | some value => do return (key, value) :: (← resolveAttributes base place rest)

mutual
/-- Replaces all references of an element and of all below it, in document order. -/
def resolveAll (base : String) : Element → Except ConfigError Element
  | ⟨name, attributes, children, path, source⟩ => do
    let place := Element.location ⟨name, attributes, children, path, source⟩
    let attributes ← resolveAttributes base place attributes
    let children ← resolveList base children
    return ⟨name, attributes, children, path, source⟩

/-- Replaces all references of a list of elements. -/
def resolveList (base : String) : List Element → Except ConfigError (List Element)
  | [] => .ok []
  | e :: es => do
    let e ← resolveAll base e
    return e :: (← resolveList base es)
end

end MotionRack.Reference
