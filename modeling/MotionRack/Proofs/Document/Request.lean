import MotionRack.Proofs.Document.Reference
import MotionRack.Proofs.Document.Residue

/-!
# The files that an expansion asks for

An expansion that also keeps the paths with which it went to the loader, in order. Without
them it is the expansion itself, whether that succeeds or not, so the paths are those of
the actual run.
-/
namespace MotionRack

/-- The result of a computation together with the paths of the documents it asked for. -/
structure Asking (α : Type) where
  result : Except ConfigError α
  files : List String

namespace Asking

variable {α β : Type}

/-- A computation that asks for nothing. -/
def ofExcept (x : Except ConfigError α) : Asking α := ⟨x, []⟩

/-- Goes on with a result. After an error nothing more is asked for. -/
def andThen (x : Asking α) (f : α → Asking β) : Asking β :=
  match x.result with
  | .ok a => ⟨(f a).result, x.files ++ (f a).files⟩
  | .error e => ⟨.error e, x.files⟩

instance : Monad Asking where
  pure a := ofExcept (.ok a)
  bind := andThen

/-- Asks for the document at a path. -/
def document (load : Expansion.Loader) (file : String) : Asking Element := ⟨load file, [file]⟩

@[simp] theorem result_ofExcept (x : Except ConfigError α) : (ofExcept x).result = x := rfl

@[simp] theorem result_document (load : Expansion.Loader) (file : String) :
    (document load file).result = load file := rfl

@[simp] theorem result_bind (x : Asking α) (f : α → Asking β) :
    (x >>= f).result = x.result >>= fun a => (f a).result := by
  change (andThen x f).result = _
  unfold andThen
  cases x.result <;> rfl

/-- What is asked for first stays first. -/
theorem head?_files_bind {x : Asking α} (f : α → Asking β) {file : String}
    (h : x.files.head? = some file) : (x >>= f).files.head? = some file := by
  change (andThen x f).files.head? = _
  unfold andThen
  cases x.result with
  | error e => exact h
  | ok a => rw [List.head?_append, h, Option.some_or]

/-- A computation without requests that succeeds leaves no trace. -/
theorem ofExcept_ok_bind (a : α) (f : α → Asking β) : ofExcept (.ok a) >>= f = f a := rfl

end Asking

namespace Expansion

mutual
/-- An element with the directives below it replaced, and the files asked for. -/
def expandBelowAsking (splice : Directive → Element → Asking Element) : Element → Asking Element
  | ⟨name, attributes, children, path, source⟩ => do
    return ⟨name, attributes, ← expandListAsking splice children, path, source⟩

/-- Children with the directives among and below them replaced, and the files asked for. -/
def expandListAsking (splice : Directive → Element → Asking Element) :
    List Element → Asking (List Element)
  | [] => pure []
  | e :: es => do
    let e ← match Directive.ofName? e.name with
      | some directive => splice directive e
      | none => expandBelowAsking splice e
    return e :: (← expandListAsking splice es)
end

/-- What is put in place of a child, and the files asked for. -/
def expandChildAsking (splice : Directive → Element → Asking Element) (e : Element) :
    Asking Element :=
  match Directive.ofName? e.name with
  | some directive => splice directive e
  | none => expandBelowAsking splice e

theorem expandListAsking_cons (splice : Directive → Element → Asking Element) (e : Element)
    (es : List Element) :
    expandListAsking splice (e :: es) =
      expandChildAsking splice e >>= fun t =>
        expandListAsking splice es >>= fun ts => pure (t :: ts) := by
  rw [expandListAsking, expandChildAsking]
  cases Directive.ofName? e.name <;> rfl

/-- What is put in place of a directive of a document in `base`, where `nested` expands the
document that it names. -/
def spliceAsking (load : Loader) (nested : Element → String → Asking Element) (base : String)
    (directive : Directive) (e : Element) : Asking Element := do
  let href ← Asking.ofExcept (Attribute.text e "href")
  let document ← Asking.document load (Path.join base href)
  let expanded ← nested document (Path.directory (Path.join base href))
  Asking.ofExcept (pick directive e expanded (Path.join base href))

/-- The error at a directive of a document that may name no further ones. -/
def spliceTooDeep (limit : Nat) (base : String) (_ : Directive) (e : Element) :
    Asking Element := do
  let href ← Asking.ofExcept (Attribute.text e "href")
  Asking.ofExcept (.error (.includeDepth limit (Path.join base href)))

/-- The expansion of a document, and the files asked for. -/
def expandAsking (load : Loader) (limit : Nat) : Nat → Element → String → Asking Element
  | 0, root, base => do
    let root ← Asking.ofExcept (Reference.resolveAll base root)
    let root ← expandBelowAsking (spliceTooDeep limit base) root
    return root.reindex root.path
  | remaining + 1, root, base => do
    let root ← Asking.ofExcept (Reference.resolveAll base root)
    let root ← expandBelowAsking (spliceAsking load (expandAsking load limit remaining) base) root
    return root.reindex root.path

/-! ### It is the expansion -/

section

variable {splice : Directive → Element → Except ConfigError Element}
  {splice' : Directive → Element → Asking Element}

mutual
theorem result_expandBelowAsking
    (h : ∀ directive e, (splice' directive e).result = splice directive e) : ∀ e,
       (expandBelowAsking splice' e).result = expandBelow splice e
  | ⟨name, attributes, children, path, source⟩ => by
    rw [expandBelowAsking, expandBelow, Asking.result_bind, result_expandListAsking h children]
    rfl

theorem result_expandListAsking
    (h : ∀ directive e, (splice' directive e).result = splice directive e) : ∀ es,
       (expandListAsking splice' es).result = expandList splice es
  | [] => by
    rw [expandListAsking, expandList]
    rfl
  | e :: es => by
    rw [expandListAsking, expandList]
    cases Directive.ofName? e.name with
    | some directive =>
      simp only [Asking.result_bind, h, result_expandListAsking h es]
      rfl
    | none =>
      simp only [Asking.result_bind, result_expandBelowAsking h e, result_expandListAsking h es]
      rfl
end

end

theorem result_expandAsking (load : Loader) (limit remaining : Nat) (root : Element)
    (base : String) :
    (expandAsking load limit remaining root base).result =
      expand load limit remaining root base := by
  induction remaining generalizing root base with
  | zero =>
    have hsplice : ∀ directive e, (spliceTooDeep limit base directive e).result =
        splice load limit 0 base directive e := fun _ _ => Asking.result_bind _ _
    rw [expandAsking, expand]
    simp only [Asking.result_bind, Asking.result_ofExcept, result_expandBelowAsking hsplice]
    rfl
  | succ remaining ih =>
    have hsplice : ∀ directive e,
        (spliceAsking load (expandAsking load limit remaining) base directive e).result =
          splice load limit (remaining + 1) base directive e := by
      intro directive e
      simp only [spliceAsking, splice, Asking.result_bind, Asking.result_ofExcept,
        Asking.result_document, ih]
    rw [expandAsking, expand]
    simp only [Asking.result_bind, Asking.result_ofExcept, result_expandBelowAsking hsplice]
    rfl

/-- A directive asks for its `href` as seen from the directory of its document first. -/
theorem head?_files_spliceAsking (load : Loader) (nested : Element → String → Asking Element)
    (base : String) (directive : Directive) {e : Element} {href : String}
    (h : e.attr? "href" = some href) :
    (spliceAsking load nested base directive e).files.head? = some (Path.join base href) := by
  rw [spliceAsking, Attribute.text_eq_ok.mpr h, Asking.ofExcept_ok_bind]
  exact Asking.head?_files_bind _ rfl

end Expansion
end MotionRack
