import Mathlib.Data.List.Basic
import MotionRack.Document.Reference
import MotionRack.Proofs.Success

/-!
# What references stand for

The rule for references as a relation, independent of how a value is taken apart, and
the values that attributes have once all references of an element are replaced.
-/
namespace MotionRack.Reference

/-- What an attribute value stands for in a document that lies in `base`. -/
inductive StandsFor (base : String) : String → String → Prop
  | path {rest : String} : rest ≠ "" → StandsFor base ("$PATH:" ++ rest) (Path.join base rest)
  | dollar {rest : String} : StandsFor base ("$$" ++ rest) ("$" ++ rest)
  | plain {value : String} : value.toList.head? ≠ some '$' → StandsFor base value value

theorem toList_append_ofList (s : String) (cs : List Char) :
    (s ++ String.ofList cs).toList = s.toList ++ cs := by
  rw [String.toList_append, String.toList_ofList]

theorem resolve?_path (base : String) {rest : String} (h : rest ≠ "") :
    resolve? base ("$PATH:" ++ rest) = some (Path.join base rest) := by
  obtain ⟨c, path, hrest⟩ := List.exists_cons_of_ne_nil (mt String.toList_eq_nil_iff.mp h)
  have hvalue : ("$PATH:" ++ rest).toList = '$' :: (pathToken.tail ++ rest.toList) :=
    String.toList_append
  have htoken : pathToken.isPrefixOf? ('$' :: (pathToken.tail ++ rest.toList)) =
      some (c :: path) := by
    rw [List.isPrefixOf?_eq_some_iff_append_eq, ← hrest]
    rfl
  rw [resolve?, hvalue]
  simp only [htoken]
  rw [← hrest, String.ofList_toList]

theorem resolve?_dollar (base rest : String) :
    resolve? base ("$$" ++ rest) = some ("$" ++ rest) := by
  have hvalue : ("$$" ++ rest).toList = '$' :: '$' :: rest.toList := String.toList_append
  have hresult : String.ofList ('$' :: rest.toList) = "$" ++ rest := by
    rw [← String.toList_inj, String.toList_ofList, String.toList_append]
    rfl
  have htoken : pathToken.isPrefixOf? ('$' :: '$' :: rest.toList) = none := rfl
  rw [resolve?, hvalue]
  simp only [htoken]
  rw [hresult]

theorem resolve?_plain (base : String) {value : String} (h : value.toList.head? ≠ some '$') :
    resolve? base value = some value := by
  rw [resolve?]
  split
  next hvalue => exact absurd (by rw [hvalue, List.head?_cons]) h
  next => rfl

/-- A reference is replaced exactly by what it stands for. -/
theorem resolve?_eq_some_iff {base value result : String} :
    resolve? base value = some result ↔ StandsFor base value result := by
  constructor
  · intro h
    rw [resolve?] at h
    split at h
    next rest hvalue =>
      split at h
      next c path hprefix =>
        have happend := List.isPrefixOf?_eq_some_iff_append_eq.mp hprefix
        obtain rfl : "$PATH:" ++ String.ofList (c :: path) = value := by
          rw [← String.toList_inj, toList_append_ofList, hvalue, ← happend]
          rfl
        obtain rfl := Option.some.inj h
        refine .path fun hempty => ?_
        rw [← String.toList_inj, String.toList_ofList] at hempty
        cases hempty
      next =>
        split at h
        next rest' _ =>
          obtain rfl : "$$" ++ String.ofList rest' = value := by
            rw [← String.toList_inj, toList_append_ofList, hvalue]
            rfl
          obtain rfl : "$" ++ String.ofList rest' = result := by
            rw [← Option.some.inj h, ← String.toList_inj, toList_append_ofList]
            exact String.toList_ofList.symm
          exact .dollar
        next => cases h
    next hvalue =>
      obtain rfl := Option.some.inj h
      refine .plain fun hhead => ?_
      obtain ⟨rest, hrest⟩ := List.head?_eq_some_iff.mp hhead
      exact hvalue rest hrest
  · rintro (hrest | _ | hplain)
    · exact resolve?_path base hrest
    · exact resolve?_dollar base _
    · exact resolve?_plain base hplain

/-! ### Attributes -/

/-- Attributes with all references replaced, each once; none if one cannot be. -/
def substitute? (base : String) : List (String × String) → Option (List (String × String))
  | [] => some []
  | (key, value) :: rest =>
    (resolve? base value).bind fun result => (substitute? base rest).map ((key, result) :: ·)

theorem resolveAttributes_eq_ok {base place : String}
    {attributes results : List (String × String)} :
    resolveAttributes base place attributes = .ok results ↔
      substitute? base attributes = some results := by
  induction attributes generalizing results with
  | nil => simp [resolveAttributes, substitute?, eq_comm]
  | cons first rest ih =>
    obtain ⟨key, value⟩ := first
    rw [resolveAttributes, substitute?]
    cases resolve? base value with
    | none => simp
    | some result =>
      simp only [bind_eq_ok, pure_eq_ok, ih]
      simp

/-- The value of an attribute after replacement is what its value stood for. -/
theorem lookup_substitute? {base : String} {attributes results : List (String × String)}
    (h : substitute? base attributes = some results) (key : String) :
    results.lookup key = (attributes.lookup key).bind (resolve? base) := by
  induction attributes generalizing results with
  | nil =>
    obtain rfl : [] = results := Option.some.inj h
    rfl
  | cons first rest ih =>
    obtain ⟨key', value⟩ := first
    rw [substitute?] at h
    obtain ⟨result, hvalue, h⟩ := Option.bind_eq_some_iff.mp h
    obtain ⟨rest', hrest, rfl⟩ := Option.map_eq_some_iff.mp h
    rw [List.lookup_cons, List.lookup_cons]
    cases key == key' with
    | true => exact hvalue.symm
    | false => exact ih hrest

/-! ### Elements -/

theorem resolveAll_eq_ok {base : String} {e resolved : Element} :
    resolveAll base e = .ok resolved ↔
      ∃ attributes, substitute? base e.attributes = some attributes ∧
        ∃ children, resolveList base e.children = .ok children ∧
          { e with attributes := attributes, children := children } = resolved := by
  obtain ⟨name, attributes, children, path, source⟩ := e
  simp only [resolveAll, bind_eq_ok, pure_eq_ok, resolveAttributes_eq_ok]

theorem resolveList_cons_eq_ok {base : String} {e : Element} {es resolved : List Element} :
    resolveList base (e :: es) = .ok resolved ↔
      ∃ first, resolveAll base e = .ok first ∧ ∃ rest, resolveList base es = .ok rest ∧
        first :: rest = resolved := by
  simp only [resolveList, bind_eq_ok, pure_eq_ok]

/-- The attributes of a replaced element, read one by one. -/
theorem attr?_resolveAll {base : String} {e resolved : Element}
    (h : resolveAll base e = .ok resolved) (key : String) :
    resolved.attr? key = (e.attr? key).bind (resolve? base) := by
  obtain ⟨attributes, hattributes, _, _, rfl⟩ := resolveAll_eq_ok.mp h
  exact lookup_substitute? hattributes key

end MotionRack.Reference
