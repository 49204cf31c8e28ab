import MotionRack.Document.Element

/-!
# Setting an attribute below an element

A chain of names leads from an element to one below it, by the first child of each name. Setting an
attribute there changes what is read by this chain under this key, and nothing that is read by
another chain or under another key.
-/
namespace MotionRack

def onFirst {α : Type} (p : α → Bool) (f : α → α) : List α → List α
  | [] => []
  | x :: xs => if p x then f x :: xs else x :: onFirst p f xs

section

variable {α : Type} {p q : α → Bool} {f : α → α}

theorem find?_onFirst (hkeep : ∀ x, p (f x) = p x) (xs : List α) :
    (onFirst p f xs).find? p = (xs.find? p).map f := by
  induction xs with
  | nil => rfl
  | cons x xs ih =>
    rw [onFirst]
    cases hx : p x with
    | true => simp [hx, hkeep]
    | false => simp [hx, ih]

/-- A change from members without another property to such members does not count for it. -/
theorem find?_onFirst_of_not (hold : ∀ x, p x = true → q x = false)
    (hnew : ∀ x, p x = true → q (f x) = false) (xs : List α) :
    (onFirst p f xs).find? q = xs.find? q := by
  induction xs with
  | nil => rfl
  | cons x xs ih =>
    rw [onFirst]
    cases hx : p x with
    | true => simp [hold x hx, hnew x hx]
    | false => simp [List.find?_cons, ih]

end

namespace Element

/-- The value of an attribute of the element to which a chain of names leads. -/
def attrAt? (e : Element) (names : List String) (key : String) : Option String :=
  (e.walk? names).bind (·.attr? key)

/-- Sets an attribute of the element to which a chain of names leads, if there is one. -/
def setAttrAt : List String → String → String → Element → Element
  | [], key, value, e => e.setAttr key value
  | name :: rest, key, value, e =>
    { e with children := onFirst (·.name == name) (setAttrAt rest key value) e.children }

theorem lookup_put (key value other : String) (attributes : List (String × String)) :
    (put key value attributes).lookup other =
      if other = key then some value else attributes.lookup other := by
  have hne : ∀ k, other ≠ k → (other == k) = false := fun k h => beq_eq_false_iff_ne.mpr h
  induction attributes with
  | nil => by_cases h : other = key <;> simp [put, List.lookup_cons, h, hne]
  | cons first rest ih =>
    obtain ⟨k, v⟩ := first
    rw [put]
    by_cases hk : k = key
    · subst hk
      by_cases h : other = k <;> simp [List.lookup_cons, h, hne]
    · rw [if_neg hk, List.lookup_cons, List.lookup_cons, ih]
      by_cases h : other = k
      · subst h
        simp [hk]
      · simp [h, hne]

theorem attr?_setAttr (e : Element) (key value other : String) :
    (e.setAttr key value).attr? other = if other = key then some value else e.attr? other :=
  lookup_put key value other e.attributes

theorem name_setAttrAt (names : List String) (key value : String) (e : Element) :
    (e.setAttrAt names key value).name = e.name := by
  cases names <;> rfl

theorem child?_setAttrAt (name : String) (rest : List String) (key value : String) (e : Element)
    (other : String) : (e.setAttrAt (name :: rest) key value).child? other =
      if other = name then (e.child? name).map (setAttrAt rest key value) else e.child? other := by
  have hname : ∀ c : Element, (c.setAttrAt rest key value).name = c.name :=
    name_setAttrAt rest key value
  rw [setAttrAt, child?, child?, child?]
  by_cases h : other = name
  · subst h
    rw [if_pos rfl]
    exact find?_onFirst (fun c => by rw [hname]) e.children
  · rw [if_neg h]
    apply find?_onFirst_of_not
    · intro c hc
      simpa [beq_iff_eq.mp hc] using Ne.symm h
    · intro c hc
      simpa [hname, beq_iff_eq.mp hc] using Ne.symm h

/-- Setting an attribute changes what is read there, and nothing else. -/
theorem attrAt?_setAttrAt (names : List String) (key value : String) (e : Element)
    (names' : List String) (key' : String) :
    (e.setAttrAt names key value).attrAt? names' key' =
      if (names', key') = (names, key) then (e.walk? names).map fun _ => value
      else e.attrAt? names' key' := by
  induction names generalizing e names' with
  | nil =>
    cases names' with
    | nil =>
      rw [attrAt?, attrAt?, walk?, walk?, Option.bind_some, setAttrAt, attr?_setAttr]
      simp
    | cons name' rest' => simp [attrAt?, walk?, setAttrAt, setAttr, child?]
  | cons name rest ih =>
    cases names' with
    | nil => simp [attrAt?, walk?, setAttrAt, attr?]
    | cons name' rest' =>
      rw [attrAt?, walk?, child?_setAttrAt, attrAt?, walk?, walk?]
      by_cases hname : name' = name
      · subst hname
        cases hchild : e.child? name' with
        | none => simp
        | some c =>
          have hc := ih c rest'
          rw [attrAt?, attrAt?] at hc
          simpa using hc
      · simp [hname]

end Element
end MotionRack
