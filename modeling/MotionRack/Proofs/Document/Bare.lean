import MotionRack.Document.Expansion
import MotionRack.Proofs.Document.Content
import MotionRack.Proofs.Outcome

/-!
# What an element says, wherever it was read

An element without its places and without the attributes that tell where an expansion took it
from. Expanding a document adds nothing but these, so what is left of a part that was put into
another document is what is left of the document that it comes from.
-/
namespace MotionRack

namespace Element

open Expansion (sourceKey)

mutual
/-- The element and all below it, without places and origins. -/
def bare : Element → Element
  | ⟨name, attributes, children, _, _⟩ =>
    ⟨name, attributes.filter (·.1 ≠ sourceKey), bareAll children, "", none⟩

/-- A list of elements without places and origins. -/
def bareAll : List Element → List Element
  | [] => []
  | e :: es => bare e :: bareAll es
end

theorem bareAll_eq_map (es : List Element) : bareAll es = es.map bare := by
  induction es with
  | nil => rfl
  | cons e es ih => rw [bareAll, ih, List.map_cons]

theorem bare_eq (e : Element) :
    e.bare = ⟨e.name, e.attributes.filter (·.1 ≠ sourceKey), e.children.map bare, "", none⟩ := by
  obtain ⟨name, attributes, children, path, source⟩ := e
  rw [bare, bareAll_eq_map]

@[simp] theorem name_bare (e : Element) : e.bare.name = e.name := by rw [bare_eq]

@[simp] theorem children_bare (e : Element) : e.bare.children = e.children.map bare := by
  rw [bare_eq]

/-- Every attribute but the origin is kept. -/
theorem attr?_bare (e : Element) {key : String} (h : key ≠ sourceKey) :
    e.bare.attr? key = e.attr? key := by
  rw [bare_eq, attr?, attr?]
  induction e.attributes with
  | nil => rfl
  | cons entry rest ih =>
    obtain ⟨k, value⟩ := entry
    by_cases hk : k = sourceKey
    · have hother : (key == k) = false := by simpa [hk] using h
      rw [List.filter_cons_of_neg (by simpa using hk), ih, List.lookup_cons, hother]
    · rw [List.filter_cons_of_pos (by simpa using hk), List.lookup_cons, List.lookup_cons, ih]

theorem hasAttr_bare (e : Element) {key : String} (h : key ≠ sourceKey) :
    e.bare.hasAttr key = e.hasAttr key := by
  rw [hasAttr, hasAttr, attr?_bare e h]

@[simp] theorem childrenNamed_bare (e : Element) (name : String) :
    e.bare.childrenNamed name = (e.childrenNamed name).map bare :=
  childrenNamed_map name_bare children_bare e name

@[simp] theorem child?_bare (e : Element) (name : String) :
    e.bare.child? name = (e.child? name).map bare :=
  child?_map name_bare children_bare e name

@[simp] theorem select?_bare (e : Element) (query : String) :
    e.bare.select? query = (e.select? query).map bare :=
  select?_map name_bare children_bare e query

mutual
theorem bare_bare : ∀ e : Element, e.bare.bare = e.bare
  | ⟨_, _, children, _, _⟩ => by
    rw [bare, bare, bareAll_bareAll, List.filter_filter]
    simp only [Bool.and_self]

theorem bareAll_bareAll : ∀ es : List Element, bareAll (bareAll es) = bareAll es
  | [] => rfl
  | e :: es => by rw [bareAll, bareAll, bare_bare, bareAll_bareAll]
end

/-! ### What an expansion adds -/

mutual
theorem bare_content : ∀ e : Element, e.content.bare = e.bare
  | ⟨_, _, children, _, _⟩ => by rw [content, bare, bare, bareAll_contentAll]

theorem bareAll_contentAll : ∀ es : List Element, bareAll (contentAll es) = bareAll es
  | [] => by rw [contentAll]
  | e :: es => by rw [contentAll, bareAll, bareAll, bare_content, bareAll_contentAll]
end

theorem bare_reindex (path : String) (e : Element) : (e.reindex path).bare = e.bare := by
  rw [← bare_content, content_reindex, bare_content]

theorem bare_setAttr_sourceKey (e : Element) (file : String) :
    (e.setAttr sourceKey file).bare = e.bare := by
  have hput : ∀ attributes : List (String × String),
      (put sourceKey file attributes).filter (·.1 ≠ sourceKey) =
        attributes.filter (·.1 ≠ sourceKey) := by
    intro attributes
    induction attributes with
    | nil => simp [put]
    | cons entry rest ih =>
      obtain ⟨k, value⟩ := entry
      rw [put]
      split
      next hk =>
        rw [List.filter_cons_of_neg (by simpa using hk),
          List.filter_cons_of_neg (by simpa using hk)]
      next hk =>
        rw [List.filter_cons_of_pos (by simpa using hk),
          List.filter_cons_of_pos (by simpa using hk), ih]
  rw [bare_eq, bare_eq, setAttr, hput]

/-! ### What an element holds -/

/-- What an element holds: its children without places and origins, whatever its own name and
attributes are. -/
def inner (e : Element) : Element := ⟨"", [], bareAll e.children, "", none⟩

@[simp] theorem childrenNamed_inner (e : Element) (name : String) :
    e.inner.childrenNamed name = (e.childrenNamed name).map bare := by
  rw [← childrenNamed_bare, inner, bareAll_eq_map, ← children_bare]
  rfl

@[simp] theorem child?_inner (e : Element) (name : String) :
    e.inner.child? name = (e.child? name).map bare := by
  rw [← child?_bare, inner, bareAll_eq_map, ← children_bare]
  rfl

/-- Whether a query names elements below the one where it starts, and nothing else. -/
def Query.IsBelow (query : Query) : Prop := ∃ name rest, query = relative (name :: rest)

instance : DecidablePred Query.IsBelow
  | .relative (name :: rest) => .isTrue ⟨name, rest, rfl⟩
  | .relative [] | .anywhere _ | .absolute _ => .isFalse nofun

/-- A query that does not look at the element where it starts selects the same from what that
element holds. -/
theorem select?_inner (e : Element) {query : String} (h : (Query.parse query).IsBelow) :
    e.inner.select? query = (e.select? query).map bare := by
  obtain ⟨name, rest, hquery⟩ := h
  rw [← select?_bare, select?, select?, hquery, run?, run?, walk?, walk?, child?_inner, child?_bare]

theorem inner_bare (e : Element) : e.bare.inner = e.inner := by
  rw [inner, inner, children_bare, ← bareAll_eq_map, bareAll_bareAll]

/-- Elements whose children agree hold the same. -/
theorem inner_eq_of_agreesAll {e d : Element} (h : agreesAll e.children d.children = true) :
    e.inner = d.inner := by
  rw [inner, inner, ← bareAll_contentAll e.children, (agreesAll_iff _ _).mp h, bareAll_contentAll]

end Element

/-! ### Attributes -/

namespace Attribute

@[simp] theorem toOption_orMalformed {α : Type} (e : Element) (key raw : String)
    (value : Option α) : (orMalformed e key raw value).toOption = value := by
  cases value <;> rfl

/-- A reader of a child reads the same from it without place and origin. -/
theorem toOption_child_bind {α : Type} (e : Element) (name : String)
    {f : Element → Except ConfigError α} (hf : ∀ c, (f c.bare).toOption = (f c).toOption) :
    (child e.bare name >>= f).toOption = (child e name >>= f).toOption := by
  unfold child
  rw [Element.child?_bare]
  cases e.child? name with
  | none => rfl
  | some c => exact hf c

section

variable (e : Element) {key : String} (h : key ≠ Expansion.sourceKey)

include h

@[simp] theorem toOption_text : (text e.bare key).toOption = (text e key).toOption := by
  unfold text
  rw [Element.attr?_bare e h]
  cases e.attr? key <;> rfl

@[simp] theorem toOption_natural (bits : Nat) :
    (natural bits e.bare key).toOption = (natural bits e key).toOption := by
  simp [natural, h]

@[simp] theorem toOption_natural? (bits : Nat) :
    (natural? bits e.bare key).toOption = (natural? bits e key).toOption := by
  unfold natural?
  rw [Element.hasAttr_bare e h]
  split <;> simp [h]

@[simp] theorem toOption_u8 : (u8 e.bare key).toOption = (u8 e key).toOption := by simp [u8, h]

@[simp] theorem toOption_u16 : (u16 e.bare key).toOption = (u16 e key).toOption := by simp [u16, h]

@[simp] theorem toOption_u32 : (u32 e.bare key).toOption = (u32 e key).toOption := by simp [u32, h]

@[simp] theorem toOption_u8? : (u8? e.bare key).toOption = (u8? e key).toOption := by simp [u8?, h]

@[simp] theorem toOption_u16? : (u16? e.bare key).toOption = (u16? e key).toOption := by
  simp [u16?, h]

end

end Attribute

/-- What a fold over elements comes to if no step looks at places. -/
theorem Element.toOption_foldlM_bare {ε α : Type} {step : α → Element → Except ε α}
    (h : ∀ a c, (step a c.bare).toOption = (step a c).toOption) (start : α) (es : List Element) :
    ((es.map bare).foldlM step start).toOption = (es.foldlM step start).toOption := by
  rw [List.foldlM_map]
  exact toOption_foldlM_congr h start es

end MotionRack
