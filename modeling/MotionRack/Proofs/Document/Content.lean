import MotionRack.Proofs.Document.Elements

/-!
# What an element says

An element without its places: what is left says the same as before, and two elements
agree exactly if the same is left of both. Numbering the elements of a tree anew
changes nothing of it, and a query selects the same part with places and without. Whether
two elements are equal, places included, can be decided.
-/
namespace MotionRack.Element

mutual
/-- The element and all below it, without their places. -/
def content : Element → Element
  | ⟨name, attributes, children, _, _⟩ => ⟨name, attributes, contentAll children, "", none⟩

/-- A list of elements without their places. -/
def contentAll : List Element → List Element
  | [] => []
  | e :: es => content e :: contentAll es
end

theorem contentAll_eq_map (es : List Element) : contentAll es = es.map content := by
  induction es with
  | nil => rfl
  | cons e es ih => rw [contentAll, ih, List.map_cons]

theorem content_eq (e : Element) :
    e.content = ⟨e.name, e.attributes, e.children.map content, "", none⟩ := by
  obtain ⟨name, attributes, children, path, source⟩ := e
  rw [content, contentAll_eq_map]

@[simp] theorem name_content (e : Element) : e.content.name = e.name := by rw [content_eq]

@[simp] theorem attributes_content (e : Element) : e.content.attributes = e.attributes := by
  rw [content_eq]

@[simp] theorem children_content (e : Element) :
    e.content.children = e.children.map content := by rw [content_eq]

mutual
theorem agrees_iff : ∀ e d : Element, e.agrees d = true ↔ e.content = d.content
  | ⟨name, attributes, children, _, _⟩, ⟨name', attributes', children', _, _⟩ => by
    rw [agrees, content, content]
    simp only [Bool.and_eq_true, beq_iff_eq, agreesAll_iff children children', mk.injEq, and_true,
      and_assoc]

theorem agreesAll_iff : ∀ es ds : List Element,
    agreesAll es ds = true ↔ contentAll es = contentAll ds
  | [], [] => by simp [agreesAll]
  | [], _ :: _ => by simp [agreesAll, contentAll]
  | _ :: _, [] => by simp [agreesAll, contentAll]
  | e :: es, d :: ds => by
    rw [agreesAll, contentAll, contentAll, Bool.and_eq_true, agrees_iff e d, agreesAll_iff es ds,
      List.cons.injEq]
end

mutual
/-- Decides whether two elements are equal. -/
def decEq : ∀ e d : Element, Decidable (e = d)
  | ⟨name, attributes, children, path, source⟩, ⟨name', attributes', children', path', source'⟩ =>
    match decEqAll children children' with
    | .isTrue h =>
      decidable_of_iff (name = name' ∧ attributes = attributes' ∧ path = path' ∧ source = source')
        (by simp [h])
    | .isFalse h => .isFalse fun heq => h (Element.mk.inj heq).2.2.1

/-- Decides whether two lists of elements are equal. -/
def decEqAll : ∀ es ds : List Element, Decidable (es = ds)
  | [], [] => .isTrue rfl
  | [], _ :: _ => .isFalse nofun
  | _ :: _, [] => .isFalse nofun
  | e :: es, d :: ds =>
    match decEq e d, decEqAll es ds with
    | .isTrue h, .isTrue hs => .isTrue (by rw [h, hs])
    | .isFalse h, _ => .isFalse fun heq => h (List.cons.inj heq).1
    | _, .isFalse hs => .isFalse fun heq => hs (List.cons.inj heq).2
end

instance : DecidableEq Element := decEq

mutual
theorem content_reindex (path : String) : ∀ e : Element, (e.reindex path).content = e.content
  | ⟨_, _, children, _, _⟩ => by rw [reindex, content, content, contentAll_reindexAll]

theorem contentAll_reindexAll (path : String) (siblings seen : List String) :
    ∀ es : List Element, contentAll (reindexAll path siblings seen es) = contentAll es
  | [] => by rw [reindexAll]
  | e :: es => by
    rw [reindexAll, contentAll, contentAll, content_reindex, contentAll_reindexAll]
end

mutual
theorem content_withSource (file : String) : ∀ e : Element,
    (e.withSource file).content = e.content
  | ⟨_, _, children, _, _⟩ => by rw [withSource, content, content, contentAll_withSourceAll]

theorem contentAll_withSourceAll (file : String) : ∀ es : List Element,
    contentAll (withSourceAll file es) = contentAll es
  | [] => by rw [withSourceAll]
  | e :: es => by
    rw [withSourceAll, contentAll, contentAll, content_withSource, contentAll_withSourceAll]
end

theorem content_setAttr (e : Element) (key value : String) :
    (e.setAttr key value).content = e.content.setAttr key value := by
  rw [content_eq, setAttr, setAttr, attributes_content, content_eq]

/-! ### Selection -/

theorem find?_eq (name : String) (e : Element) :
    find? name e = if e.name = name then some e else findIn? name e.children := by
  obtain ⟨n, attributes, children, path, source⟩ := e
  rw [find?]

theorem findIn?_map {f : Element → Element} {name : String} {es : List Element}
    (h : ∀ e ∈ es, find? name (f e) = (find? name e).map f) :
    findIn? name (es.map f) = (findIn? name es).map f := by
  induction es with
  | nil => rw [List.map_nil, findIn?, Option.map_none]
  | cons e es ih =>
    obtain ⟨hfirst, hrest⟩ := List.forall_mem_cons.mp h
    rw [List.map_cons, findIn?, findIn?, hfirst, ih hrest, Option.map_or]

section

variable {f : Element → Element} (hname : ∀ e, (f e).name = e.name)
  (hchildren : ∀ e, (f e).children = e.children.map f)

include hname hchildren

theorem childrenNamed_map (e : Element) (name : String) :
    (f e).childrenNamed name = (e.childrenNamed name).map f := by
  simp only [childrenNamed, hchildren, List.filter_map, Function.comp_def, hname]

theorem child?_map (e : Element) (name : String) :
    (f e).child? name = (e.child? name).map f := by
  simp only [child?, hchildren, List.find?_map, Function.comp_def, hname]

theorem find?_map (name : String) (e : Element) :
    find? name (f e) = (find? name e).map f := by
  induction e using induct with
  | step n attributes children path source ih =>
    rw [find?_eq, find?_eq, hname, hchildren, findIn?_map ih]
    split <;> rfl

theorem walk?_map (e : Element) (names : List String) :
    (f e).walk? names = (e.walk? names).map f := by
  induction names generalizing e with
  | nil => rfl
  | cons name rest ih =>
    rw [walk?, walk?, child?_map hname hchildren]
    cases e.child? name with
    | none => rfl
    | some c => exact ih c

/-- Queries look at names only, so they select the same part of a tree whose elements are
changed otherwise. -/
theorem select?_map (e : Element) (query : String) :
    (f e).select? query = (e.select? query).map f := by
  rw [select?, select?]
  cases Query.parse query with
  | anywhere name => exact find?_map hname hchildren name e
  | absolute names =>
    cases names with
    | nil => rfl
    | cons name rest =>
      rw [run?, run?, hname]
      split
      · exact walk?_map hname hchildren e rest
      · rfl
  | relative names => exact walk?_map hname hchildren e names

end

/-- A query selects what it would select without places. -/
theorem select?_content (e : Element) (query : String) :
    e.content.select? query = (e.select? query).map content :=
  select?_map name_content children_content e query

end MotionRack.Element
