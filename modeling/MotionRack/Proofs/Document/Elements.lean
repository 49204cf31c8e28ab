import MotionRack.Document.Element

/-!
# All elements of a tree

The elements of a tree in document order, and what the operations on trees do to
them: new places leave names and origins as they are, a new attribute leaves names,
and selection brings forth one of them.
-/
namespace MotionRack.Element

mutual
/-- A property holds of an element once it carries over from the children. -/
theorem induct {P : Element → Prop}
    (step : ∀ name attributes children path source, (∀ c ∈ children, P c) →
      P ⟨name, attributes, children, path, source⟩) : ∀ e, P e
  | ⟨name, attributes, children, path, source⟩ =>
    step name attributes children path source (inductAll step children)

theorem inductAll {P : Element → Prop}
    (step : ∀ name attributes children path source, (∀ c ∈ children, P c) →
      P ⟨name, attributes, children, path, source⟩) : ∀ es : List Element, ∀ e ∈ es, P e
  | [] => fun _ h => absurd h List.not_mem_nil
  | e :: es => List.forall_mem_cons.mpr ⟨induct step e, inductAll step es⟩
end

mutual
/-- The element and all below it, in document order. -/
def elements : Element → List Element
  | ⟨name, attributes, children, path, source⟩ =>
    ⟨name, attributes, children, path, source⟩ :: elementsOf children

/-- The elements of a list of trees. -/
def elementsOf : List Element → List Element
  | [] => []
  | e :: es => elements e ++ elementsOf es
end

theorem elementsOf_eq_flatMap (es : List Element) : elementsOf es = es.flatMap elements := by
  induction es with
  | nil => rfl
  | cons e es ih => rw [elementsOf, ih, List.flatMap_cons]

theorem elements_eq (e : Element) : e.elements = e :: e.children.flatMap elements := by
  obtain ⟨name, attributes, children, path, source⟩ := e
  rw [elements, elementsOf_eq_flatMap]

theorem mem_elements {x e : Element} :
    x ∈ e.elements ↔ x = e ∨ ∃ c ∈ e.children, x ∈ c.elements := by
  rw [elements_eq, List.mem_cons, List.mem_flatMap]

theorem forall_mem_elements {P : Element → Prop} {e : Element} :
    (∀ d ∈ e.elements, P d) ↔ P e ∧ ∀ c ∈ e.children, ∀ d ∈ c.elements, P d := by
  rw [elements_eq, List.forall_mem_cons, List.forall_mem_flatMap]

theorem self_mem_elements (e : Element) : e ∈ e.elements := mem_elements.mpr (Or.inl rfl)

theorem mem_elements_trans {x d e : Element} (hx : x ∈ d.elements) (hd : d ∈ e.elements) :
    x ∈ e.elements := by
  induction e using induct with
  | step name attributes children path source ih =>
    rcases mem_elements.mp hd with rfl | ⟨c, hc, hdc⟩
    · exact hx
    · exact mem_elements.mpr (Or.inr ⟨c, hc, ih c hc hdc⟩)

/-! ### New places -/

@[simp] theorem name_reindex (path : String) (e : Element) : (e.reindex path).name = e.name := by
  cases e
  rw [reindex]

theorem map_name_reindexAll (path : String) (siblings seen : List String) (es : List Element) :
    (reindexAll path siblings seen es).map name = es.map name := by
  induction es generalizing seen with
  | nil => rfl
  | cons e es ih => rw [reindexAll, List.map_cons, List.map_cons, ih, name_reindex]

/-- Whether a reading of an element looks at neither its place nor its children. -/
def IsPlaceless {α : Type} (f : Element → α) : Prop :=
  ∀ (e : Element) children path, f { e with children := children, path := path } = f e

mutual
/-- New places change no such reading of any element. -/
theorem map_elements_reindex {α : Type} {f : Element → α} (hf : IsPlaceless f) (path : String) :
    ∀ e : Element, (e.reindex path).elements.map f = e.elements.map f
  | ⟨name, attributes, children, old, source⟩ => by
    rw [reindex, elements, elements, List.map_cons, List.map_cons, map_elementsOf_reindexAll hf]
    exact congrArg (· :: _) (hf ⟨name, attributes, children, old, source⟩ _ path)

theorem map_elementsOf_reindexAll {α : Type} {f : Element → α} (hf : IsPlaceless f)
    (path : String) (siblings seen : List String) : ∀ es : List Element,
      (elementsOf (reindexAll path siblings seen es)).map f = (elementsOf es).map f
  | [] => by rw [reindexAll]
  | e :: es => by
    rw [reindexAll, elementsOf, elementsOf, List.map_append, List.map_append,
      map_elements_reindex hf, map_elementsOf_reindexAll hf]
end

mutual
theorem reindex_reindex (old path : String) : ∀ e : Element,
    (e.reindex old).reindex path = e.reindex path
  | ⟨_, _, children, _, _⟩ => by
    rw [reindex, reindex, reindex]
    simp only [mk.injEq, true_and, and_true]
    rw [reindexAll_reindexAll, map_name_reindexAll]

theorem reindexAll_reindexAll (old path : String) (siblings seen siblings' seen' : List String) :
    ∀ es : List Element, reindexAll path siblings' seen' (reindexAll old siblings seen es) =
      reindexAll path siblings' seen' es
  | [] => by rw [reindexAll]
  | e :: es => by
    rw [reindexAll, reindexAll, reindexAll, reindex_reindex, reindexAll_reindexAll, name_reindex]
end

/-! ### Origins -/

@[simp] theorem name_withSource (file : String) (e : Element) :
    (e.withSource file).name = e.name := by
  cases e
  rw [withSource]

theorem map_name_withSourceAll (file : String) (es : List Element) :
    (withSourceAll file es).map name = es.map name := by
  induction es with
  | nil => rfl
  | cons e es ih => rw [withSourceAll, List.map_cons, List.map_cons, ih, name_withSource]

mutual
/-- It is all one whether elements learn their places or their origin first. -/
theorem reindex_withSource (file path : String) : ∀ e : Element,
    (e.withSource file).reindex path = (e.reindex path).withSource file
  | ⟨_, _, children, _, _⟩ => by
    rw [withSource, reindex, reindex, withSource]
    simp only [mk.injEq, true_and, and_true]
    rw [map_name_withSourceAll, reindexAll_withSourceAll]

theorem reindexAll_withSourceAll (file path : String) (siblings seen : List String) :
    ∀ es : List Element, reindexAll path siblings seen (withSourceAll file es) =
      withSourceAll file (reindexAll path siblings seen es)
  | [] => by rw [withSourceAll, reindexAll, withSourceAll]
  | e :: es => by
    rw [withSourceAll, reindexAll, reindexAll, withSourceAll, reindex_withSource,
      reindexAll_withSourceAll, name_withSource]
end

mutual
theorem source_of_mem_withSource (file : String) : ∀ (e : Element),
    ∀ d ∈ (e.withSource file).elements, d.source = some file
  | ⟨name, attributes, children, path, source⟩ => by
    rw [withSource, elements, List.forall_mem_cons]
    exact ⟨rfl, source_of_mem_withSourceAll file children⟩

theorem source_of_mem_withSourceAll (file : String) : ∀ (es : List Element),
    ∀ d ∈ elementsOf (withSourceAll file es), d.source = some file
  | [] => by
    rw [withSourceAll, elementsOf]
    exact fun _ h => absurd h List.not_mem_nil
  | e :: es => by
    rw [withSourceAll, elementsOf, List.forall_mem_append]
    exact ⟨source_of_mem_withSource file e, source_of_mem_withSourceAll file es⟩
end

/-! ### Attributes -/

theorem map_name_setAttr (e : Element) (key value : String) :
    (e.setAttr key value).elements.map name = e.elements.map name := by
  rw [elements_eq, elements_eq, setAttr, List.map_cons, List.map_cons]

/-! ### Selection -/

theorem findIn?_eq_some {name : String} {es : List Element} {d : Element}
    (h : findIn? name es = some d) : ∃ e ∈ es, find? name e = some d := by
  induction es with
  | nil => cases h
  | cons e es ih =>
    rw [findIn?, Option.or_eq_some_iff] at h
    rcases h with h | ⟨_, h⟩
    · exact ⟨e, List.mem_cons_self, h⟩
    · obtain ⟨e', he', h⟩ := ih h
      exact ⟨e', List.mem_cons_of_mem e he', h⟩

theorem find?_mem {name : String} {e d : Element} (h : find? name e = some d) :
    d ∈ e.elements := by
  induction e using induct with
  | step n attributes children path source ih =>
    rw [find?] at h
    split at h
    · obtain rfl := Option.some.inj h
      exact self_mem_elements _
    · obtain ⟨c, hc, hd⟩ := findIn?_eq_some h
      exact mem_elements.mpr (Or.inr ⟨c, hc, ih c hc hd⟩)

theorem walk?_mem {e d : Element} {names : List String} (h : e.walk? names = some d) :
    d ∈ e.elements := by
  induction names generalizing e with
  | nil =>
    obtain rfl := Option.some.inj h
    exact self_mem_elements e
  | cons name rest ih =>
    rw [walk?] at h
    obtain ⟨c, hc, hd⟩ := Option.bind_eq_some_iff.mp h
    exact mem_elements.mpr (Or.inr ⟨c, List.mem_of_find?_eq_some hc, ih hd⟩)

/-- What a query selects is an element of the tree. -/
theorem select?_mem {e d : Element} {query : String} (h : e.select? query = some d) :
    d ∈ e.elements := by
  rw [select?] at h
  cases hq : Query.parse query with
  | anywhere name =>
    rw [hq] at h
    exact find?_mem h
  | absolute names =>
    rw [hq] at h
    cases names with
    | nil => cases h
    | cons name rest =>
      rw [run?] at h
      split at h
      · exact walk?_mem h
      · cases h
  | relative names =>
    rw [hq] at h
    exact walk?_mem h

end MotionRack.Element
