import MotionRack.Document.Expansion
import MotionRack.Proofs.Document.Elements
import MotionRack.Proofs.Success

/-!
# Directives that an expansion leaves behind

An expansion replaces the directives below the root of a document. What it puts in
their place is not looked at again, so the root of a document that is a directive
itself stays in the result. The documents for which that happens are characterised
here exactly.
-/
namespace MotionRack.Expansion

/-- Whether an element is a directive by its name. -/
def IsDirective (e : Element) : Prop := e.name = "Include" ∨ e.name = "Import"

instance (e : Element) : Decidable (IsDirective e) := inferInstanceAs (Decidable (_ ∨ _))

/-- Whether a tree holds a directive at any depth. -/
def Leftover (t : Element) : Prop := ∃ x ∈ t.elements, IsDirective x

/-- The directives below an element that are not below other directives. -/
inductive Site : Element → Element → Prop
  | child {e s : Element} : s ∈ e.children → IsDirective s → Site e s
  | deeper {e c s : Element} : c ∈ e.children → ¬ IsDirective c → Site c s → Site e s

/-- Why the expansion of a document leaves a directive: its root is one, the expansion
of a document that an `Include` names leaves one, or an `Import` selects a part that
holds one. -/
inductive Residue (load : Loader) (limit : Nat) : Nat → Element → String → Prop
  | root {remaining : Nat} {root : Element} {base : String} :
      IsDirective root → Residue load limit remaining root base
  | included {remaining : Nat} {root resolved e document : Element} {base href : String} :
      Reference.resolveAll base root = .ok resolved → Site resolved e → e.name = "Include" →
      e.attr? "href" = some href → load (Path.join base href) = .ok document →
      Residue load limit remaining document (Path.directory (Path.join base href)) →
      Residue load limit (remaining + 1) root base
  | imported {remaining : Nat} {root resolved e document expanded node : Element}
      {base href query : String} :
      Reference.resolveAll base root = .ok resolved → Site resolved e → e.name = "Import" →
      e.attr? "href" = some href → load (Path.join base href) = .ok document →
      expand load limit remaining document (Path.directory (Path.join base href)) =
        .ok expanded →
      e.attr? "xpath" = some query → expanded.select? query = some node → Leftover node →
      Residue load limit (remaining + 1) root base

theorem ofName?_eq_include {name : String} :
    Directive.ofName? name = some .include_ ↔ name = "Include" := by
  rw [Directive.ofName?]
  by_cases hinclude : name = "Include"
  · simp [hinclude]
  · by_cases himport : name = "Import" <;> simp [hinclude, himport]

theorem ofName?_eq_import {name : String} :
    Directive.ofName? name = some .import_ ↔ name = "Import" := by
  rw [Directive.ofName?]
  by_cases hinclude : name = "Include"
  · simp [hinclude]
  · by_cases himport : name = "Import" <;> simp [hinclude, himport]

theorem isDirective_iff {e : Element} :
    IsDirective e ↔ ∃ directive, Directive.ofName? e.name = some directive := by
  constructor
  · rintro (h | h)
    · exact ⟨.include_, ofName?_eq_include.mpr h⟩
    · exact ⟨.import_, ofName?_eq_import.mpr h⟩
  · rintro ⟨_ | _, h⟩
    · exact Or.inl (ofName?_eq_include.mp h)
    · exact Or.inr (ofName?_eq_import.mp h)

theorem leftover_iff {t : Element} :
    Leftover t ↔ IsDirective t ∨ ∃ c ∈ t.children, Leftover c := by
  constructor
  · rintro ⟨x, hx, hdir⟩
    rcases Element.mem_elements.mp hx with rfl | ⟨c, hc, hxc⟩
    · exact Or.inl hdir
    · exact Or.inr ⟨c, hc, x, hxc, hdir⟩
  · rintro (hdir | ⟨c, hc, x, hx, hdir⟩)
    · exact ⟨t, Element.self_mem_elements t, hdir⟩
    · exact ⟨x, Element.mem_elements.mpr (Or.inr ⟨c, hc, hx⟩), hdir⟩

theorem leftover_congr {t u : Element}
    (h : t.elements.map Element.name = u.elements.map Element.name) :
    Leftover t ↔ Leftover u := by
  have hnames : ∀ v : Element,
      Leftover v ↔ ∃ n ∈ v.elements.map Element.name, n = "Include" ∨ n = "Import" := by
    intro v
    constructor
    · rintro ⟨x, hx, hdir⟩
      exact ⟨x.name, List.mem_map_of_mem hx, hdir⟩
    · rintro ⟨_, hn, hdir⟩
      obtain ⟨x, hx, rfl⟩ := List.mem_map.mp hn
      exact ⟨x, hx, hdir⟩
  rw [hnames, hnames, h]

/-! ### One document -/

/-- What stands in place of a child after the expansion. -/
def expandChild (splice : Directive → Element → Except ConfigError Element) (e : Element) :
    Except ConfigError Element :=
  match Directive.ofName? e.name with
  | some directive => splice directive e
  | none => expandBelow splice e

section

variable {splice : Directive → Element → Except ConfigError Element}

theorem expandList_cons_eq_ok {e : Element} {es ts : List Element} :
    expandList splice (e :: es) = .ok ts ↔
      ∃ t, expandChild splice e = .ok t ∧ ∃ rest, expandList splice es = .ok rest ∧
        t :: rest = ts := by
  rw [expandList, expandChild]
  cases Directive.ofName? e.name <;> simp only [bind_eq_ok, pure_eq_ok]

theorem expandBelow_eq_ok {e t : Element} :
    expandBelow splice e = .ok t ↔
      ∃ children, expandList splice e.children = .ok children ∧
        t = { e with children := children } := by
  obtain ⟨name, attributes, children, path, source⟩ := e
  simp only [expandBelow, bind_eq_ok, pure_eq_ok]
  exact exists_congr fun children => and_congr_right fun _ => eq_comm

theorem mem_expandList {es ts : List Element} (h : expandList splice es = .ok ts) {t : Element} :
    t ∈ ts ↔ ∃ e ∈ es, expandChild splice e = .ok t := by
  induction es generalizing ts with
  | nil =>
    rw [expandList] at h
    cases h
    simp
  | cons e es ih =>
    obtain ⟨first, hfirst, rest, hrest, rfl⟩ := expandList_cons_eq_ok.mp h
    simp only [List.mem_cons, exists_eq_or_imp, ih hrest, hfirst, Except.ok.injEq,
      eq_comm (a := t)]

theorem exists_expandChild {es ts : List Element} (h : expandList splice es = .ok ts)
    {e : Element} (he : e ∈ es) : ∃ t, expandChild splice e = .ok t := by
  induction es generalizing ts with
  | nil => cases he
  | cons first es ih =>
    obtain ⟨t, ht, rest, hrest, rfl⟩ := expandList_cons_eq_ok.mp h
    rcases List.mem_cons.mp he with rfl | he
    · exact ⟨t, ht⟩
    · exact ih hrest he

theorem expandChild_of_isDirective (splice : Directive → Element → Except ConfigError Element)
    {e : Element} (h : IsDirective e) :
    ∃ directive, Directive.ofName? e.name = some directive ∧
      expandChild splice e = splice directive e := by
  obtain ⟨directive, hdir⟩ := isDirective_iff.mp h
  exact ⟨directive, hdir, by rw [expandChild, hdir]⟩

theorem expandChild_of_not_isDirective {e : Element} (h : ¬ IsDirective e) :
    expandChild splice e = expandBelow splice e := by
  rw [expandChild]
  cases hdir : Directive.ofName? e.name with
  | none => rfl
  | some directive => exact absurd (isDirective_iff.mpr ⟨directive, hdir⟩) h

/-- Every directive that is not below another was put something in place of. -/
theorem exists_splice {e s t : Element} (h : expandBelow splice e = .ok t) (hsite : Site e s) :
    ∃ directive u, Directive.ofName? s.name = some directive ∧ splice directive s = .ok u := by
  induction hsite generalizing t with
  | child hs hdir =>
    obtain ⟨ts, hts, _⟩ := expandBelow_eq_ok.mp h
    obtain ⟨u, hu⟩ := exists_expandChild hts hs
    obtain ⟨directive, hname, hsplice⟩ := expandChild_of_isDirective splice hdir
    exact ⟨directive, u, hname, hsplice.symm.trans hu⟩
  | deeper hc hdir _ ih =>
    obtain ⟨ts, hts, _⟩ := expandBelow_eq_ok.mp h
    obtain ⟨u, hu⟩ := exists_expandChild hts hc
    exact ih ((expandChild_of_not_isDirective hdir).symm.trans hu)

/-- A directive in the result is the root or in what was put in place of another. -/
theorem leftover_expandBelow {e t : Element} (h : expandBelow splice e = .ok t) :
    Leftover t ↔ IsDirective e ∨ ∃ s directive u, Site e s ∧
      Directive.ofName? s.name = some directive ∧ splice directive s = .ok u ∧ Leftover u := by
  induction e using Element.induct generalizing t with
  | step name attributes children path source ih =>
    obtain ⟨ts, hts, rfl⟩ := expandBelow_eq_ok.mp h
    rw [leftover_iff]
    refine or_congr_right ?_
    constructor
    · rintro ⟨u, hu, hleft⟩
      obtain ⟨c, hc, hcu⟩ := (mem_expandList hts).mp hu
      by_cases hdir : IsDirective c
      · obtain ⟨directive, hname, hsplice⟩ := expandChild_of_isDirective splice hdir
        exact ⟨c, directive, u, .child hc hdir, hname, hsplice.symm.trans hcu, hleft⟩
      · rw [expandChild_of_not_isDirective hdir] at hcu
        rcases (ih c hc hcu).mp hleft with hroot | ⟨s, directive, v, hsite, hrest⟩
        · exact absurd hroot hdir
        · exact ⟨s, directive, v, .deeper hc hdir hsite, hrest⟩
    · rintro ⟨s, directive, u, hsite, hname, hsplice, hleft⟩
      cases hsite with
      | child hc hdir =>
        obtain ⟨directive', hname', hchild⟩ := expandChild_of_isDirective splice hdir
        obtain rfl : directive = directive' := Option.some.inj (hname.symm.trans hname')
        exact ⟨u, (mem_expandList hts).mpr ⟨s, hc, hchild.trans hsplice⟩, hleft⟩
      | @deeper _ c _ hc hdir hsite =>
        obtain ⟨v, hv⟩ := exists_expandChild hts hc
        have hbelow := (expandChild_of_not_isDirective hdir).symm.trans hv
        refine ⟨v, (mem_expandList hts).mpr ⟨c, hc, hv⟩, (ih c hc hbelow).mpr ?_⟩
        exact Or.inr ⟨s, directive, u, hsite, hname, hsplice, hleft⟩

end

/-! ### Documents that name documents -/

/-- What is put in place of a directive in a document that lies in `base`. -/
def splice (load : Loader) (limit : Nat) : Nat → String → Directive → Element →
    Except ConfigError Element
  | 0, base, _, e => do .error (.includeDepth limit (Path.join base (← Attribute.text e "href")))
  | remaining + 1, base, directive, e => do
    let file := Path.join base (← Attribute.text e "href")
    let document ← expand load limit remaining (← load file) (Path.directory file)
    pick directive e document file

theorem expand_eq_ok {load : Loader} {limit remaining : Nat} {root t : Element} {base : String} :
    expand load limit remaining root base = .ok t ↔
      ∃ resolved, Reference.resolveAll base root = .ok resolved ∧
        ∃ below, expandBelow (splice load limit remaining base) resolved = .ok below ∧
          below.reindex below.path = t := by
  cases remaining <;> rw [expand] <;> simp only [bind_eq_ok, pure_eq_ok] <;> rfl

theorem splice_zero_ne_ok {load : Loader} {limit : Nat} {base : String} {directive : Directive}
    {e u : Element} : splice load limit 0 base directive e ≠ .ok u := by
  intro h
  obtain ⟨_, _, herror⟩ := bind_eq_ok.mp h
  cases herror

theorem splice_succ_eq_ok {load : Loader} {limit remaining : Nat} {base : String}
    {directive : Directive} {e u : Element} :
    splice load limit (remaining + 1) base directive e = .ok u ↔
      ∃ href, e.attr? "href" = some href ∧ ∃ document, load (Path.join base href) = .ok document ∧
        ∃ expanded, expand load limit remaining document
            (Path.directory (Path.join base href)) = .ok expanded ∧
          pick directive e expanded (Path.join base href) = .ok u := by
  simp only [splice, bind_eq_ok, Attribute.text_eq_ok]

theorem leftover_setAttr {e : Element} {key value : String} :
    Leftover (e.setAttr key value) ↔ Leftover e :=
  leftover_congr (Element.map_name_setAttr e key value)

theorem pick_import_eq_ok {e document u : Element} {file : String} :
    pick .import_ e document file = .ok u ↔
      ∃ query, e.attr? "xpath" = some query ∧ ∃ node, document.select? query = some node ∧
        node.setAttr sourceKey file = u := by
  simp only [pick, bind_eq_ok, Attribute.text_eq_ok]
  refine exists_congr fun query => and_congr_right fun _ => ?_
  cases document.select? query <;> simp

theorem name_resolveAll {base : String} {root resolved : Element}
    (h : Reference.resolveAll base root = .ok resolved) : resolved.name = root.name := by
  obtain ⟨name, attributes, children, path, source⟩ := root
  simp only [Reference.resolveAll, bind_eq_ok, pure_eq_ok] at h
  obtain ⟨_, _, _, _, rfl⟩ := h
  rfl

theorem leftover_expand {load : Loader} {limit remaining : Nat} {root resolved t : Element}
    {base : String} (h : expand load limit remaining root base = .ok t)
    (hresolved : Reference.resolveAll base root = .ok resolved) :
    Leftover t ↔ IsDirective root ∨ ∃ s directive u, Site resolved s ∧
      Directive.ofName? s.name = some directive ∧
      splice load limit remaining base directive s = .ok u ∧ Leftover u := by
  obtain ⟨resolved', hresolved', below, hbelow, rfl⟩ := expand_eq_ok.mp h
  obtain rfl : resolved = resolved' := Except.ok.inj (hresolved.symm.trans hresolved')
  rw [leftover_congr (Element.map_elements_reindex (fun _ _ _ => rfl) _ _),
    leftover_expandBelow hbelow, IsDirective, name_resolveAll hresolved, ← IsDirective]

/-- What stands in place of an `Include` holds a directive if its document leaves one,
in place of an `Import` if the selected part holds one. -/
theorem leftover_pick_include {e expanded u : Element} {file : String}
    (h : pick .include_ e expanded file = .ok u) : Leftover u ↔ Leftover expanded := by
  obtain rfl : expanded.setAttr sourceKey file = u := Except.ok.inj h
  exact leftover_setAttr

theorem leftover_pick_import {e expanded node u : Element} {query file : String}
    (h : pick .import_ e expanded file = .ok u) (hquery : e.attr? "xpath" = some query)
    (hnode : expanded.select? query = some node) : Leftover u ↔ Leftover node := by
  obtain ⟨query', hquery', node', hnode', rfl⟩ := pick_import_eq_ok.mp h
  obtain rfl : query = query' := Option.some.inj (hquery.symm.trans hquery')
  obtain rfl : node = node' := Option.some.inj (hnode.symm.trans hnode')
  exact leftover_setAttr

/-- The document that a directive names was expanded, and the directive replaced. -/
theorem exists_pick {load : Loader} {limit remaining : Nat} {base href : String}
    {directive : Directive} {resolved below e document : Element}
    (h : expandBelow (splice load limit (remaining + 1) base) resolved = .ok below)
    (hsite : Site resolved e) (hname : Directive.ofName? e.name = some directive)
    (hhref : e.attr? "href" = some href) (hload : load (Path.join base href) = .ok document) :
    ∃ expanded u, splice load limit (remaining + 1) base directive e = .ok u ∧
      expand load limit remaining document (Path.directory (Path.join base href)) =
        .ok expanded ∧ pick directive e expanded (Path.join base href) = .ok u := by
  obtain ⟨directive', u, hname', hsplice⟩ := exists_splice h hsite
  obtain rfl : directive = directive' := Option.some.inj (hname.symm.trans hname')
  obtain ⟨href', hhref', document', hload', expanded, hexpand, hpick⟩ :=
    splice_succ_eq_ok.mp hsplice
  obtain rfl : href = href' := Option.some.inj (hhref.symm.trans hhref')
  obtain rfl : document = document' := Except.ok.inj (hload.symm.trans hload')
  exact ⟨expanded, u, hsplice, hexpand, hpick⟩

/-- An expansion leaves a directive exactly where one of the three reasons holds. -/
theorem leftover_expand_iff {load : Loader} {limit remaining : Nat} {root t : Element}
    {base : String} (h : expand load limit remaining root base = .ok t) :
    Leftover t ↔ Residue load limit remaining root base := by
  induction remaining generalizing root base t with
  | zero =>
    obtain ⟨resolved, hresolved, _⟩ := expand_eq_ok.mp h
    rw [leftover_expand h hresolved]
    -- At the last level no directive can be replaced, so only the root is left to be one.
    constructor
    · rintro (hdir | ⟨s, directive, u, _, _, hsplice, _⟩)
      · exact .root hdir
      · exact absurd hsplice splice_zero_ne_ok
    · rintro ⟨hdir⟩
      exact Or.inl hdir
  | succ remaining ih =>
    obtain ⟨resolved, hresolved, below, hbelow, _⟩ := expand_eq_ok.mp h
    rw [leftover_expand h hresolved]
    constructor
    · rintro (hdir | ⟨s, directive, u, hsite, hname, hsplice, hleft⟩)
      · exact .root hdir
      · obtain ⟨href, hhref, document, hload, expanded, hexpand, hpick⟩ :=
          splice_succ_eq_ok.mp hsplice
        cases directive with
        | include_ =>
          exact .included hresolved hsite (ofName?_eq_include.mp hname) hhref hload
            ((ih hexpand).mp ((leftover_pick_include hpick).mp hleft))
        | import_ =>
          obtain ⟨query, hquery, node, hnode, _⟩ := pick_import_eq_ok.mp hpick
          exact .imported hresolved hsite (ofName?_eq_import.mp hname) hhref hload hexpand hquery
            hnode ((leftover_pick_import hpick hquery hnode).mp hleft)
    · intro hresidue
      cases hresidue with
      | root hdir => exact Or.inl hdir
      | @included _ _ resolved' e document _ href hresolved' hsite hname hhref hload hrest =>
        obtain rfl : resolved = resolved' := Except.ok.inj (hresolved.symm.trans hresolved')
        have hdir := ofName?_eq_include.mpr hname
        obtain ⟨expanded, u, hsplice, hexpand, hpick⟩ := exists_pick hbelow hsite hdir hhref hload
        have hleft := (leftover_pick_include hpick).mpr ((ih hexpand).mpr hrest)
        exact Or.inr ⟨e, _, u, hsite, hdir, hsplice, hleft⟩
      | @imported _ _ resolved' e document expanded node _ href query hresolved' hsite hname hhref
          hload hexpand hquery hnode hrest =>
        obtain rfl : resolved = resolved' := Except.ok.inj (hresolved.symm.trans hresolved')
        have hdir := ofName?_eq_import.mpr hname
        obtain ⟨expanded', u, hsplice, hexpand', hpick⟩ := exists_pick hbelow hsite hdir hhref hload
        obtain rfl : expanded = expanded' := Except.ok.inj (hexpand.symm.trans hexpand')
        have hleft := (leftover_pick_import hpick hquery hnode).mpr hrest
        exact Or.inr ⟨e, _, u, hsite, hdir, hsplice, hleft⟩

/-- The result of an expansion, whether of a given root or of a file, is free of
directives exactly where none of the three reasons holds. -/
theorem no_directive_left_iff (load : Loader) (limit : Nat) :
    (∀ root base t, preprocess load limit root base = .ok t →
      ((∀ x ∈ t.elements, ¬ IsDirective x) ↔ ¬ Residue load limit limit root base)) ∧
    ∀ path t, openWith load limit path = .ok t →
      ∃ root, load path = .ok root ∧ ((∀ x ∈ t.elements, ¬ IsDirective x) ↔
        ¬ Residue load limit limit root (Path.directory path)) := by
  have hpreprocess : ∀ root base t, preprocess load limit root base = .ok t →
      ((∀ x ∈ t.elements, ¬ IsDirective x) ↔ ¬ Residue load limit limit root base) := by
    intro root base t h
    rw [← leftover_expand_iff h]
    exact ⟨fun hclean ⟨x, hx, hdir⟩ => hclean x hx hdir, fun hnot x hx hdir => hnot ⟨x, hx, hdir⟩⟩
  refine ⟨hpreprocess, fun path t h => ?_⟩
  obtain ⟨root, hload, hroot⟩ := bind_eq_ok.mp h
  exact ⟨root, hload, hpreprocess root _ t hroot⟩

/-- The root of the last file below. -/
def chainedLeaf : Element := ⟨"Leaf", [], [], "/Leaf", some "/d/b.xml"⟩

/-- A file whose root names another file. -/
def chained : Loader := fun path =>
  if path = "/d/a.xml" then
    .ok ⟨"Include", [("href", "b.xml")], [], "/Include", some "/d/a.xml"⟩
  else if path = "/d/b.xml" then .ok chainedLeaf
  else .error (.io path .absent)

/-- A document that names that file. -/
def chainedSystem : Element :=
  ⟨"System", [], [⟨"Include", [("href", "a.xml")], [], "/System/Include", none⟩], "/System", none⟩

/-- Its expansion still has the second `Include`. -/
def chainedResult : Element where
  name := "System"
  attributes := []
  children := [⟨"Include", [("href", "b.xml"), (sourceKey, "/d/a.xml")], [], "/System/Include",
    some "/d/a.xml"⟩]
  path := "/System"
  source := none

theorem no_directive_left_iff_chained :
    ((∀ x ∈ chainedResult.elements, ¬ IsDirective x) ↔
      ¬ Residue chained defaultDepth defaultDepth chainedSystem "/d") ∧
    ∃ root, chained "/d/b.xml" = .ok root ∧ ((∀ x ∈ chainedLeaf.elements, ¬ IsDirective x) ↔
      ¬ Residue chained defaultDepth defaultDepth root (Path.directory "/d/b.xml")) :=
  ⟨(no_directive_left_iff chained defaultDepth).1 _ _ _ rfl,
    (no_directive_left_iff chained defaultDepth).2 _ _ rfl⟩

theorem include_left_chained :
    preprocess chained defaultDepth chainedSystem "/d" = .ok chainedResult ∧
      ¬ ∀ x ∈ chainedResult.elements, ¬ IsDirective x :=
  ⟨rfl, by decide⟩

end MotionRack.Expansion
