import MotionRack.Proofs.Document.Bare
import MotionRack.Proofs.Document.Residue

/-!
# Documents within documents

A document says the same wherever it is read: on its own, or put into another document in place of
an `Include`, at any depth and by way of an `Import` too. An expansion that succeeds does not
depend on how deep documents may name each other, and what it puts in place of an `Include`
is the expansion of the named document but for places and origins.
-/
namespace MotionRack

namespace Element

/-- The element at a place, told by the position of a child at every level. -/
def at? (e : Element) : List Nat → Option Element
  | [] => some e
  | position :: rest => e.children[position]?.bind fun c => c.at? rest

theorem at?_append (e : Element) (place rest : List Nat) :
    e.at? (place ++ rest) = (e.at? place).bind (·.at? rest) := by
  induction place generalizing e with
  | nil => rfl
  | cons position place ih =>
    rw [List.cons_append, at?, at?]
    cases e.children[position]? with
    | none => rfl
    | some c => exact ih c

theorem at?_bare (e : Element) (place : List Nat) :
    e.bare.at? place = (e.at? place).map bare := by
  induction place generalizing e with
  | nil => rfl
  | cons position place ih =>
    rw [at?, at?, children_bare, List.getElem?_map]
    cases e.children[position]? with
    | none => rfl
    | some c => exact ih c

end Element

namespace Expansion

open Element (bare at?)

/-! ### How deep documents may name each other -/

section

variable {splice splice' : Directive → Element → Except ConfigError Element}

theorem expandList_mono {es ts : List Element}
    (h : ∀ e ∈ es, ∀ t, expandChild splice e = .ok t → expandChild splice' e = .ok t)
    (hts : expandList splice es = .ok ts) : expandList splice' es = .ok ts := by
  induction es generalizing ts with
  | nil => exact hts
  | cons e es ih =>
    obtain ⟨hfirst, hothers⟩ := List.forall_mem_cons.mp h
    obtain ⟨t, ht, rest, hrest, rfl⟩ := expandList_cons_eq_ok.mp hts
    exact expandList_cons_eq_ok.mpr ⟨t, hfirst t ht, rest, ih hothers hrest, rfl⟩

theorem expandBelow_mono
    (h : ∀ directive e u, splice directive e = .ok u → splice' directive e = .ok u)
    {e t : Element} (ht : expandBelow splice e = .ok t) : expandBelow splice' e = .ok t := by
  induction e using Element.induct generalizing t with
  | step name attributes children path source ih =>
    obtain ⟨ts, hts, rfl⟩ := expandBelow_eq_ok.mp ht
    refine expandBelow_eq_ok.mpr ⟨ts, expandList_mono (fun c hc u hu => ?_) hts, rfl⟩
    rw [expandChild] at hu ⊢
    cases hname : Directive.ofName? c.name with
    | none =>
      rw [hname] at hu
      exact ih c hc hu
    | some directive =>
      rw [hname] at hu
      exact h directive c u hu

end

section

variable {load : Loader} {limit : Nat}

/-- One more level does not change an expansion that succeeds. -/
theorem expand_succ {remaining : Nat} {root t : Element} {base : String}
    (h : expand load limit remaining root base = .ok t) :
    expand load limit (remaining + 1) root base = .ok t := by
  induction remaining generalizing root base t with
  | zero =>
    obtain ⟨resolved, hresolved, below, hbelow, ht⟩ := expand_eq_ok.mp h
    refine expand_eq_ok.mpr ⟨resolved, hresolved, below, expandBelow_mono ?_ hbelow, ht⟩
    exact fun directive e u hu => absurd hu splice_zero_ne_ok
  | succ remaining ih =>
    obtain ⟨resolved, hresolved, below, hbelow, ht⟩ := expand_eq_ok.mp h
    refine expand_eq_ok.mpr ⟨resolved, hresolved, below, expandBelow_mono ?_ hbelow, ht⟩
    intro directive e u hu
    obtain ⟨href, hhref, document, hload, expanded, hexpand, hpick⟩ := splice_succ_eq_ok.mp hu
    exact splice_succ_eq_ok.mpr ⟨href, hhref, document, hload, expanded, ih hexpand, hpick⟩

theorem expand_mono {remaining more : Nat} {root t : Element} {base : String}
    (h : expand load limit remaining root base = .ok t) (hle : remaining ≤ more) :
    expand load limit more root base = .ok t := by
  induction hle with
  | refl => exact h
  | step _ ih => exact expand_succ ih

theorem expand_unique {remaining remaining' : Nat} {root t t' : Element} {base : String}
    (h : expand load limit remaining root base = .ok t)
    (h' : expand load limit remaining' root base = .ok t') : t = t' := by
  have hmax := expand_mono h (Nat.le_max_left remaining remaining')
  rw [expand_mono h' (Nat.le_max_right remaining remaining')] at hmax
  exact (Except.ok.inj hmax).symm

end

/-! ### Places of directives -/

/-- Whether a directive that is not below another one stands at a place. -/
inductive SiteAt : Element → List Nat → Element → Prop
  | child {e s : Element} {position : Nat} :
      e.children[position]? = some s → IsDirective s → SiteAt e [position] s
  | deeper {e c s : Element} {position : Nat} {rest : List Nat} :
      e.children[position]? = some c → ¬ IsDirective c → SiteAt c rest s →
      SiteAt e (position :: rest) s

theorem getElem?_expandList {splice : Directive → Element → Except ConfigError Element}
    {es ts : List Element} (h : expandList splice es = .ok ts) {position : Nat} {e : Element}
    (he : es[position]? = some e) : ∃ t, ts[position]? = some t ∧ expandChild splice e = .ok t := by
  induction es generalizing ts position with
  | nil => cases he
  | cons first es ih =>
    obtain ⟨t, ht, rest, hrest, rfl⟩ := expandList_cons_eq_ok.mp h
    cases position with
    | zero =>
      obtain rfl : first = e := Option.some.inj he
      exact ⟨t, rfl, ht⟩
    | succ position => exact ih hrest he

/-- What was put in place of a directive stands where the directive stood. -/
theorem at?_expandBelow {splice : Directive → Element → Except ConfigError Element}
    {e s t : Element} {place : List Nat} (h : expandBelow splice e = .ok t)
    (hsite : SiteAt e place s) :
    ∃ directive u, Directive.ofName? s.name = some directive ∧ splice directive s = .ok u ∧
      t.at? place = some u := by
  induction hsite generalizing t with
  | child hs hdir =>
    obtain ⟨ts, hts, rfl⟩ := expandBelow_eq_ok.mp h
    obtain ⟨u, hu, hchild⟩ := getElem?_expandList hts hs
    obtain ⟨directive, hname, hsplice⟩ := expandChild_of_isDirective splice hdir
    refine ⟨directive, u, hname, hsplice.symm.trans hchild, ?_⟩
    rw [at?, hu]
    rfl
  | deeper hc hdir _ ih =>
    obtain ⟨ts, hts, rfl⟩ := expandBelow_eq_ok.mp h
    obtain ⟨v, hv, hchild⟩ := getElem?_expandList hts hc
    obtain ⟨directive, u, hname, hsplice, hat⟩ :=
      ih ((expandChild_of_not_isDirective hdir).symm.trans hchild)
    refine ⟨directive, u, hname, hsplice, ?_⟩
    rw [at?, hv]
    exact hat

/-- Whether the part of an expanded document at a place stands for a file: there is an `Include` of
it in the document itself, or in one that was put there as a whole or in part. -/
inductive IncludedAt (load : Loader) (limit : Nat) :
    Nat → Element → String → List Nat → String → Prop
  | direct {remaining : Nat} {root resolved s : Element} {base href : String} {place : List Nat} :
      Reference.resolveAll base root = .ok resolved → SiteAt resolved place s →
      s.name = "Include" → s.attr? "href" = some href →
      IncludedAt load limit (remaining + 1) root base place (Path.join base href)
  | byInclude {remaining : Nat} {root resolved s document : Element} {base href file : String}
      {place rest : List Nat} :
      Reference.resolveAll base root = .ok resolved → SiteAt resolved place s →
      s.name = "Include" → s.attr? "href" = some href →
      load (Path.join base href) = .ok document →
      IncludedAt load limit remaining document (Path.directory (Path.join base href)) rest file →
      IncludedAt load limit (remaining + 1) root base (place ++ rest) file
  | byImport {remaining : Nat} {root resolved s document expanded node : Element}
      {base href query file : String} {place chosen rest : List Nat} :
      Reference.resolveAll base root = .ok resolved → SiteAt resolved place s →
      s.name = "Import" → s.attr? "href" = some href →
      load (Path.join base href) = .ok document →
      expand load limit remaining document (Path.directory (Path.join base href)) =
        .ok expanded →
      s.attr? "xpath" = some query → expanded.select? query = some node →
      expanded.at? chosen = some node →
      IncludedAt load limit remaining document (Path.directory (Path.join base href))
        (chosen ++ rest) file →
      IncludedAt load limit (remaining + 1) root base (place ++ rest) file

section

variable {load : Loader} {limit : Nat}

/-- What an expansion put in place of a directive that stands at a place. -/
theorem exists_pick_at {remaining : Nat} {root resolved s t : Element} {base href : String}
    {place : List Nat} {directive : Directive}
    (h : expand load limit (remaining + 1) root base = .ok t)
    (hresolved : Reference.resolveAll base root = .ok resolved) (hsite : SiteAt resolved place s)
    (hname : Directive.ofName? s.name = some directive) (hhref : s.attr? "href" = some href) :
    ∃ document, load (Path.join base href) = .ok document ∧
      ∃ expanded, expand load limit remaining document
          (Path.directory (Path.join base href)) = .ok expanded ∧
        ∃ u, pick directive s expanded (Path.join base href) = .ok u ∧
          t.bare.at? place = some u.bare := by
  obtain ⟨resolved', hresolved', below, hbelow, rfl⟩ := expand_eq_ok.mp h
  obtain rfl : resolved = resolved' := Except.ok.inj (hresolved.symm.trans hresolved')
  obtain ⟨directive', u, hname', hsplice, hat⟩ := at?_expandBelow hbelow hsite
  obtain rfl : directive = directive' := Option.some.inj (hname.symm.trans hname')
  obtain ⟨href', hhref', document, hload, expanded, hexpand, hpick⟩ := splice_succ_eq_ok.mp hsplice
  obtain rfl : href = href' := Option.some.inj (hhref.symm.trans hhref')
  refine ⟨document, hload, expanded, hexpand, u, hpick, ?_⟩
  rw [Element.bare_reindex, Element.at?_bare, hat, Option.map_some]

theorem bare_pick_include {e document u : Element} {file : String}
    (h : pick .include_ e document file = .ok u) : u.bare = document.bare := by
  obtain rfl : document.setAttr sourceKey file = u := Except.ok.inj h
  exact Element.bare_setAttr_sourceKey document file

theorem bare_pick_import {e document node u : Element} {query file : String}
    (h : pick .import_ e document file = .ok u) (hquery : e.attr? "xpath" = some query)
    (hnode : document.select? query = some node) : u.bare = node.bare := by
  obtain ⟨query', hquery', node', hnode', rfl⟩ := pick_import_eq_ok.mp h
  obtain rfl : query = query' := Option.some.inj (hquery.symm.trans hquery')
  obtain rfl : node = node' := Option.some.inj (hnode.symm.trans hnode')
  exact Element.bare_setAttr_sourceKey node file

/-- The part that stands for a file says what the file says when it is expanded on its own. -/
theorem IncludedAt.exists_bare {remaining : Nat} {root : Element} {base file : String}
    {place : List Nat} (h : IncludedAt load limit remaining root base place file) {t : Element}
    (ht : expand load limit remaining root base = .ok t) :
    ∃ document, load file = .ok document ∧
      ∃ depth expanded, expand load limit depth document (Path.directory file) = .ok expanded ∧
        t.bare.at? place = some expanded.bare := by
  induction h generalizing t with
  | direct hresolved hsite hname hhref =>
    obtain ⟨document, hload, expanded, hexpand, u, hpick, hat⟩ :=
      exists_pick_at ht hresolved hsite (ofName?_eq_include.mpr hname) hhref
    rw [bare_pick_include hpick] at hat
    exact ⟨document, hload, _, expanded, hexpand, hat⟩
  | byInclude hresolved hsite hname hhref hload _ ih =>
    obtain ⟨document', hload', expanded, hexpand, u, hpick, hat⟩ :=
      exists_pick_at ht hresolved hsite (ofName?_eq_include.mpr hname) hhref
    obtain rfl := Except.ok.inj (hload.symm.trans hload')
    obtain ⟨inner, hinner, depth, found, hfound, hrest⟩ := ih hexpand
    refine ⟨inner, hinner, depth, found, hfound, ?_⟩
    rw [Element.at?_append, hat, bare_pick_include hpick]
    exact hrest
  | byImport hresolved hsite hname hhref hload hexpand hquery hnode hchosen _ ih =>
    obtain ⟨document', hload', expanded', hexpand', u, hpick, hat⟩ :=
      exists_pick_at ht hresolved hsite (ofName?_eq_import.mpr hname) hhref
    obtain rfl := Except.ok.inj (hload.symm.trans hload')
    obtain rfl := Except.ok.inj (hexpand.symm.trans hexpand')
    obtain ⟨inner, hinner, depth, found, hfound, hrest⟩ := ih hexpand
    refine ⟨inner, hinner, depth, found, hfound, ?_⟩
    rw [Element.at?_append, Element.at?_bare, hchosen] at hrest
    rw [Element.at?_append, hat, bare_pick_import hpick hquery hnode]
    exact hrest

/-- In a file that is opened, the part that stands for another file says what that file says when
it is opened on its own. -/
theorem IncludedAt.bare_eq {read : FileReader} {path file : String} {document root opened : Element}
    {place : List Nat} (hdocument : fileLoader read path = .ok document)
    (h : IncludedAt (fileLoader read) defaultDepth defaultDepth document (Path.directory path)
      place file)
    (hroot : openFile read path = .ok root) (hopened : openFile read file = .ok opened) :
    root.bare.at? place = some opened.bare := by
  obtain ⟨document', hdocument', hexpand⟩ := bind_eq_ok.mp hroot
  obtain rfl : document = document' := Except.ok.inj (hdocument.symm.trans hdocument')
  obtain ⟨inner, hinner, depth, expanded, hexpanded, hat⟩ := h.exists_bare hexpand
  obtain ⟨inner', hinner', hopened⟩ := bind_eq_ok.mp hopened
  obtain rfl : inner = inner' := Except.ok.inj (hinner.symm.trans hinner')
  rw [hat, expand_unique hexpanded hopened]

end

end Expansion
end MotionRack
