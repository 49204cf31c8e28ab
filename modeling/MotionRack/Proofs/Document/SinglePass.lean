import MotionRack.Proofs.Document.Content
import MotionRack.Proofs.Document.Reference
import MotionRack.Proofs.Document.Residue

/-!
# Expansion in one pass

A reference expansion that goes through every document once: it replaces each reference
where it stands, against the directory of its own document, and puts the part of
another document in place of a directive without looking at it again. The root is kept,
whatever its name. Whatever the expansion in two passes gives says the same. That it gives
something where the reference does is not claimed: the two passes also read references
below a directive, which the reference never looks at.
-/
namespace MotionRack.Expansion

open Reference (substitute? resolve? StandsFor)

mutual
/-- An element with its references replaced and the directives below it taken out for
what `splice` makes of them. -/
def singlePass (splice : Directive → Element → Option Element) (base : String) :
    Element → Option Element
  | ⟨name, attributes, children, path, source⟩ => do
    return ⟨name, ← substitute? base attributes, ← singlePassAll splice base children, path,
      source⟩

/-- The children of an element in one pass. -/
def singlePassAll (splice : Directive → Element → Option Element) (base : String) :
    List Element → Option (List Element)
  | [] => some []
  | e :: es => do
    let first ← match Directive.ofName? e.name with
      | some directive => splice directive e
      | none => singlePass splice base e
    return first :: (← singlePassAll splice base es)
end

/-- What an attribute of an element stands for in a document that lies in `base`. -/
def reading? (base : String) (e : Element) (key : String) : Option String :=
  (e.attr? key).bind (resolve? base)

/-- What the reference puts in place of a directive of a document in `base`, where `nested`
expands the document that it names. -/
def standIn? (load : Loader) (nested : Element → String → Option Element) (base : String)
    (directive : Directive) (e : Element) : Option Element := do
  let file := Path.join base (← reading? base e "href")
  let document ← (load file).toOption
  let expanded ← nested document (Path.directory file)
  let part ← match directive with
    | .include_ => some expanded
    | .import_ => (reading? base e "xpath").bind expanded.select?
  return part.setAttr sourceKey file

/-- The expansion of a document in one pass. Documents may name each other `remaining`
levels deeper. -/
def expandOnce (load : Loader) : Nat → Element → String → Option Element
  | 0, root, base => singlePass (fun _ _ => none) base root
  | remaining + 1, root, base =>
    singlePass (standIn? load (expandOnce load remaining) base) base root

/-! ### One document -/

section

variable {splice : Directive → Element → Except ConfigError Element}
  {splice' : Directive → Element → Option Element} {base : String}

/-- What stands in place of a child in one pass. -/
def singlePassChild (splice : Directive → Element → Option Element) (base : String)
    (e : Element) : Option Element :=
  match Directive.ofName? e.name with
  | some directive => splice directive e
  | none => singlePass splice base e

theorem singlePassAll_cons (e : Element) (es : List Element) :
    singlePassAll splice' base (e :: es) =
      (singlePassChild splice' base e).bind fun first =>
        (singlePassAll splice' base es).map (first :: ·) := by
  rw [singlePassAll, singlePassChild]
  cases Directive.ofName? e.name with
  | some directive => cases splice' directive e <;> cases singlePassAll splice' base es <;> rfl
  | none => cases singlePass splice' base e <;> cases singlePassAll splice' base es <;> rfl

/-- Whether one way to replace directives says what another one says of them once their
references are replaced. -/
def Follows (splice' : Directive → Element → Option Element)
    (splice : Directive → Element → Except ConfigError Element) (base : String) : Prop :=
  ∀ directive e resolved t, Reference.resolveAll base e = .ok resolved →
    splice directive resolved = .ok t →
    ∃ r, splice' directive e = some r ∧ r.content = t.content

theorem singlePassAll_of_expandList (hsplice : Follows splice' splice base)
    {es resolved ts : List Element}
    (ih : ∀ e ∈ es, ∀ r t, Reference.resolveAll base e = .ok r → expandBelow splice r = .ok t →
      ∃ u, singlePass splice' base e = some u ∧ u.content = t.content)
    (hresolved : Reference.resolveList base es = .ok resolved)
    (hts : expandList splice resolved = .ok ts) :
    ∃ us, singlePassAll splice' base es = some us ∧
      us.map Element.content = ts.map Element.content := by
  induction es generalizing resolved ts with
  | nil =>
    obtain rfl : [] = resolved := Except.ok.inj hresolved
    obtain rfl : [] = ts := Except.ok.inj hts
    exact ⟨[], rfl, rfl⟩
  | cons e es ihes =>
    obtain ⟨first, hfirst, rest, hrest, rfl⟩ := Reference.resolveList_cons_eq_ok.mp hresolved
    obtain ⟨t, ht, ts', hts', rfl⟩ := expandList_cons_eq_ok.mp hts
    obtain ⟨us, hus, hcontents⟩ := ihes (fun d hd => ih d (List.mem_cons_of_mem e hd)) hrest hts'
    have hhead : ∃ u, singlePassChild splice' base e = some u ∧ u.content = t.content := by
      rw [expandChild, name_resolveAll hfirst] at ht
      rw [singlePassChild]
      cases hname : Directive.ofName? e.name with
      | some directive =>
        rw [hname] at ht
        exact hsplice directive e first t hfirst ht
      | none =>
        rw [hname] at ht
        exact ih e List.mem_cons_self first t hfirst ht
    obtain ⟨u, hu, hcontent⟩ := hhead
    refine ⟨u :: us, ?_, ?_⟩
    · rw [singlePassAll_cons, hu, hus]
      rfl
    · rw [List.map_cons, List.map_cons, hcontent, hcontents]

theorem singlePass_of_expandBelow (hsplice : Follows splice' splice base) {e resolved t : Element}
    (hresolved : Reference.resolveAll base e = .ok resolved)
    (ht : expandBelow splice resolved = .ok t) :
    ∃ u, singlePass splice' base e = some u ∧ u.content = t.content := by
  induction e using Element.induct generalizing resolved t with
  | step name attributes children path source ih =>
    obtain ⟨attributes', hattributes, children', hchildren, rfl⟩ :=
      Reference.resolveAll_eq_ok.mp hresolved
    obtain ⟨ts, hts, rfl⟩ := expandBelow_eq_ok.mp ht
    obtain ⟨us, hus, hcontents⟩ := singlePassAll_of_expandList hsplice
      (fun c hc r u hr hu => ih c hc hr hu) hchildren hts
    refine ⟨⟨name, attributes', us, path, source⟩, ?_, ?_⟩
    · rw [singlePass, hattributes, hus]
      rfl
    · rw [Element.content_eq, Element.content_eq, hcontents]

end

/-! ### Documents that name documents -/

theorem follows_splice_zero (load : Loader) (limit : Nat) (base : String) :
    Follows (fun _ _ => none) (splice load limit 0 base) base :=
  fun _ _ _ _ _ ht => absurd ht splice_zero_ne_ok

/-- A directive is followed if the expansion of the document that it names is. -/
theorem follows_splice_succ {load : Loader} {limit remaining : Nat}
    {nested : Element → String → Option Element}
    (hnested : ∀ document dir expanded, expand load limit remaining document dir = .ok expanded →
      ∃ r, nested document dir = some r ∧ r.content = expanded.content) (base : String) :
    Follows (standIn? load nested base) (splice load limit (remaining + 1) base) base := by
  intro directive e resolved t hresolved ht
  obtain ⟨href, hhref, document, hload, expanded, hexpand, hpick⟩ := splice_succ_eq_ok.mp ht
  obtain ⟨r, hr, hcontent⟩ := hnested document _ expanded hexpand
  have hreading : reading? base e "href" = some href :=
    (Reference.attr?_resolveAll hresolved "href").symm.trans hhref
  have hdocument : (load (Path.join base href)).toOption = some document := by rw [hload]; rfl
  cases directive with
  | include_ =>
    obtain rfl : expanded.setAttr sourceKey (Path.join base href) = t := Except.ok.inj hpick
    refine ⟨r.setAttr sourceKey (Path.join base href), ?_, ?_⟩
    · simp only [standIn?, hreading, hdocument, hr, Option.bind_eq_bind, Option.bind_some,
        Option.pure_def]
    · rw [Element.content_setAttr, Element.content_setAttr, hcontent]
  | import_ =>
    obtain ⟨query, hquery, node, hnode, rfl⟩ := pick_import_eq_ok.mp hpick
    have hxpath : reading? base e "xpath" = some query :=
      (Reference.attr?_resolveAll hresolved "xpath").symm.trans hquery
    -- The query sees the same names in both documents, so it selects the same part.
    have hselect : (r.select? query).map Element.content = some node.content := by
      rw [← Element.select?_content, hcontent, Element.select?_content, hnode, Option.map_some]
    obtain ⟨part, hpart, hsame⟩ := Option.map_eq_some_iff.mp hselect
    refine ⟨part.setAttr sourceKey (Path.join base href), ?_, ?_⟩
    · simp only [standIn?, hreading, hdocument, hr, hxpath, hpart, Option.bind_eq_bind,
        Option.bind_some, Option.pure_def]
    · rw [Element.content_setAttr, Element.content_setAttr, hsame]

theorem expandOnce_of_expand {load : Loader} {limit remaining : Nat} {root t : Element}
    {base : String} (h : expand load limit remaining root base = .ok t) :
    ∃ r, expandOnce load remaining root base = some r ∧ r.content = t.content := by
  induction remaining generalizing root base t with
  | zero =>
    obtain ⟨resolved, hresolved, below, hbelow, rfl⟩ := expand_eq_ok.mp h
    rw [expandOnce, Element.content_reindex]
    exact singlePass_of_expandBelow (follows_splice_zero load limit base) hresolved hbelow
  | succ remaining ih =>
    obtain ⟨resolved, hresolved, below, hbelow, rfl⟩ := expand_eq_ok.mp h
    rw [expandOnce, Element.content_reindex]
    exact singlePass_of_expandBelow
      (follows_splice_succ (fun _ _ _ hexpand => ih hexpand) base) hresolved hbelow

/-- References stand for what the rule says, and an expansion that succeeds says what the
reference says: each reference replaced once and in its own document, each directive
replaced by the part of the named document that the reference puts there. -/
theorem expansion_agrees_expandOnce (load : Loader) (limit : Nat) :
    (∀ base value result, resolve? base value = some result ↔ StandsFor base value result) ∧
    ∀ root base t, preprocess load limit root base = .ok t →
      ∃ r, expandOnce load limit root base = some r ∧ t.agrees r = true := by
  refine ⟨fun base value result => Reference.resolve?_eq_some_iff, ?_⟩
  intro root base t h
  obtain ⟨r, hr, hcontent⟩ := expandOnce_of_expand h
  exact ⟨r, hr, (Element.agrees_iff t r).mpr hcontent.symm⟩

/-- A library with one part that is imported, which names a file beside the library. -/
def shelf : Loader := fun path =>
  if path = "/d/lib/a.xml" then
    .ok ⟨"Library", [], [⟨"Port", [("name", "$$x")],
      [⟨"Include", [("href", "b.xml")], [], "/Library/Port/Include", some path⟩],
      "/Library/Port", some path⟩], "/Library", some path⟩
  else if path = "/d/lib/b.xml" then .ok ⟨"Leaf", [], [], "/Leaf", some path⟩
  else .error (.io path .absent)

/-- A document that imports the part. -/
def shelfSystem : Element :=
  ⟨"System", [], [⟨"Import", [("href", "lib/a.xml"), ("xpath", "Port")], [], "/System/Import",
    none⟩], "/System", none⟩

/-- Its expansion: the escape is undone once, and the inner file was found beside the library. -/
def shelfResult : Element :=
  ⟨"System", [], [⟨"Port", [("name", "$x"), (sourceKey, "/d/lib/a.xml")],
    [⟨"Leaf", [(sourceKey, "/d/lib/b.xml")], [], "/System/Port/Leaf", some "/d/lib/b.xml"⟩],
    "/System/Port", some "/d/lib/a.xml"⟩], "/System", none⟩

theorem expansion_agrees_expandOnce_shelf :
    preprocess shelf defaultDepth shelfSystem "/d" = .ok shelfResult ∧
      ∃ r, expandOnce shelf defaultDepth shelfSystem "/d" = some r ∧
        shelfResult.agrees r = true := by
  have hrun : preprocess shelf defaultDepth shelfSystem "/d" = .ok shelfResult := rfl
  exact ⟨hrun, (expansion_agrees_expandOnce shelf defaultDepth).2 _ _ _ hrun⟩

end MotionRack.Expansion
