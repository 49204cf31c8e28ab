import MotionRack.Proofs.Document.Request
import MotionRack.Proofs.Files.Path

/-!
# Directives that name their file by a reference

A directive can name a relative path as it is or behind `$PATH:`. A reference is replaced by
a path that is seen from the directory of the document already, and the directive takes that
path from the directory once more. This is harmless exactly where taking a path from the
directory twice is: for an absolute directory, or without one.
-/
namespace MotionRack

/-- Whether two computations fail alike or give related results. -/
def Alike {α β : Type} (R : α → β → Prop) : Except ConfigError α → Except ConfigError β → Prop
  | .ok a, .ok b => R a b
  | .error x, .error y => x = y
  | _, _ => False

theorem Alike.bind {α β γ δ : Type} {R : α → β → Prop} {Q : γ → δ → Prop}
    {x : Except ConfigError α} {y : Except ConfigError β} {f : α → Except ConfigError γ}
    {g : β → Except ConfigError δ} (h : Alike R x y) (hnext : ∀ a b, R a b → Alike Q (f a) (g b)) :
    Alike Q (x >>= f) (y >>= g) := by
  cases x with
  | error e => cases y with
    | error e' => exact h
    | ok b => exact h.elim
  | ok a => cases y with
    | error e' => exact h.elim
    | ok b => exact hnext a b h

theorem Alike.refl {α : Type} {R : α → α → Prop} (hR : ∀ a, R a a) (x : Except ConfigError α) :
    Alike R x x := by
  cases x with
  | error e => exact rfl
  | ok a => exact hR a

namespace Expansion

open Reference (resolve? resolveAttributes resolveAll resolveList)

/-- A relative path that is no reference. -/
def IsPlain (rel : String) : Prop :=
  rel ≠ "" ∧ rel.toList.head? ≠ some '/' ∧ rel.toList.head? ≠ some '$'

theorem IsPlain.isAbsolute_eq_false {rel : String} (h : IsPlain rel) :
    Path.isAbsolute rel = false := by
  unfold Path.isAbsolute
  exact beq_eq_false_iff_ne.mpr h.2.1

/-- Attributes with `$PATH:` in front of an `href` that is `rel`. -/
def respellHref (rel : String) : List (String × String) → List (String × String)
  | [] => []
  | (key, value) :: rest =>
    (key, if key = "href" ∧ value = rel then "$PATH:" ++ rel else value) :: respellHref rel rest

mutual
/-- An element in which the chosen directives, the element itself among them, name the path
`rel` behind `$PATH:`. -/
def respell (rel : String) (chosen : Element → Bool) : Element → Element
  | ⟨name, attributes, children, path, source⟩ =>
    ⟨name,
      if (Directive.ofName? name).isSome && chosen ⟨name, attributes, children, path, source⟩ then
        respellHref rel attributes
      else attributes,
      respellAll rel chosen children, path, source⟩

/-- Elements in which the chosen directives name the path `rel` behind `$PATH:`. -/
def respellAll (rel : String) (chosen : Element → Bool) : List Element → List Element
  | [] => []
  | e :: es => respell rel chosen e :: respellAll rel chosen es
end

/-- A document in which the chosen directives below the root name the path `rel` behind
`$PATH:`. -/
def respellBelow (rel : String) (chosen : Element → Bool) (root : Element) : Element :=
  { root with children := respellAll rel chosen root.children }

/-! ### What a directive is asked for -/

/-- Whether two directives of documents in `base` make the same requests. -/
structure SameRequest (base : String) (d e : Element) : Prop where
  name : d.name = e.name
  location : d.location = e.location
  xpath : d.attr? "xpath" = e.attr? "xpath"
  file : (d.attr? "href").map (Path.join base) = (e.attr? "href").map (Path.join base)

theorem SameRequest.text_xpath {base : String} {d e : Element} (h : SameRequest base d e) :
    Attribute.text d "xpath" = Attribute.text e "xpath" := by
  rw [Attribute.text, Attribute.text, h.xpath, h.location]

theorem SameRequest.pick {base : String} {d e : Element} (h : SameRequest base d e)
    (directive : Directive) (document : Element) (file : String) :
    pick directive d document file = pick directive e document file := by
  cases directive with
  | include_ => rfl
  | import_ => rw [Expansion.pick, Expansion.pick, h.text_xpath]

/-- The files of two such directives: both have none, or both the same. -/
theorem SameRequest.href {base : String} {d e : Element} (h : SameRequest base d e) :
    (Attribute.text d "href" = Attribute.text e "href") ∨
      ∃ u v, Attribute.text d "href" = .ok u ∧ Attribute.text e "href" = .ok v ∧
        Path.join base u = Path.join base v := by
  have hfile := h.file
  cases hd : d.attr? "href" with
  | none =>
    rw [hd] at hfile
    have he : e.attr? "href" = none := Option.map_eq_none_iff.mp hfile.symm
    refine Or.inl ?_
    rw [Attribute.text, Attribute.text, hd, he, h.location]
  | some u =>
    rw [hd] at hfile
    obtain ⟨v, he, hjoin⟩ := Option.map_eq_some_iff.mp hfile.symm
    exact Or.inr ⟨u, v, Attribute.text_eq_ok.mpr hd, Attribute.text_eq_ok.mpr he, hjoin.symm⟩

/-- A way to replace directives that looks only at what they request. -/
def Respects (splice : Directive → Element → Asking Element) (base : String) : Prop :=
  ∀ directive d e, SameRequest base d e → splice directive d = splice directive e

theorem respects_spliceTooDeep (limit : Nat) (base : String) :
    Respects (spliceTooDeep limit base) base := by
  intro directive d e h
  rw [spliceTooDeep, spliceTooDeep]
  rcases h.href with heq | ⟨u, v, hu, hv, hjoin⟩
  · rw [heq]
  · rw [hu, hv, Asking.ofExcept_ok_bind, Asking.ofExcept_ok_bind, hjoin]

theorem respects_spliceAsking (load : Loader) (nested : Element → String → Asking Element)
    (base : String) : Respects (spliceAsking load nested base) base := by
  intro directive d e h
  rw [spliceAsking, spliceAsking]
  simp only [h.pick]
  rcases h.href with heq | ⟨u, v, hu, hv, hjoin⟩
  · rw [heq]
  · rw [hu, hv, Asking.ofExcept_ok_bind, Asking.ofExcept_ok_bind, hjoin]

/-! ### Documents in two spellings -/

section

variable {base rel : String} {splice : Directive → Element → Asking Element}

/-- The attributes of a directive in two spellings: both have the same that is no reference,
or they have the same values but for one and the same file. -/
theorem alike_respellHref (hrel : IsPlain rel)
    (hbase : Path.join base (Path.join base rel) = Path.join base rel) (place : String)
    (attributes : List (String × String)) :
    Alike (fun a b => a.lookup "xpath" = b.lookup "xpath" ∧
        (a.lookup "href").map (Path.join base) = (b.lookup "href").map (Path.join base))
      (resolveAttributes base place (respellHref rel attributes))
      (resolveAttributes base place attributes) := by
  induction attributes with
  | nil => exact ⟨rfl, rfl⟩
  | cons first rest ih =>
    obtain ⟨key, value⟩ := first
    rw [respellHref, resolveAttributes, resolveAttributes]
    by_cases hhref : key = "href" ∧ value = rel
    · obtain ⟨rfl, rfl⟩ := hhref
      rw [if_pos ⟨rfl, rfl⟩, Reference.resolve?_path base hrel.1,
        Reference.resolve?_plain base hrel.2.2]
      refine Alike.bind ih fun a b hab => ?_
      refine ⟨hab.1, ?_⟩
      rw [List.lookup_cons_self, List.lookup_cons_self, Option.map_some, Option.map_some, hbase]
    · rw [if_neg hhref]
      cases resolve? base value with
      | none => exact rfl
      | some result =>
        refine Alike.bind ih fun a b hab => ?_
        constructor
        · rw [List.lookup_cons, List.lookup_cons, hab.1]
        · rw [List.lookup_cons, List.lookup_cons]
          cases "href" == key with
          | true => rfl
          | false => exact hab.2

theorem expandBelowAsking_congr {d e : Element} (hname : d.name = e.name)
    (hattributes : d.attributes = e.attributes) (hpath : d.path = e.path)
    (hsource : d.source = e.source)
    (hchildren : expandListAsking splice d.children = expandListAsking splice e.children) :
    expandBelowAsking splice d = expandBelowAsking splice e := by
  obtain ⟨name, attributes, children, path, source⟩ := d
  obtain ⟨name', attributes', children', path', source'⟩ := e
  obtain ⟨rfl, rfl, rfl, rfl⟩ := And.intro hname (And.intro hattributes (And.intro hpath hsource))
  rw [expandBelowAsking, expandBelowAsking, hchildren]

/-- A list of elements in two spellings, if each of its elements is expanded alike. -/
theorem alike_respellAll {chosen : Element → Bool} {es : List Element}
    (ih : ∀ e ∈ es, Alike (fun a b => expandChildAsking splice a = expandChildAsking splice b)
      (resolveAll base (respell rel chosen e)) (resolveAll base e)) :
    Alike (fun as bs => expandListAsking splice as = expandListAsking splice bs)
      (resolveList base (respellAll rel chosen es)) (resolveList base es) := by
  induction es with
  | nil => exact rfl
  | cons e es ihes =>
    rw [respellAll, resolveList, resolveList]
    refine Alike.bind (ih e List.mem_cons_self) fun a b hab => ?_
    refine Alike.bind (ihes fun d hd => ih d (List.mem_cons_of_mem e hd)) fun as bs habs => ?_
    change expandListAsking splice (a :: as) = expandListAsking splice (b :: bs)
    rw [expandListAsking_cons, expandListAsking_cons, hab, habs]

/-- An element in two spellings is replaced or expanded alike. -/
theorem alike_respell (hrel : IsPlain rel)
    (hbase : Path.join base (Path.join base rel) = Path.join base rel)
    (hsplice : Respects splice base) (chosen : Element → Bool) (e : Element) :
    Alike (fun a b => expandChildAsking splice a = expandChildAsking splice b)
      (resolveAll base (respell rel chosen e)) (resolveAll base e) := by
  induction e using Element.induct with
  | step name attributes children path source ih =>
    have hchildren := alike_respellAll ih
    rw [respell, resolveAll, resolveAll]
    cases hdirective : Directive.ofName? name with
    | none =>
      rw [Option.isSome_none, Bool.false_and, if_neg Bool.false_ne_true]
      refine Alike.bind (Alike.refl (fun _ => rfl) _) fun a b hab => ?_
      refine Alike.bind hchildren fun as bs habs => ?_
      obtain rfl : a = b := hab
      change expandChildAsking splice ⟨name, a, as, path, source⟩ =
        expandChildAsking splice ⟨name, a, bs, path, source⟩
      unfold expandChildAsking
      rw [hdirective]
      exact expandBelowAsking_congr rfl rfl rfl rfl habs
    | some directive =>
      have hattributes : Alike (fun a b => a.lookup "xpath" = b.lookup "xpath" ∧
          (a.lookup "href").map (Path.join base) = (b.lookup "href").map (Path.join base))
          (resolveAttributes base (Element.location ⟨name, attributes, children, path, source⟩)
            (if chosen ⟨name, attributes, children, path, source⟩ then respellHref rel attributes
              else attributes))
          (resolveAttributes base (Element.location ⟨name, attributes, children, path, source⟩)
            attributes) := by
        by_cases hchosen : chosen ⟨name, attributes, children, path, source⟩ = true
        · rw [if_pos hchosen]
          exact alike_respellHref hrel hbase _ attributes
        · rw [if_neg hchosen]
          exact Alike.refl (fun _ => ⟨rfl, rfl⟩) _
      rw [Option.isSome_some, Bool.true_and]
      -- What stands below a directive is never expanded, so only its requests count.
      refine Alike.bind hattributes fun a b hab => ?_
      refine Alike.bind hchildren fun as bs _ => ?_
      change expandChildAsking splice ⟨name, a, as, path, source⟩ =
        expandChildAsking splice ⟨name, b, bs, path, source⟩
      unfold expandChildAsking
      rw [hdirective]
      exact hsplice directive _ _ ⟨rfl, rfl, hab.1, hab.2⟩

/-- A document in two spellings: references fail alike, and what is left is expanded alike. -/
theorem alike_respellBelow (hrel : IsPlain rel)
    (hbase : Path.join base (Path.join base rel) = Path.join base rel)
    (hsplice : Respects splice base) (chosen : Element → Bool) (root : Element) :
    Alike (fun a b => expandBelowAsking splice a = expandBelowAsking splice b)
      (resolveAll base (respellBelow rel chosen root)) (resolveAll base root) := by
  obtain ⟨name, attributes, children, path, source⟩ := root
  rw [respellBelow, resolveAll, resolveAll]
  refine Alike.bind (Alike.refl (fun _ => rfl) _) fun a b hab => ?_
  refine Alike.bind (alike_respellAll fun e _ => alike_respell hrel hbase hsplice chosen e)
    fun as bs habs => ?_
  obtain rfl : a = b := hab
  exact expandBelowAsking_congr rfl rfl rfl rfl habs

end

/-- Where a path may be taken from the directory twice, the spelling makes no difference. -/
theorem expandAsking_respellBelow {base rel : String} (hrel : IsPlain rel)
    (hbase : Path.join base (Path.join base rel) = Path.join base rel) (load : Loader)
    (limit remaining : Nat) (root : Element) (chosen : Element → Bool) :
    expandAsking load limit remaining (respellBelow rel chosen root) base =
      expandAsking load limit remaining root base := by
  have hexpand : ∀ splice : Directive → Element → Asking Element, Respects splice base →
      (Asking.ofExcept (resolveAll base (respellBelow rel chosen root)) >>= fun r =>
        expandBelowAsking splice r >>= fun t => pure (t.reindex t.path)) =
      (Asking.ofExcept (resolveAll base root) >>= fun r =>
        expandBelowAsking splice r >>= fun t => pure (t.reindex t.path)) := by
    intro splice hsplice
    have halike := alike_respellBelow hrel hbase hsplice chosen root
    cases hleft : resolveAll base (respellBelow rel chosen root) with
    | error x => cases hright : resolveAll base root with
      | error y =>
        rw [hleft, hright] at halike
        obtain rfl : x = y := halike
        rfl
      | ok r =>
        rw [hleft, hright] at halike
        exact halike.elim
    | ok l => cases hright : resolveAll base root with
      | error y =>
        rw [hleft, hright] at halike
        exact halike.elim
      | ok r =>
        rw [hleft, hright] at halike
        rw [Asking.ofExcept_ok_bind, Asking.ofExcept_ok_bind, halike]
  cases remaining with
  | zero =>
    rw [expandAsking, expandAsking]
    exact hexpand _ (respects_spliceTooDeep limit base)
  | succ remaining =>
    rw [expandAsking, expandAsking]
    exact hexpand _ (respects_spliceAsking load (expandAsking load limit remaining) base)

/-! ### The smallest document that tells the spellings apart -/

/-- A document with one directive. -/
def sole (href : String) : Element :=
  ⟨"System", [], [⟨"Include", [("href", href)], [], "/System/Include", none⟩], "/System", none⟩

theorem respellBelow_sole (rel : String) :
    respellBelow rel (fun _ => true) (sole rel) = sole ("$PATH:" ++ rel) := by
  simp [respellBelow, sole, respellAll, respell, respellHref, Directive.ofName?]

theorem resolveAll_sole {base href target : String} (h : resolve? base href = some target) :
    resolveAll base (sole href) = .ok (sole target) := by
  simp [sole, resolveAll, resolveList, resolveAttributes, h, pure, Except.pure, bind, Except.bind]

/-- If its file cannot be loaded, the document cannot be expanded. -/
theorem expand_sole_error {base href target : String} (h : resolve? base href = some target)
    {load : Loader} {x : ConfigError} (hload : load (Path.join base target) = .error x)
    (limit remaining : Nat) :
    expand load limit (remaining + 1) (sole href) base = .error x := by
  rw [expand, resolveAll_sole h, sole]
  have hhref : Attribute.text
      ⟨"Include", [("href", target)], [], "/System/Include", none⟩ "href" = .ok target := rfl
  simp [expandBelow, expandList, Directive.ofName?, hhref, hload, bind, Except.bind]

theorem head?_files_sole {base href target : String} (h : resolve? base href = some target)
    (load : Loader) (limit remaining : Nat) :
    (expandAsking load limit (remaining + 1) (sole href) base).files.head? =
      some (Path.join base target) := by
  rw [expandAsking, resolveAll_sole h, Asking.ofExcept_ok_bind]
  refine Asking.head?_files_bind _ ?_
  rw [sole, expandBelowAsking, expandListAsking_cons]
  refine Asking.head?_files_bind _ (Asking.head?_files_bind _ ?_)
  exact head?_files_spliceAsking load _ base .include_ rfl

/-- For every directory and every relative path `rel`: the expansion that keeps its requests
is the expansion; a directive asks for `rel` as seen from the directory, and one that names
it behind `$PATH:` asks for that path as seen from the directory once more. The spelling
makes no difference to any document exactly if there is no directory or it is absolute. The
two paths lead to one place exactly then, or if the directory is the current one. -/
theorem path_reference_iff {rel : String} (hrel : IsPlain rel) (base : String) :
    (∀ load limit remaining root, (expandAsking load limit remaining root base).result =
      expand load limit remaining root base) ∧
    (∀ load nested directive e resolved, resolveAll base e = .ok resolved →
      (e.attr? "href" = some rel →
        (spliceAsking load nested base directive resolved).files.head? =
          some (Path.join base rel)) ∧
      (e.attr? "href" = some ("$PATH:" ++ rel) →
        (spliceAsking load nested base directive resolved).files.head? =
          some (Path.join base (Path.join base rel)))) ∧
    ((∀ load limit remaining root chosen,
        expandAsking load limit remaining (respellBelow rel chosen root) base =
          expandAsking load limit remaining root base) ↔
      base = "" ∨ Path.isAbsolute base = true) ∧
    (Path.components (Path.join base (Path.join base rel)) =
        Path.components (Path.join base rel) ↔
      base = "" ∨ Path.isAbsolute base = true ∨ Path.names base = []) := by
  have hplain := hrel.isAbsolute_eq_false
  have hpath := Reference.resolve?_path base hrel.1
  have hself := Reference.resolve?_plain base hrel.2.2
  refine ⟨fun load limit remaining root => result_expandAsking load limit remaining root base,
    ?_, ?_, Path.components_join_join_iff base hplain⟩
  · intro load nested directive e resolved hresolved
    have hread := Reference.attr?_resolveAll hresolved "href"
    constructor
    · intro hhref
      rw [hhref, Option.bind_some, hself] at hread
      exact head?_files_spliceAsking load nested base directive hread
    · intro hhref
      rw [hhref, Option.bind_some, hpath] at hread
      exact head?_files_spliceAsking load nested base directive hread
  · rw [← Path.join_join_iff base hplain]
    constructor
    · intro h
      have hsole := h (fun path => .error (.io path .absent)) 1 1 (sole rel) fun _ => true
      rw [respellBelow_sole] at hsole
      have hfiles := congrArg (fun run => run.files.head?) hsole
      simp only [head?_files_sole hpath, head?_files_sole hself] at hfiles
      exact Option.some.inj hfiles
    · intro hbase load limit remaining root chosen
      exact expandAsking_respellBelow hrel hbase load limit remaining root chosen

/-- A store with one document, which lies in a directory. -/
def nearby : Loader := fun path =>
  if path = "cfg/a.xml" then .ok ⟨"Leaf", [], [], "/Leaf", some path⟩
  else .error (.io path .absent)

/-- The expansion of the smallest document that names it. -/
def nearbyResult : Element :=
  ⟨"System", [], [⟨"Leaf", [(sourceKey, "cfg/a.xml")], [], "/System/Leaf", some "cfg/a.xml"⟩],
    "/System", none⟩

theorem path_reference_iff_relative :
    IsPlain "a.xml" ∧
      ¬ ∀ load limit remaining root chosen,
        expandAsking load limit remaining (respellBelow "a.xml" chosen root) "cfg" =
          expandAsking load limit remaining root "cfg" := by
  have hplain : IsPlain "a.xml" := ⟨by decide, by decide, by decide⟩
  refine ⟨hplain, fun h => ?_⟩
  rcases (path_reference_iff hplain "cfg").2.2.1.mp h with hempty | habsolute
  · exact absurd hempty (by decide)
  · exact absurd habsolute (by decide)

/-- Seen from a relative directory, the file is found by its path but not behind `$PATH:`. -/
theorem path_reference_misses_nearby :
    preprocess nearby defaultDepth (sole "a.xml") "cfg" = .ok nearbyResult ∧
      preprocess nearby defaultDepth (sole ("$PATH:" ++ "a.xml")) "cfg" =
        .error (.io "cfg/cfg/a.xml" .absent) := by
  have hpath : resolve? "cfg" ("$PATH:" ++ "a.xml") = some (Path.join "cfg" "a.xml") :=
    Reference.resolve?_path "cfg" (by decide)
  have htwice : Path.join "cfg" (Path.join "cfg" "a.xml") = "cfg/cfg/a.xml" := by decide
  have hload : nearby (Path.join "cfg" (Path.join "cfg" "a.xml")) =
      .error (.io "cfg/cfg/a.xml" .absent) := by
    rw [htwice]
    rfl
  exact ⟨rfl, expand_sole_error hpath hload defaultDepth 31⟩

end Expansion
end MotionRack
