import MotionRack.Proofs.Document.Reference
import MotionRack.Proofs.Document.Residue
import MotionRack.Proofs.Document.RoundTrip

/-!
# Attributes with distinct keys

No element has two attributes of one key. Reading a document sees to it tag by tag, and every way of
changing a tree keeps to it: an attribute is set in its place, a reference is replaced under its
key, and what is put in place of a directive comes from a tree of which the same is true.
-/
namespace MotionRack

/-- Whether no element of a tree has two attributes of one key. -/
def Element.KeysDistinct (e : Element) : Prop :=
  ∀ d ∈ e.elements, (d.attributes.map (·.1)).Nodup

namespace Element

theorem keysDistinct_iff {e : Element} :
    e.KeysDistinct ↔ (e.attributes.map (·.1)).Nodup ∧ ∀ c ∈ e.children, c.KeysDistinct :=
  forall_mem_elements

theorem KeysDistinct.of_mem {e d : Element} (h : e.KeysDistinct) (hd : d ∈ e.elements) :
    d.KeysDistinct :=
  fun x hx => h x (mem_elements_trans hx hd)

/-- Places have no part in it. -/
theorem keysDistinct_content (e : Element) : e.content.KeysDistinct ↔ e.KeysDistinct := by
  induction e using induct with
  | step name attributes children path source ih =>
    rw [keysDistinct_iff, keysDistinct_iff, attributes_content, children_content]
    refine and_congr_right fun _ => ?_
    simp only [List.forall_mem_map]
    exact forall_congr' fun c => forall_congr' fun hc => ih c hc

theorem keysDistinct_reindex {e : Element} (path : String) :
    (e.reindex path).KeysDistinct ↔ e.KeysDistinct := by
  rw [← keysDistinct_content, content_reindex, keysDistinct_content]

theorem keysDistinct_withSource {e : Element} (file : String) :
    (e.withSource file).KeysDistinct ↔ e.KeysDistinct := by
  rw [← keysDistinct_content, content_withSource, keysDistinct_content]

theorem map_fst_put (key value : String) (attributes : List (String × String)) :
    (put key value attributes).map (·.1) =
      if key ∈ attributes.map (·.1) then attributes.map (·.1)
      else attributes.map (·.1) ++ [key] := by
  induction attributes with
  | nil => rfl
  | cons entry rest ih =>
    obtain ⟨k, v⟩ := entry
    rw [put]
    by_cases hk : k = key
    · simp [hk]
    · rw [if_neg hk, List.map_cons, ih]
      by_cases hrest : key ∈ rest.map (·.1)
      · simp [hrest]
      · simp [hrest, Ne.symm hk]

theorem KeysDistinct.setAttr {e : Element} (h : e.KeysDistinct) (key value : String) :
    (e.setAttr key value).KeysDistinct := by
  obtain ⟨hown, hchildren⟩ := keysDistinct_iff.mp h
  refine keysDistinct_iff.mpr ⟨?_, hchildren⟩
  change ((put key value e.attributes).map (·.1)).Nodup
  rw [map_fst_put]
  split
  next => exact hown
  next hnew =>
    rw [List.nodup_append]
    refine ⟨hown, by simp, fun k hk k' hk' => ?_⟩
    obtain rfl := List.mem_singleton.mp hk'
    rintro rfl
    exact hnew hk

theorem KeysDistinct.withChild {e child : Element} (h : e.KeysDistinct)
    (hchild : child.KeysDistinct) : (e.withChild child).KeysDistinct := by
  obtain ⟨hown, hchildren⟩ := keysDistinct_iff.mp h
  rw [Element.withChild, keysDistinct_reindex, keysDistinct_iff]
  refine ⟨hown, fun c hc => ?_⟩
  rcases List.mem_append.mp hc with hc | hc
  · exact hchildren c hc
  · obtain rfl := List.mem_singleton.mp hc
    exact hchild

end Element

/-! ### References and directives -/

namespace Reference

theorem map_fst_substitute? {base : String} {attributes results : List (String × String)}
    (h : substitute? base attributes = some results) :
    results.map (·.1) = attributes.map (·.1) := by
  induction attributes generalizing results with
  | nil =>
    obtain rfl : [] = results := Option.some.inj h
    rfl
  | cons entry rest ih =>
    obtain ⟨key, value⟩ := entry
    rw [substitute?] at h
    obtain ⟨result, -, h⟩ := Option.bind_eq_some_iff.mp h
    obtain ⟨others, hothers, rfl⟩ := Option.map_eq_some_iff.mp h
    rw [List.map_cons, List.map_cons, ih hothers]

theorem exists_of_mem_resolveList {base : String} {es resolved : List Element}
    (h : resolveList base es = .ok resolved) {d : Element} (hd : d ∈ resolved) :
    ∃ e ∈ es, resolveAll base e = .ok d := by
  induction es generalizing resolved with
  | nil =>
    rw [resolveList] at h
    obtain rfl := Except.ok.inj h
    cases hd
  | cons e es ih =>
    obtain ⟨first, hfirst, rest, hrest, rfl⟩ := resolveList_cons_eq_ok.mp h
    rcases List.mem_cons.mp hd with rfl | hd
    · exact ⟨e, List.mem_cons_self, hfirst⟩
    · obtain ⟨e', he', hresolved⟩ := ih hrest hd
      exact ⟨e', List.mem_cons_of_mem e he', hresolved⟩

theorem keysDistinct_resolveAll {base : String} {e resolved : Element}
    (h : resolveAll base e = .ok resolved) (he : e.KeysDistinct) : resolved.KeysDistinct := by
  induction e using Element.induct generalizing resolved with
  | step name attributes children path source ih =>
    obtain ⟨results, hresults, below, hbelow, rfl⟩ := resolveAll_eq_ok.mp h
    obtain ⟨hown, hchildren⟩ := Element.keysDistinct_iff.mp he
    refine Element.keysDistinct_iff.mpr ⟨?_, fun d hd => ?_⟩
    · change (results.map (·.1)).Nodup
      rw [map_fst_substitute? hresults]
      exact hown
    · obtain ⟨c, hc, hresolved⟩ := exists_of_mem_resolveList hbelow hd
      exact ih c hc hresolved (hchildren c hc)

end Reference

namespace Expansion

theorem keysDistinct_expandBelow {splice : Directive → Element → Except ConfigError Element}
    (hsplice : ∀ directive e u, splice directive e = .ok u → u.KeysDistinct) {e t : Element}
    (h : expandBelow splice e = .ok t) (he : e.KeysDistinct) : t.KeysDistinct := by
  induction e using Element.induct generalizing t with
  | step name attributes children path source ih =>
    obtain ⟨below, hbelow, rfl⟩ := expandBelow_eq_ok.mp h
    obtain ⟨hown, hchildren⟩ := Element.keysDistinct_iff.mp he
    refine Element.keysDistinct_iff.mpr ⟨hown, fun d hd => ?_⟩
    obtain ⟨c, hc, hchild⟩ := (mem_expandList hbelow).mp hd
    by_cases hdirective : IsDirective c
    · obtain ⟨directive, -, hown⟩ := expandChild_of_isDirective splice hdirective
      exact hsplice directive c d (hown.symm.trans hchild)
    · rw [expandChild_of_not_isDirective hdirective] at hchild
      exact ih c hc hchild (hchildren c hc)

/-- What is put in place of a directive is the expanded document, or an element of it, with one
attribute set. -/
theorem keysDistinct_pick {directive : Directive} {e document u : Element} {file : String}
    (h : pick directive e document file = .ok u) (hdocument : document.KeysDistinct) :
    u.KeysDistinct := by
  cases directive with
  | include_ =>
    obtain rfl : document.setAttr sourceKey file = u := Except.ok.inj h
    exact hdocument.setAttr sourceKey file
  | import_ =>
    obtain ⟨query, -, node, hnode, rfl⟩ := pick_import_eq_ok.mp h
    exact (hdocument.of_mem (Element.select?_mem hnode)).setAttr sourceKey file

theorem keysDistinct_expand {load : Loader} {limit remaining : Nat}
    (hload : ∀ path d, load path = .ok d → d.KeysDistinct) {root t : Element} {base : String}
    (h : expand load limit remaining root base = .ok t) (hroot : root.KeysDistinct) :
    t.KeysDistinct := by
  -- On the levels that are left: a document that a directive loads is expanded with one level less.
  induction remaining generalizing root t base with
  | zero =>
    obtain ⟨resolved, hresolved, below, hbelow, rfl⟩ := expand_eq_ok.mp h
    rw [Element.keysDistinct_reindex]
    refine keysDistinct_expandBelow ?_ hbelow (Reference.keysDistinct_resolveAll hresolved hroot)
    exact fun directive e u hsplice => absurd hsplice splice_zero_ne_ok
  | succ remaining ih =>
    obtain ⟨resolved, hresolved, below, hbelow, rfl⟩ := expand_eq_ok.mp h
    rw [Element.keysDistinct_reindex]
    refine keysDistinct_expandBelow ?_ hbelow (Reference.keysDistinct_resolveAll hresolved hroot)
    intro directive e u hsplice
    obtain ⟨href, -, document, hdocument, expanded, hexpanded, hpick⟩ :=
      splice_succ_eq_ok.mp hsplice
    exact keysDistinct_pick hpick (ih hexpanded (hload _ document hdocument))

end Expansion

/-! ### Documents -/

namespace Markup

/-- The keys of attributes are distinct, and none of them was seen before. -/
theorem nodup_attributes? {seen : List String} {cs : List Char} {attributes : Attributes}
    (h : attributes? seen cs = some attributes) :
    (attributes.map (·.1)).Nodup ∧ ∀ key ∈ attributes.map (·.1), key ∉ seen := by
  fun_induction attributes? seen cs generalizing attributes with
  | case1 seen =>
    obtain rfl := Option.some.inj h
    exact ⟨List.nodup_nil, fun _ hkey => absurd hkey List.not_mem_nil⟩
  | case2 => cases h
  | case3 => cases h
  | case4 seen cs first rest hrest key raw after hattribute hnew ih =>
    obtain ⟨value, -, h⟩ := Option.bind_eq_some_iff.mp h
    obtain ⟨others, hothers, h⟩ := Option.bind_eq_some_iff.mp h
    obtain rfl := Option.some.inj h
    obtain ⟨hnodup, hunseen⟩ := ih hothers
    have hkey : key ∉ seen := by simpa using hnew
    rw [List.map_cons, List.forall_mem_cons, List.nodup_cons]
    refine ⟨⟨fun hmem => hunseen key hmem List.mem_cons_self, hnodup⟩, hkey, fun k hk hseen => ?_⟩
    exact hunseen k hk (List.mem_cons_of_mem key hseen)

/-- Whether the attributes of a tag have distinct keys. -/
def Event.KeysDistinct : Event → Prop
  | opening _ attributes | empty _ attributes => (attributes.map (·.1)).Nodup
  | closing _ | broken => True

theorem keysDistinct_openingTag (content : List Char) : (openingTag content).KeysDistinct := by
  rw [openingTag]
  dsimp only
  split
  next => trivial
  next attributes hattributes =>
    have hnodup := (nodup_attributes? hattributes).1
    split
    · exact hnodup
    · exact hnodup

theorem keysDistinct_next {cs : List Char} {event : Event} (h : (next cs).1 = some event) :
    event.KeysDistinct := by
  unfold next at h
  split at h
  · cases h
  · split at h
    · cases h
    · obtain rfl := Option.some.inj h
      trivial
  · split at h
    · cases h
    · obtain rfl := Option.some.inj h
      trivial
  · split at h
    · obtain rfl := Option.some.inj h
      trivial
    · obtain rfl := Option.some.inj h
      trivial
  · split at h
    · obtain rfl := Option.some.inj h
      exact keysDistinct_openingTag _
    · obtain rfl := Option.some.inj h
      trivial
  · cases h

theorem keysDistinct_events (cs : List Char) : ∀ event ∈ events cs, event.KeysDistinct := by
  fun_induction events cs with
  | case1 => exact fun _ h => absurd h List.not_mem_nil
  | case2 c cs event hevent ih =>
    exact List.forall_mem_cons.mpr ⟨keysDistinct_next hevent, ih⟩
  | case3 c cs hnone ih => exact ih

end Markup

namespace Document

/-- Whether all that a reading has put together so far has distinct keys. -/
structure Progress.KeysDistinct (s : Progress) : Prop where
  stack : ∀ o ∈ s.1, (o.attributes.map (·.1)).Nodup ∧ ∀ c ∈ o.children, c.KeysDistinct
  root : ∀ e, s.2 = some e → e.KeysDistinct

theorem keysDistinct_unplaced {name : String} {attributes : Markup.Attributes}
    {children : List Element} (hown : (attributes.map (·.1)).Nodup)
    (hchildren : ∀ c ∈ children, c.KeysDistinct) :
    (unplaced name attributes children).KeysDistinct :=
  Element.keysDistinct_iff.mpr ⟨hown, hchildren⟩

theorem keysDistinct_attach {s next : Progress} {e : Element} (h : attach s e = .ok next)
    (hs : s.KeysDistinct) (he : e.KeysDistinct) : next.KeysDistinct := by
  obtain ⟨stack, root⟩ := s
  match stack, root with
  | o :: stack, root =>
    cases h
    obtain ⟨hopen, hstack⟩ := List.forall_mem_cons.mp hs.stack
    refine ⟨List.forall_mem_cons.mpr ⟨⟨hopen.1, ?_⟩, hstack⟩, hs.root⟩
    exact List.forall_mem_cons.mpr ⟨he, hopen.2⟩
  | [], none =>
    cases h
    refine ⟨fun _ ho => absurd ho List.not_mem_nil, fun d hd => ?_⟩
    obtain rfl := Option.some.inj hd
    exact he
  | [], some _ => cases h

/-- What one tag keeps. -/
theorem keysDistinct_step {s next : Progress} {event : Markup.Event}
    (h : step s event = .ok next) (hs : s.KeysDistinct) (hevent : event.KeysDistinct) :
    next.KeysDistinct := by
  obtain ⟨stack, root⟩ := s
  cases event with
  | opening name attributes =>
    cases h
    refine ⟨List.forall_mem_cons.mpr ⟨⟨hevent, ?_⟩, hs.stack⟩, hs.root⟩
    exact fun _ hc => absurd hc List.not_mem_nil
  | empty name attributes =>
    refine keysDistinct_attach h hs (keysDistinct_unplaced hevent ?_)
    exact fun _ hc => absurd hc List.not_mem_nil
  | closing name =>
    cases stack with
    | nil => cases h
    | cons o stack =>
      rw [step] at h
      split at h
      · cases h
      · obtain ⟨hopen, hstack⟩ := List.forall_mem_cons.mp hs.stack
        refine keysDistinct_attach h ⟨hstack, hs.root⟩ (keysDistinct_unplaced hopen.1 ?_)
        exact fun c hc => hopen.2 c (List.mem_reverse.mp hc)
  | broken => cases stack <;> cases h

theorem keysDistinct_foldlM {events : List Markup.Event}
    (hevents : ∀ event ∈ events, event.KeysDistinct) {s final : Progress}
    (h : events.foldlM step s = .ok final) (hs : s.KeysDistinct) : final.KeysDistinct := by
  induction events generalizing s with
  | nil =>
    cases h
    exact hs
  | cons event events ih =>
    obtain ⟨hevent, hrest⟩ := List.forall_mem_cons.mp hevents
    obtain ⟨next, hnext, h⟩ := bind_eq_ok.mp h
    exact ih hrest h (keysDistinct_step hnext hs hevent)

theorem keysDistinct_parse {text : String} {source : Option String} {e : Element}
    (h : parse text source = .ok e) : e.KeysDistinct := by
  rw [parse] at h
  split at h
  next => cases h
  next root hroot =>
    rw [assemble_eq] at hroot
    obtain ⟨final, hfinal, hfinish⟩ := bind_eq_ok.mp hroot
    have hstart : Progress.KeysDistinct ([], none) :=
      ⟨fun _ ho => absurd ho List.not_mem_nil, fun _ hr => absurd hr (Option.some_ne_none _).symm⟩
    have hdistinct := keysDistinct_foldlM (Markup.keysDistinct_events text.toList) hfinal hstart
    have hread : root.KeysDistinct := by
      obtain ⟨_ | ⟨top, stack⟩, _ | r⟩ := final
      · cases hfinish
      · obtain rfl := Except.ok.inj hfinish
        exact hdistinct.root r rfl
      · cases hfinish
      · cases hfinish
    dsimp only at h
    split at h
    · obtain rfl := Except.ok.inj h
      rwa [Element.keysDistinct_withSource, Element.keysDistinct_reindex]
    · obtain rfl := Except.ok.inj h
      rwa [Element.keysDistinct_reindex]

end Document
end MotionRack
