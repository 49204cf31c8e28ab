import MotionRack.Proofs.Document.Residue

/-!
# How deep an expansion goes

Documents may name each other in a circle, so what ends an expansion is its limit alone. The rules
below count the depth upwards and say nothing of an end; every expansion has a finite derivation
from them, with one outcome. A higher limit matters only where a lower one was reached, and a chain
of documents without end is an error under every limit.
-/
namespace MotionRack.Expansion

variable {load : Loader} {limit depth : Nat} {base : String}

/-! ### Expansions that end -/

mutual
/-- The expansion of a document in `base`, at a depth below the first document, ends like this. -/
inductive Ends (load : Loader) (limit : Nat) :
    Nat → Element → String → Except ConfigError Element → Prop
  | unresolved {depth : Nat} {root : Element} {base : String} {fault : ConfigError} :
      Reference.resolveAll base root = .error fault → Ends load limit depth root base (.error fault)
  | resolved {depth : Nat} {root resolved : Element} {base : String}
      {outcome : Except ConfigError (List Element)} :
      Reference.resolveAll base root = .ok resolved →
      AllEnd load limit depth base resolved.children outcome →
      Ends load limit depth root base
        (outcome.map fun children => { resolved with children }.reindex resolved.path)

/-- The expansion of a list of elements, one after the other, ends like this. -/
inductive AllEnd (load : Loader) (limit : Nat) :
    Nat → String → List Element → Except ConfigError (List Element) → Prop
  | nil {depth : Nat} {base : String} : AllEnd load limit depth base [] (.ok [])
  | failed {depth : Nat} {base : String} {e : Element} {es : List Element} {fault : ConfigError} :
      OneEnds load limit depth base e (.error fault) →
      AllEnd load limit depth base (e :: es) (.error fault)
  | cons {depth : Nat} {base : String} {e t : Element} {es : List Element}
      {outcome : Except ConfigError (List Element)} :
      OneEnds load limit depth base e (.ok t) → AllEnd load limit depth base es outcome →
      AllEnd load limit depth base (e :: es) (outcome.map (t :: ·))

/-- The expansion of one element below a root ends like this. -/
inductive OneEnds (load : Loader) (limit : Nat) :
    Nat → String → Element → Except ConfigError Element → Prop
  | ordinary {depth : Nat} {base : String} {e : Element}
      {outcome : Except ConfigError (List Element)} :
      ¬ IsDirective e → AllEnd load limit depth base e.children outcome →
      OneEnds load limit depth base e (outcome.map fun children => { e with children })
  | unnamed {depth : Nat} {base : String} {e : Element} {fault : ConfigError} :
      IsDirective e → Attribute.text e "href" = .error fault →
      OneEnds load limit depth base e (.error fault)
  | tooDeep {depth : Nat} {base href : String} {e : Element} :
      IsDirective e → Attribute.text e "href" = .ok href → limit ≤ depth →
      OneEnds load limit depth base e (.error (.includeDepth limit (Path.join base href)))
  | notLoaded {depth : Nat} {base href : String} {e : Element} {fault : ConfigError} :
      IsDirective e → Attribute.text e "href" = .ok href → depth < limit →
      load (Path.join base href) = .error fault → OneEnds load limit depth base e (.error fault)
  | loaded {depth : Nat} {base href : String} {e document : Element} {directive : Directive}
      {outcome : Except ConfigError Element} :
      Directive.ofName? e.name = some directive → Attribute.text e "href" = .ok href →
      depth < limit → load (Path.join base href) = .ok document →
      Ends load limit (depth + 1) document (Path.directory (Path.join base href)) outcome →
      OneEnds load limit depth base e
        (outcome.bind fun t => pick directive e t (Path.join base href))
end

section

variable (splice : Directive → Element → Except ConfigError Element)

theorem expandList_cons (e : Element) (es : List Element) :
    expandList splice (e :: es) =
      (expandChild splice e).bind fun t => (expandList splice es).map (t :: ·) := by
  rw [expandList, expandChild]
  cases Directive.ofName? e.name with
  | some directive => cases splice directive e <;> rfl
  | none => cases expandBelow splice e <;> rfl

theorem expandBelow_eq (e : Element) :
    expandBelow splice e =
      (expandList splice e.children).map fun children => { e with children } := by
  obtain ⟨name, attributes, children, path, source⟩ := e
  rw [expandBelow]
  rfl

end

theorem expand_eq (load : Loader) (limit remaining : Nat) (root : Element) (base : String) :
    expand load limit remaining root base =
      (Reference.resolveAll base root).bind fun resolved =>
        (expandList (splice load limit remaining base) resolved.children).map fun children =>
          { resolved with children }.reindex resolved.path := by
  have hbelow : ∀ splice resolved,
      (expandBelow splice resolved >>= fun t => pure (t.reindex t.path)) =
        (expandList splice resolved.children).map fun children =>
          { resolved with children }.reindex resolved.path := by
    intro splice resolved
    rw [expandBelow_eq]
    cases expandList splice resolved.children <;> rfl
  cases remaining <;> rw [expand] <;> cases Reference.resolveAll base root with
  | error fault => rfl
  | ok resolved => exact hbelow _ resolved

section

variable {directive : Directive} {e : Element}

theorem splice_of_error {remaining : Nat} {fault : ConfigError}
    (h : Attribute.text e "href" = .error fault) :
    splice load limit remaining base directive e = .error fault := by
  cases remaining <;> rw [splice, h] <;> rfl

theorem splice_zero {href : String} (h : Attribute.text e "href" = .ok href) :
    splice load limit 0 base directive e = .error (.includeDepth limit (Path.join base href)) := by
  rw [splice, h]
  rfl

theorem splice_succ {remaining : Nat} {href : String} (h : Attribute.text e "href" = .ok href) :
    splice load limit (remaining + 1) base directive e =
      (load (Path.join base href)).bind fun document =>
        (expand load limit remaining document (Path.directory (Path.join base href))).bind fun t =>
          pick directive e t (Path.join base href) := by
  rw [splice, h]
  rfl

end

section

variable {splice : Directive → Element → Except ConfigError Element}

theorem allEnd_expandList {es : List Element}
    (h : ∀ e ∈ es, OneEnds load limit depth base e (expandChild splice e)) :
    AllEnd load limit depth base es (expandList splice es) := by
  induction es with
  | nil => exact .nil
  | cons e es ih =>
    obtain ⟨hfirst, hrest⟩ := List.forall_mem_cons.mp h
    rw [expandList_cons]
    cases hchild : expandChild splice e with
    | error fault => exact .failed (hchild ▸ hfirst)
    | ok t => exact .cons (hchild ▸ hfirst) (ih hrest)

/-- An element ends as its directives do. -/
theorem oneEnds_expandChild
    (h : ∀ directive e, Directive.ofName? e.name = some directive →
      OneEnds load limit depth base e (splice directive e)) (e : Element) :
    OneEnds load limit depth base e (expandChild splice e) := by
  induction e using Element.induct with
  | step name attributes children path source ih =>
    rw [expandChild]
    cases hname : Directive.ofName? name with
    | some directive => exact h directive _ hname
    | none =>
      have hordinary : ¬ IsDirective ⟨name, attributes, children, path, source⟩ := by
        rw [isDirective_iff]
        rintro ⟨directive, hdirective⟩
        exact absurd (hname.symm.trans hdirective) (by simp)
      rw [expandBelow_eq]
      exact .ordinary hordinary (allEnd_expandList ih)

end

theorem ends_of_splice {remaining : Nat} (base : String)
    (h : ∀ directive e, Directive.ofName? e.name = some directive →
      OneEnds load limit depth base e (splice load limit remaining base directive e))
    (root : Element) : Ends load limit depth root base (expand load limit remaining root base) := by
  rw [expand_eq]
  cases hresolved : Reference.resolveAll base root with
  | error fault => exact .unresolved hresolved
  | ok resolved =>
    exact .resolved hresolved (allEnd_expandList fun e _ => oneEnds_expandChild h e)

/-- Every expansion ends, under every limit. -/
theorem ends_expand {remaining : Nat} (h : depth + remaining = limit) (root : Element)
    (base : String) :
    Ends load limit depth root base (expand load limit remaining root base) := by
  induction remaining generalizing depth root base with
  | zero =>
    refine ends_of_splice base (fun directive e hname => ?_) root
    have hdirective := isDirective_iff.mpr ⟨directive, hname⟩
    cases hhref : Attribute.text e "href" with
    | error fault => exact splice_of_error hhref ▸ .unnamed hdirective hhref
    | ok href => exact splice_zero hhref ▸ .tooDeep hdirective hhref (Nat.le_of_eq h.symm)
  | succ remaining ih =>
    refine ends_of_splice base (fun directive e hname => ?_) root
    have hdirective := isDirective_iff.mpr ⟨directive, hname⟩
    have hlt : depth < limit := by omega
    cases hhref : Attribute.text e "href" with
    | error fault => exact splice_of_error hhref ▸ .unnamed hdirective hhref
    | ok href =>
      rw [splice_succ hhref]
      cases hload : load (Path.join base href) with
      | error fault => exact .notLoaded hdirective hhref hlt hload
      | ok document => exact .loaded hname hhref hlt hload (ih (by omega) document _)

/-- A directive expands to what is put in its place. -/
theorem expandChild_of_splice {splice : Directive → Element → Except ConfigError Element}
    {e : Element} {outcome : Except ConfigError Element} (h : IsDirective e)
    (hsplice : ∀ directive, splice directive e = outcome) : expandChild splice e = outcome := by
  obtain ⟨directive, _, hchild⟩ := expandChild_of_isDirective splice h
  rw [hchild, hsplice]

mutual
/-- The rules leave no choice: what an expansion ends with is what `expand` gives. -/
theorem Ends.eq_expand {depth : Nat} {root : Element} {base : String}
    {outcome : Except ConfigError Element} (hle : depth ≤ limit) :
    Ends load limit depth root base outcome →
      expand load limit (limit - depth) root base = outcome
  | .unresolved hresolved => by rw [expand_eq, hresolved]; rfl
  | .resolved hresolved hall => by
    rw [expand_eq, hresolved, ← AllEnd.eq_expandList hle hall]
    rfl

theorem AllEnd.eq_expandList {depth : Nat} {base : String} {es : List Element}
    {outcome : Except ConfigError (List Element)} (hle : depth ≤ limit) :
    AllEnd load limit depth base es outcome →
      expandList (splice load limit (limit - depth) base) es = outcome
  | .nil => by rw [expandList]
  | .failed hone => by
    rw [expandList_cons, OneEnds.eq_expandChild hle hone]
    rfl
  | .cons hone hall => by
    rw [expandList_cons, OneEnds.eq_expandChild hle hone, ← AllEnd.eq_expandList hle hall]
    rfl

theorem OneEnds.eq_expandChild {depth : Nat} {base : String} {e : Element}
    {outcome : Except ConfigError Element} (hle : depth ≤ limit) :
    OneEnds load limit depth base e outcome →
      expandChild (splice load limit (limit - depth) base) e = outcome
  | .ordinary hordinary hall => by
    rw [expandChild_of_not_isDirective hordinary, expandBelow_eq, AllEnd.eq_expandList hle hall]
  | .unnamed hdirective hhref => expandChild_of_splice hdirective fun _ => splice_of_error hhref
  | .tooDeep hdirective hhref hdeep => by
    rw [Nat.sub_eq_zero_of_le hdeep]
    exact expandChild_of_splice hdirective fun _ => splice_zero hhref
  | .notLoaded hdirective hhref hlt hload => by
    have hsucc : limit - depth = limit - (depth + 1) + 1 := by omega
    rw [hsucc]
    refine expandChild_of_splice hdirective fun directive => ?_
    rw [splice_succ hhref, hload]
    rfl
  | .loaded hname hhref hlt hload hends => by
    have hsucc : limit - depth = limit - (depth + 1) + 1 := by omega
    have hnested := Ends.eq_expand (Nat.succ_le_of_lt hlt) hends
    rw [expandChild, hname, hsucc]
    dsimp only
    rw [splice_succ hhref, hload, ← hnested]
    rfl
end

/-! ### Higher limits -/

section

variable {α β : Type}

/-- Whether a computation fails because documents name each other too deep. -/
def TooDeep (x : Except ConfigError α) : Prop := ∃ depth file, x = .error (.includeDepth depth file)

/-- Whether a computation gives what another one gives, unless that one is stopped by its limit. -/
def Deepens (x y : Except ConfigError α) : Prop := ¬ TooDeep x → y = x

namespace Deepens

theorem refl (x : Except ConfigError α) : Deepens x x := fun _ => rfl

theorem of_tooDeep {x y : Except ConfigError α} (h : TooDeep x) : Deepens x y :=
  fun hnot => absurd h hnot

theorem bind {x y : Except ConfigError α} {f g : α → Except ConfigError β} (h : Deepens x y)
    (hf : ∀ a, Deepens (f a) (g a)) : Deepens (x.bind f) (y.bind g) := by
  intro hnot
  cases x with
  | error fault =>
    have hx : ¬ TooDeep (Except.error fault : Except ConfigError α) := by
      rintro ⟨depth, file, hfault⟩
      exact hnot ⟨depth, file, congrArg Except.error (Except.error.inj hfault)⟩
    rw [h hx]
    rfl
  | ok a =>
    rw [h (by rintro ⟨_, _, ⟨⟩⟩)]
    exact hf a hnot

theorem map {x y : Except ConfigError α} (h : Deepens x y) (f : α → β) :
    Deepens (x.map f) (y.map f) := by
  have hmap : ∀ z : Except ConfigError α, z.map f = z.bind fun a => .ok (f a) := by
    intro z
    cases z <;> rfl
  rw [hmap, hmap]
  exact h.bind fun _ => refl _

end Deepens

end

section

variable {splice splice' : Directive → Element → Except ConfigError Element}

theorem deepens_expandList {es : List Element}
    (h : ∀ e ∈ es, Deepens (expandChild splice e) (expandChild splice' e)) :
    Deepens (expandList splice es) (expandList splice' es) := by
  induction es with
  | nil =>
    rw [expandList, expandList]
    exact .refl _
  | cons e es ih =>
    obtain ⟨hfirst, hrest⟩ := List.forall_mem_cons.mp h
    rw [expandList_cons, expandList_cons]
    exact hfirst.bind fun t => (ih hrest).map (t :: ·)

theorem deepens_expandChild
    (h : ∀ directive e, Deepens (splice directive e) (splice' directive e)) (e : Element) :
    Deepens (expandChild splice e) (expandChild splice' e) := by
  induction e using Element.induct with
  | step name attributes children path source ih =>
    rw [expandChild, expandChild]
    cases Directive.ofName? name with
    | some directive => exact h directive _
    | none =>
      rw [expandBelow_eq, expandBelow_eq]
      exact (deepens_expandList ih).map _

end

theorem deepens_of_splice {limit' remaining more : Nat} {base : String}
    (h : ∀ directive e, Deepens (splice load limit remaining base directive e)
      (splice load limit' more base directive e)) (root : Element) :
    Deepens (expand load limit remaining root base) (expand load limit' more root base) := by
  rw [expand_eq, expand_eq]
  refine (Deepens.refl _).bind fun resolved => .map (deepens_expandList fun e _ => ?_) _
  exact deepens_expandChild h e

/-- An expansion that is not stopped by the depth it may go to comes to the same if it may go
deeper. -/
theorem deepens_expand (load : Loader) (limit limit' : Nat) {remaining more : Nat}
    (hle : remaining ≤ more) (root : Element) (base : String) :
    Deepens (expand load limit remaining root base) (expand load limit' more root base) := by
  induction remaining generalizing more root base with
  | zero =>
    refine deepens_of_splice (fun directive e => ?_) root
    cases hhref : Attribute.text e "href" with
    | error fault =>
      rw [splice_of_error hhref, splice_of_error hhref]
      exact .refl _
    | ok href =>
      rw [splice_zero hhref]
      exact .of_tooDeep ⟨_, _, rfl⟩
  | succ remaining ih =>
    obtain ⟨more, rfl⟩ : ∃ n, more = n + 1 := ⟨more - 1, by omega⟩
    refine deepens_of_splice (fun directive e => ?_) root
    cases hhref : Attribute.text e "href" with
    | error fault =>
      rw [splice_of_error hhref, splice_of_error hhref]
      exact .refl _
    | ok href =>
      rw [splice_succ hhref, splice_succ hhref]
      refine (Deepens.refl _).bind fun document => .bind ?_ fun t => .refl _
      exact ih (Nat.le_of_succ_le_succ hle) document _

/-! ### Chains without end -/

/-- Whether a document holds a directive, below no other directive, that leads to another
document. -/
def Leads (load : Loader) (root : Element) (base : String) (document : Element) (base' : String) :
    Prop :=
  ∃ resolved e href, Reference.resolveAll base root = .ok resolved ∧ Site resolved e ∧
    e.attr? "href" = some href ∧ load (Path.join base href) = .ok document ∧
    base' = Path.directory (Path.join base href)

/-- Whether a chain of documents without end, each of which leads to the next, starts in a
document. -/
def Endless (load : Loader) (root : Element) (base : String) : Prop :=
  ∃ (documents : Nat → Element) (bases : Nat → String), documents 0 = root ∧ bases 0 = base ∧
    ∀ n, Leads load (documents n) (bases n) (documents (n + 1)) (bases (n + 1))

/-- What a document leads to was expanded before it. -/
theorem Leads.exists_expand {remaining : Nat} {root document t : Element} {base' : String}
    (h : Leads load root base document base') (ht : expand load limit remaining root base = .ok t) :
    ∃ below u, remaining = below + 1 ∧ expand load limit below document base' = .ok u := by
  obtain ⟨resolved, e, href, hresolved, hsite, hhref, hload, rfl⟩ := h
  obtain ⟨resolved', hresolved', expanded, hexpanded, _⟩ := expand_eq_ok.mp ht
  obtain rfl := Except.ok.inj (hresolved.symm.trans hresolved')
  obtain ⟨directive, u, hname, hsplice⟩ := exists_splice hexpanded hsite
  cases remaining with
  | zero => exact absurd hsplice splice_zero_ne_ok
  | succ below =>
    obtain ⟨href', hhref', document', hload', u, hu, _⟩ := splice_succ_eq_ok.mp hsplice
    obtain rfl := Option.some.inj (hhref.symm.trans hhref')
    obtain rfl := Except.ok.inj (hload.symm.trans hload')
    exact ⟨below, u, rfl, hu⟩

theorem Endless.expand_ne_ok {root : Element} (h : Endless load root base) (remaining : Nat)
    (t : Element) : expand load limit remaining root base ≠ .ok t := by
  obtain ⟨documents, bases, rfl, rfl, hleads⟩ := h
  -- Every document of the chain needs one level more than the one behind it.
  have hall : ∀ remaining n t, expand load limit remaining (documents n) (bases n) ≠ .ok t := by
    intro remaining
    induction remaining with
    | zero =>
      intro n t ht
      obtain ⟨below, _, hbelow, _⟩ := (hleads n).exists_expand ht
      exact absurd hbelow (Nat.succ_ne_zero below).symm
    | succ remaining ih =>
      intro n t ht
      obtain ⟨below, u, hbelow, hu⟩ := (hleads n).exists_expand ht
      obtain rfl := Nat.succ.inj hbelow
      exact ih (n + 1) u hu
  exact hall remaining 0 t

/-- Every expansion ends, with one outcome. A higher limit changes that outcome only if the limit
was reached, and where a chain of documents without end starts, it is an error under every limit. -/
theorem expansion_ends (load : Loader) (root : Element) (base : String) :
    (∀ limit outcome,
      Ends load limit 0 root base outcome ↔ preprocess load limit root base = outcome) ∧
    (∀ limit more, limit ≤ more → ¬ TooDeep (preprocess load limit root base) →
      preprocess load more root base = preprocess load limit root base) ∧
    (Endless load root base →
      ∀ limit, ∃ fault, preprocess load limit root base = .error fault) := by
  refine ⟨fun limit outcome => ⟨fun h => ?_, fun h => ?_⟩, fun limit more hle hnot => ?_,
    fun hendless limit => ?_⟩
  · exact h.eq_expand (Nat.zero_le limit)
  · rw [← h]
    exact ends_expand (Nat.zero_add limit) root base
  · exact deepens_expand load limit more hle root base hnot
  · cases h : preprocess load limit root base with
    | error fault => exact ⟨fault, rfl⟩
    | ok t => exact absurd h (hendless.expand_ne_ok limit t)

/-- A document that includes itself. -/
def looping : Element :=
  ⟨"Loop", [], [⟨"Include", [("href", "loop.xml")], [], "/Loop/Include", none⟩], "/Loop", none⟩

/-- Whatever is asked for, it is that document. -/
def loopingLoader : Loader := fun _ => .ok looping

theorem endless_looping : Endless loopingLoader looping "/cfg" := by
  have hsame : "/cfg" = Path.directory (Path.join "/cfg" "loop.xml") := by decide
  exact ⟨fun _ => looping, fun _ => "/cfg", rfl, rfl, fun _ =>
    ⟨looping, _, "loop.xml", rfl, .child List.mem_cons_self (Or.inl rfl), rfl, rfl, hsame⟩⟩

/-- The two files of a chain need two levels and come to the same under all higher limits; a
document that includes itself is an error under all limits. -/
theorem expansion_ends_looping :
    (∀ more, 2 ≤ more → preprocess chained more chainedSystem "/d" = .ok chainedResult) ∧
      ∀ limit, ∃ fault, preprocess loopingLoader limit looping "/cfg" = .error fault := by
  have hchained : preprocess chained 2 chainedSystem "/d" = .ok chainedResult := rfl
  refine ⟨fun more hle => ?_, (expansion_ends loopingLoader looping "/cfg").2.2 endless_looping⟩
  rw [← hchained]
  refine (expansion_ends chained chainedSystem "/d").2.1 2 more hle ?_
  rw [hchained]
  rintro ⟨_, _, ⟨⟩⟩

end MotionRack.Expansion
