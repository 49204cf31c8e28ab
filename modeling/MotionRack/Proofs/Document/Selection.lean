import Mathlib.Data.List.Basic
import MotionRack.Document.Reader
import MotionRack.Proofs.Document.Content

/-!
# What queries select

A query describes ways down from an element, by the names on them, and denotes every element at the
end of such a way. Elements are told apart by their addresses, since equal ones may stand at several
places, and addresses are in the order of the document if they are compared from the front.

A query for a name anywhere selects the first element that it denotes. A query for a chain of names
follows the first child of each name only. What it selects is the first element that it denotes, but
it selects none if the first child of a name leads nowhere and a later one leads on.
-/
namespace MotionRack

namespace Element

/-! ### Ways and addresses -/

/-- Whether an address leads from an element to another one, and which names are on the way, those
of both ends among them. An address counts the children before the one that it goes to. -/
inductive LeadsTo : Element → List Nat → List String → Element → Prop
  | here (e : Element) : LeadsTo e [] [e.name] e
  | child {e c d : Element} {i : Nat} {address : List Nat} {way : List String} :
      e.children[i]? = some c → LeadsTo c address way d →
      LeadsTo e (i :: address) (e.name :: way) d

/-- Whether an address is the same as another one or before it in document order: an element stands
before all below it, and all below a child before all below a later one. -/
def InOrder : List Nat → List Nat → Prop
  | [], _ => True
  | _ :: _, [] => False
  | i :: address, j :: other => i < j ∨ i = j ∧ InOrder address other

/-- Whether the element at an address is at the end of an accepted way. -/
def DenotedAt (accepts : List String → Prop) (e : Element) (address : List Nat) (d : Element) :
    Prop :=
  ∃ way, LeadsTo e address way d ∧ accepts way

/-- Whether a selection is the first element in document order that is denoted, or none because
there is no such element. -/
def Selects (accepts : List String → Prop) (e : Element) : Option Element → Prop
  | some d => ∃ address, DenotedAt accepts e address d ∧
      ∀ other x, DenotedAt accepts e other x → InOrder address other
  | none => ∀ address d, ¬ DenotedAt accepts e address d

variable {accepts accepts' : List String → Prop} {e c d : Element} {address : List Nat}
  {way : List String} {name : String} {rest : List String}

theorem LeadsTo.exists_tail (h : LeadsTo e address way d) : ∃ tail, way = e.name :: tail := by
  cases h with
  | here => exact ⟨[], rfl⟩
  | child _ _ => exact ⟨_, rfl⟩

theorem denotedAt_nil : DenotedAt accepts e [] d ↔ d = e ∧ accepts [e.name] := by
  constructor
  · rintro ⟨way, hway, haccepts⟩
    cases hway
    exact ⟨rfl, haccepts⟩
  · rintro ⟨rfl, haccepts⟩
    exact ⟨_, .here _, haccepts⟩

theorem denotedAt_cons {i : Nat} : DenotedAt accepts e (i :: address) d ↔
    ∃ c, e.children[i]? = some c ∧ DenotedAt (fun way => accepts (e.name :: way)) c address d := by
  constructor
  · rintro ⟨way, hway, haccepts⟩
    cases hway with
    | child hchild hrest => exact ⟨_, hchild, _, hrest, haccepts⟩
  · rintro ⟨c, hchild, way, hrest, haccepts⟩
    exact ⟨_, .child hchild hrest, haccepts⟩

/-- Only the ways that there are count. -/
theorem selects_congr
    (h : ∀ address way d, LeadsTo e address way d → (accepts way ↔ accepts' way))
    (found : Option Element) : Selects accepts e found ↔ Selects accepts' e found := by
  have hdenoted : ∀ address d, DenotedAt accepts e address d ↔ DenotedAt accepts' e address d :=
    fun address d => exists_congr fun way => and_congr_right fun hway => h address way d hway
  cases found <;> simp only [Selects, hdenoted]

/-- An element that is denoted itself is the first one. -/
theorem selects_self (h : accepts [e.name]) : Selects accepts e (some e) :=
  ⟨[], denotedAt_nil.mpr ⟨rfl, h⟩, fun _ _ _ => trivial⟩

theorem selects_none_iff : Selects accepts e none ↔
    ¬ accepts [e.name] ∧ ∀ c ∈ e.children, Selects (fun way => accepts (e.name :: way)) c none := by
  constructor
  · intro h
    refine ⟨fun haccepts => h [] e (denotedAt_nil.mpr ⟨rfl, haccepts⟩), ?_⟩
    intro c hc address d hdenoted
    obtain ⟨i, hi⟩ := List.getElem?_of_mem hc
    exact h (i :: address) d (denotedAt_cons.mpr ⟨c, hi, hdenoted⟩)
  · rintro ⟨hself, hbelow⟩ address d hdenoted
    cases address with
    | nil => exact hself (denotedAt_nil.mp hdenoted).2
    | cons i address =>
      obtain ⟨c, hi, hdenoted⟩ := denotedAt_cons.mp hdenoted
      exact hbelow c (List.mem_of_getElem? hi) address d hdenoted

/-- The first element below a child is the first one of all if neither the element itself nor
anything below an earlier child is denoted. -/
theorem selects_of_child {before after : List Element}
    (hchildren : e.children = before ++ c :: after) (hself : ¬ accepts [e.name])
    (hbefore : ∀ s ∈ before, Selects (fun way => accepts (e.name :: way)) s none)
    (h : Selects (fun way => accepts (e.name :: way)) c (some d)) :
    Selects accepts e (some d) := by
  obtain ⟨address, hdenoted, hfirst⟩ := h
  have hchild : e.children[before.length]? = some c := by
    rw [hchildren, List.getElem?_append_right (Nat.le_refl _), Nat.sub_self]
    rfl
  refine ⟨before.length :: address, denotedAt_cons.mpr ⟨c, hchild, hdenoted⟩, ?_⟩
  intro other x hother
  cases other with
  | nil => exact absurd (denotedAt_nil.mp hother).2 hself
  | cons j other =>
    obtain ⟨s, hs, hother⟩ := denotedAt_cons.mp hother
    rw [InOrder]
    rcases Nat.lt_trichotomy before.length j with hlater | rfl | hearlier
    · exact Or.inl hlater
    · rw [hchild] at hs
      obtain rfl := Option.some.inj hs
      exact Or.inr ⟨rfl, hfirst other x hother⟩
    · rw [hchildren, List.getElem?_append_left hearlier] at hs
      exact absurd hother (hbefore s (List.mem_of_getElem? hs) other x)

/-! ### What a query denotes -/

/-- Whether a way is one that a query describes: it ends at a name, or it is a chain of names, or it
is one behind its first name. -/
def Query.Accepts : Query → List String → Prop
  | .anywhere name, way => way.getLast? = some name
  | .absolute names, way => way = names
  | .relative names, way => way.tail = names

/-- Whether a name can stand in a query. An empty one would run two slashes together. -/
def Query.IsName (name : String) : Prop := name ≠ "" ∧ '/' ∉ name.toList

/-- How queries are written: two slashes before a name, or names with slashes between them, behind
one more slash if the first of them is the element's own. -/
inductive Query.Writes : Query → String → Prop
  | anywhere (name : String) : Writes (.anywhere name) ("//" ++ name)
  | absolute {root : String} {names : List String} : (∀ name ∈ root :: names, IsName name) →
      Writes (.absolute (root :: names)) ("/" ++ "/".intercalate (root :: names))
  | relative {names : List String} : (∀ name ∈ names, IsName name) →
      Writes (.relative names) ("/".intercalate names)

/-- Whether a chain of names leads on from an element, each to a child of the one before. -/
def LeadsOn (e : Element) (names : List String) : Prop :=
  ∃ address d, LeadsTo e address (e.name :: names) d

/-- Whether first children lead astray: on the way along the first child of each name, there is one
that does not lead on, while another child of its name does. -/
inductive Strays : Element → List String → Prop
  | here {e c s : Element} {name : String} {rest : List String} :
      e.child? name = some c → ¬ LeadsOn c rest →
      s ∈ e.children → s.name = name → LeadsOn s rest → Strays e (name :: rest)
  | child {e c : Element} {name : String} {rest : List String} :
      e.child? name = some c → Strays c rest → Strays e (name :: rest)

/-- Whether first children lead a query astray. -/
def Query.Strays (e : Element) : Query → Prop
  | .anywhere _ => False
  | .absolute names => ∃ rest, names = e.name :: rest ∧ Element.Strays e rest
  | .relative names => Element.Strays e names

/-! ### Names anywhere -/

theorem findIn?_eq_findSome? (name : String) (es : List Element) :
    findIn? name es = es.findSome? (find? name) := by
  induction es with
  | nil => rfl
  | cons e es ih =>
    rw [findIn?, List.findSome?_cons, ih]
    cases find? name e <;> rfl

/-- Below an element, the ways that end at a name are the same as behind the element. -/
theorem anywhere_selects_iff {found : Option Element} :
    Selects (fun way => (Query.anywhere name).Accepts (e.name :: way)) c found ↔
      Selects (Query.anywhere name).Accepts c found := by
  refine selects_congr ?_ found
  intro address way d hway
  obtain ⟨tail, rfl⟩ := hway.exists_tail
  rw [Query.Accepts, Query.Accepts, List.getLast?_cons_cons]

/-- The search for a name anywhere selects the first element of that name. -/
theorem find?_selects (name : String) (e : Element) :
    Selects (Query.anywhere name).Accepts e (find? name e) := by
  induction e using induct with
  | step own attributes children path source ih =>
    rw [find?_eq]
    split
    next hname => exact selects_self (congrArg some hname)
    next hname =>
      have hself : ¬ (Query.anywhere name).Accepts [own] := fun h => hname (Option.some.inj h)
      dsimp only
      rw [findIn?_eq_findSome?]
      cases hfound : children.findSome? (find? name) with
      | none =>
        refine selects_none_iff.mpr ⟨hself, fun c hc => anywhere_selects_iff.mpr ?_⟩
        rw [← List.findSome?_eq_none_iff.mp hfound c hc]
        exact ih c hc
      | some d =>
        obtain ⟨before, c, after, rfl, hc, hbefore⟩ := List.findSome?_eq_some_iff.mp hfound
        refine selects_of_child rfl hself ?_ ?_
        · intro s hs
          rw [anywhere_selects_iff, ← hbefore s hs]
          exact ih s (List.mem_append_left _ hs)
        · rw [anywhere_selects_iff, ← hc]
          exact ih c (by simp)

/-! ### Chains of names -/

theorem leadsOn_iff : LeadsOn e rest ↔ ¬ Selects (· = e.name :: rest) e none := by
  simp [LeadsOn, Selects, DenotedAt]

theorem leadsOn_cons : LeadsOn e (name :: rest) ↔
    ∃ c ∈ e.children, c.name = name ∧ LeadsOn c rest := by
  constructor
  · rintro ⟨address, d, hway⟩
    cases hway with
    | child hchild hrest =>
      obtain ⟨tail, htail⟩ := hrest.exists_tail
      obtain ⟨rfl, rfl⟩ := List.cons.inj htail
      exact ⟨_, List.mem_of_getElem? hchild, rfl, _, d, hrest⟩
  · rintro ⟨c, hc, rfl, address, d, hrest⟩
    obtain ⟨i, hi⟩ := List.getElem?_of_mem hc
    exact ⟨i :: address, d, .child hi hrest⟩

/-- What the walk along first children comes to is the first element at the end of the chain. -/
theorem selects_of_walk? (h : e.walk? rest = some d) :
    Selects (· = e.name :: rest) e (some d) := by
  induction rest generalizing e with
  | nil =>
    obtain rfl := Option.some.inj h
    exact selects_self rfl
  | cons name rest ih =>
    rw [walk?] at h
    obtain ⟨c, hchild, hwalk⟩ := Option.bind_eq_some_iff.mp h
    obtain ⟨hname, before, after, hchildren, hbefore⟩ := List.find?_eq_some_iff_append.mp hchild
    have hbelow : (fun way => e.name :: way = e.name :: name :: rest) = (· = name :: rest) := by
      simp only [List.cons.injEq, true_and]
    refine selects_of_child hchildren (by simp) ?_ ?_
    · intro s hs address x hdenoted
      rw [hbelow] at hdenoted
      obtain ⟨way, hway, rfl⟩ := hdenoted
      obtain ⟨tail, htail⟩ := hway.exists_tail
      have hother := hbefore s hs
      simp [(List.cons.inj htail).1] at hother
    · rw [hbelow, ← beq_iff_eq.mp hname]
      exact ih hwalk

theorem leadsOn_of_walk? (h : e.walk? rest = some d) : LeadsOn e rest := by
  rw [leadsOn_iff]
  intro hnone
  obtain ⟨address, hdenoted, -⟩ := selects_of_walk? h
  exact hnone address d hdenoted

/-- First children lead astray exactly if the walk comes to nothing although the chain leads on. -/
theorem strays_iff : Strays e rest ↔ e.walk? rest = none ∧ LeadsOn e rest := by
  constructor
  · intro h
    induction h with
    | @here e c s name rest hchild hends hs hname hleads =>
      refine ⟨?_, leadsOn_cons.mpr ⟨s, hs, hname, hleads⟩⟩
      rw [walk?, hchild, Option.bind_some, Option.eq_none_iff_forall_ne_some]
      exact fun d hwalk => hends (leadsOn_of_walk? hwalk)
    | @child e c name rest hchild _ ih =>
      have hname := (List.find?_eq_some_iff_append.mp hchild).1
      refine ⟨by rw [walk?, hchild, Option.bind_some, ih.1], leadsOn_cons.mpr ⟨c, ?_, ?_, ih.2⟩⟩
      · exact List.mem_of_find?_eq_some hchild
      · exact beq_iff_eq.mp hname
  · rintro ⟨hwalk, hleads⟩
    induction rest generalizing e with
    | nil => cases hwalk
    | cons name rest ih =>
      obtain ⟨s, hs, hname, hleads⟩ := leadsOn_cons.mp hleads
      obtain ⟨c, hchild⟩ : ∃ c, e.child? name = some c :=
        Option.isSome_iff_exists.mp (List.find?_isSome.mpr ⟨s, hs, beq_iff_eq.mpr hname⟩)
      rw [walk?, hchild, Option.bind_some] at hwalk
      by_cases hfirst : LeadsOn c rest
      · exact .child hchild (ih hwalk hfirst)
      · exact .here hchild hfirst hs hname hleads

theorem walk?_selects_iff :
    Selects (· = e.name :: rest) e (e.walk? rest) ↔ ¬ Strays e rest := by
  rw [strays_iff, leadsOn_iff]
  cases hwalk : e.walk? rest with
  | none => simp
  | some d => simpa using selects_of_walk? hwalk

/-! ### Texts of queries -/

theorem Query.names_intercalate {names : List String} (h : ∀ name ∈ names, IsName name) :
    Query.names ("/".intercalate names).toList = names := by
  induction names with
  | nil => rfl
  | cons name rest ih =>
    obtain ⟨⟨hne, hslash⟩, hrest⟩ := List.forall_mem_cons.mp h
    have hcut := Split.cut_of_notMem hslash
    cases rest with
    | nil => simp [Query.names, String.intercalate_singleton, hcut, hne]
    | cons next rest =>
      have hnames := ih hrest
      rw [Query.names] at hnames
      have htext : ("/".intercalate (name :: next :: rest)).toList =
          name.toList ++ '/' :: ("/".intercalate (next :: rest)).toList := by
        rw [String.intercalate_cons_cons, String.toList_append, String.toList_append,
          List.append_assoc]
        rfl
      rw [Query.names, htext, Split.cut_append, hcut, List.singleton_append,
        List.filter_cons_of_pos (by simpa using hne), List.map_cons, hnames, String.ofList_toList]

theorem Query.head?_intercalate {names : List String} (h : ∀ name ∈ names, IsName name) :
    ("/".intercalate names).toList.head? ≠ some '/' := by
  cases names with
  | nil => simp
  | cons name rest =>
    obtain ⟨⟨hne, hslash⟩, -⟩ := List.forall_mem_cons.mp h
    obtain ⟨c, cs, hname⟩ := List.exists_cons_of_ne_nil (mt String.toList_eq_nil_iff.mp hne)
    have hhead : ("/".intercalate (name :: rest)).toList.head? = some c := by
      cases rest with
      | nil => rw [String.intercalate_singleton, hname, List.head?_cons]
      | cons next rest =>
        rw [String.intercalate_cons_cons, String.toList_append, String.toList_append, hname]
        rfl
    rw [hhead]
    intro hc
    rw [hname, Option.some.inj hc] at hslash
    exact hslash List.mem_cons_self

/-- A written query is read as what it was. -/
theorem Query.parse_of_writes {q : Query} {text : String} (h : q.Writes text) :
    Query.parse text = q := by
  cases h with
  | anywhere name =>
    rw [Query.parse, String.toList_append]
    exact congrArg Query.anywhere String.ofList_toList
  | @absolute root names hnames =>
    have htext : ("/" ++ "/".intercalate (root :: names)).toList =
        '/' :: ("/".intercalate (root :: names)).toList := String.toList_append
    rw [Query.parse, htext]
    split
    next hsecond =>
      have hhead := Query.head?_intercalate hnames
      rw [(List.cons.inj hsecond).2] at hhead
      exact absurd rfl hhead
    next hfirst =>
      rw [← (List.cons.inj hfirst).2, Query.names_intercalate hnames]
    next hother => exact absurd rfl (hother _)
  | @relative names hnames =>
    have hhead := Query.head?_intercalate hnames
    rw [Query.parse]
    split
    next hfirst =>
      rw [hfirst] at hhead
      exact absurd rfl hhead
    next hfirst =>
      rw [hfirst] at hhead
      exact absurd rfl hhead
    next => rw [Query.names_intercalate hnames]

/-! ### Selection -/

theorem relative_selects_iff {names : List String} {found : Option Element} :
    Selects (Query.relative names).Accepts e found ↔ Selects (· = e.name :: names) e found := by
  refine selects_congr ?_ found
  intro address way d hway
  obtain ⟨tail, rfl⟩ := hway.exists_tail
  simp [Query.Accepts]

theorem run?_eq_none_of_strays {q : Query} (h : q.Strays e) : e.run? q = none := by
  cases q with
  | anywhere name => exact absurd h not_false
  | absolute names =>
    obtain ⟨rest, rfl, hstrays⟩ := h
    rw [run?, if_pos rfl, (strays_iff.mp hstrays).1]
  | relative names => exact (strays_iff.mp h).1

theorem run?_selects_iff {q : Query} : Selects q.Accepts e (e.run? q) ↔ ¬ q.Strays e := by
  cases q with
  | anywhere name => exact iff_of_true (find?_selects name e) not_false
  | absolute names =>
    -- A way begins with the element's own name.
    have hnone : (∀ rest, names ≠ e.name :: rest) →
        (Selects (Query.absolute names).Accepts e none ↔ ¬ (Query.absolute names).Strays e) := by
      intro hother
      refine iff_of_true (fun address d hdenoted => ?_) fun ⟨rest, hnames, _⟩ => hother rest hnames
      obtain ⟨way, hway, rfl⟩ := hdenoted
      obtain ⟨tail, htail⟩ := hway.exists_tail
      exact hother tail htail
    cases names with
    | nil => exact hnone nofun
    | cons root rest =>
      rw [run?]
      split
      next hroot =>
        subst hroot
        have hstrays : (Query.absolute (e.name :: rest)).Strays e ↔ Strays e rest := by
          simp [Query.Strays]
        rw [hstrays]
        exact walk?_selects_iff
      next hroot => exact hnone fun tail htail => hroot (List.cons.inj htail).1
  | relative names => exact relative_selects_iff.trans walk?_selects_iff

/-- What a query selects is the first element that it denotes, in document order. If it selects
none, it denotes none either, unless it is a chain of names that first children lead astray: at some
element on the way, the first child of the next name does not lead on by the names left, although
another child of that name does. A query for a name anywhere is never led astray. -/
theorem selection_first_iff {q : Query} {text : String} (h : q.Writes text) (e : Element) :
    (∀ d, e.select? text = some d → Selects q.Accepts e (some d)) ∧
    (Selects q.Accepts e (e.select? text) ↔ ¬ q.Strays e) := by
  rw [select?, Query.parse_of_writes h]
  refine ⟨fun d hfound => ?_, run?_selects_iff⟩
  have hkept : ¬ q.Strays e := by
    intro hstrays
    rw [run?_eq_none_of_strays hstrays] at hfound
    cases hfound
  rw [← hfound]
  exact run?_selects_iff.mpr hkept

section

open Document (unplaced)

/-- A card that holds a lock and some more. -/
def lockedCard (others : List Element) : Element :=
  unplaced "Card" [] (unplaced "Lock" [] [] :: others)

/-- A stage of an axis. -/
def stageOf (axis : String) : Element := unplaced "Stage" [("axis", axis)] []

/-- A rack of two cards that hold a stage. -/
def stagedRack : Element := unplaced "Rack" [] [lockedCard [stageOf "1"], lockedCard [stageOf "2"]]

/-- A rack of two cards, of which only the second one holds a stage. -/
def laterStagedRack : Element := unplaced "Rack" [] [lockedCard [], lockedCard [stageOf "2"]]

theorem selection_first_iff_stagedRack :
    (Query.relative ["Card", "Stage"]).Writes "Card/Stage" ∧
      stagedRack.select? "Card/Stage" = some (stageOf "1") ∧
      Selects (Query.relative ["Card", "Stage"]).Accepts stagedRack (some (stageOf "1")) ∧
      ¬ (Query.relative ["Card", "Stage"]).Strays stagedRack := by
  have hwritten : (Query.relative ["Card", "Stage"]).Writes "Card/Stage" :=
    .relative (by simp [Query.IsName])
  have hfound : stagedRack.select? "Card/Stage" = some (stageOf "1") := by decide
  obtain ⟨hfirst, hkept⟩ := selection_first_iff hwritten stagedRack
  rw [hfound] at hkept
  exact ⟨hwritten, hfound, hfirst _ hfound, hkept.mp (hfirst _ hfound)⟩

/-- The first card of the rack has no stage, so the query selects none, although it denotes the
stage of the second card. -/
theorem selection_misses_laterStagedRack :
    laterStagedRack.select? "Card/Stage" = none ∧
      DenotedAt (Query.relative ["Card", "Stage"]).Accepts laterStagedRack [1, 1] (stageOf "2") ∧
      ¬ Selects (Query.relative ["Card", "Stage"]).Accepts laterStagedRack
        (laterStagedRack.select? "Card/Stage") := by
  have hfound : laterStagedRack.select? "Card/Stage" = none := by decide
  have hdenoted : DenotedAt (Query.relative ["Card", "Stage"]).Accepts laterStagedRack [1, 1]
      (stageOf "2") :=
    ⟨["Rack", "Card", "Stage"], .child rfl (.child rfl (.here _)), rfl⟩
  refine ⟨hfound, hdenoted, ?_⟩
  rw [hfound]
  exact fun hnone => hnone [1, 1] (stageOf "2") hdenoted

end

end Element
end MotionRack
