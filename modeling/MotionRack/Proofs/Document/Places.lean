import Mathlib.Data.List.Nodup
import MotionRack.Proofs.Document.Keys

/-!
# Places of elements

Every element carries its path. Whatever is done to trees, the path of a child says where it stands
below its parent: by its name, and by its rank if it has siblings of that name. If no name holds a
mark of paths, no two elements of a tree have one path.
-/
namespace MotionRack

namespace Element

/-- Whether the path of the child at a place among the children of an element is that of the
element, a slash and the name of the child. The rank among the siblings of that name follows if
there are any others. -/
structure StandsAt (e : Element) (i : Nat) (c : Element) : Prop where
  alone : (∀ j s, e.children[j]? = some s → s.name = c.name → j = i) →
    c.path = e.path ++ "/" ++ c.name
  among : (∃ j s, e.children[j]? = some s ∧ s.name = c.name ∧ j ≠ i) →
    c.path = e.path ++ "/" ++ c.name ++ "[" ++
      toString (((e.children.take i).filter (·.name == c.name)).length + 1) ++ "]"

/-- Whether every child in a tree stands where its path says. -/
def Placed (e : Element) : Prop :=
  ∀ d ∈ e.elements, ∀ i c, d.children[i]? = some c → d.StandsAt i c

theorem placed_iff {e : Element} :
    e.Placed ↔ (∀ i c, e.children[i]? = some c → e.StandsAt i c) ∧ ∀ c ∈ e.children, c.Placed :=
  forall_mem_elements

theorem Placed.of_mem {e d : Element} (h : e.Placed) (hd : d ∈ e.elements) : d.Placed :=
  fun x hx => h x (mem_elements_trans hx hd)

/-! ### New places -/

/-- The part of a path for one child. -/
def segment (siblings seen : List String) (name : String) : String :=
  if 1 < siblings.count name then name ++ "[" ++ toString (seen.count name + 1) ++ "]" else name

theorem childPath_eq (path : String) (siblings seen : List String) (name : String) :
    childPath path siblings seen name = path ++ "/" ++ segment siblings seen name := by
  rw [childPath, segment]
  split
  · simp [toString, String.append_assoc]
  · simp [toString]

/-- A name occurs several times exactly if it stands at another place too. -/
theorem one_lt_count_iff {names : List String} {i : Nat} {name : String}
    (h : names[i]? = some name) :
    1 < names.count name ↔ ∃ j, names[j]? = some name ∧ j ≠ i := by
  induction names generalizing i with
  | nil => cases h
  | cons first rest ih =>
    cases i with
    | zero =>
      obtain rfl := Option.some.inj h
      rw [List.count_cons_self, Nat.lt_add_left_iff_pos, List.count_pos_iff, List.mem_iff_getElem?]
      constructor
      · rintro ⟨j, hj⟩
        exact ⟨j + 1, hj, Nat.succ_ne_zero j⟩
      · rintro ⟨j, hj, hne⟩
        obtain ⟨j, rfl⟩ := Nat.exists_eq_succ_of_ne_zero hne
        exact ⟨j, hj⟩
    | succ i =>
      by_cases hfirst : first = name
      · have hpos : 0 < rest.count name := List.count_pos_iff.mpr (List.mem_of_getElem? h)
        rw [hfirst, List.count_cons_self]
        exact iff_of_true (by omega) ⟨0, rfl, (Nat.succ_ne_zero i).symm⟩
      · rw [List.count_cons_of_ne hfirst, ih h]
        constructor
        · rintro ⟨j, hj, hne⟩
          exact ⟨j + 1, hj, by omega⟩
        · rintro ⟨j, hj, hne⟩
          cases j with
          | zero => exact absurd (Option.some.inj hj) hfirst
          | succ j => exact ⟨j, hj, by omega⟩

/-- Where a child stands is what numbering says. -/
theorem standsAt_iff {e c : Element} {i : Nat} (h : e.children[i]? = some c) :
    e.StandsAt i c ↔
      c.path = childPath e.path (e.children.map name) ((e.children.take i).map name) c.name := by
  have hname : (e.children.map name)[i]? = some c.name := by rw [List.getElem?_map, h]; rfl
  have hrank : ((e.children.take i).filter (·.name == c.name)).length =
      ((e.children.take i).map name).count c.name := by
    rw [List.count, List.countP_map, List.countP_eq_length_filter]
    rfl
  have hothers : 1 < (e.children.map name).count c.name ↔
      ∃ j s, e.children[j]? = some s ∧ s.name = c.name ∧ j ≠ i := by
    rw [one_lt_count_iff hname]
    simp only [List.getElem?_map, Option.map_eq_some_iff]
    constructor
    · rintro ⟨j, ⟨s, hs, hsame⟩, hne⟩
      exact ⟨j, s, hs, hsame, hne⟩
    · rintro ⟨j, s, hs, hsame, hne⟩
      exact ⟨j, ⟨s, hs, hsame⟩, hne⟩
  rw [childPath_eq, segment]
  by_cases hseveral : 1 < (e.children.map name).count c.name
  · rw [if_pos hseveral]
    obtain ⟨j, s, hs, hsame, hne⟩ := hothers.mp hseveral
    constructor
    · intro hstands
      rw [hstands.among ⟨j, s, hs, hsame, hne⟩, hrank]
      simp only [String.append_assoc]
    · intro hpath
      refine ⟨fun halone => absurd (halone j s hs hsame) hne, fun _ => ?_⟩
      rw [hpath, hrank]
      simp only [String.append_assoc]
  · rw [if_neg hseveral]
    constructor
    · intro hstands
      refine hstands.alone fun j s hs hsame => ?_
      exact Classical.byContradiction fun hne => hseveral (hothers.mpr ⟨j, s, hs, hsame, hne⟩)
    · intro hpath
      exact ⟨fun _ => hpath, fun hamong => absurd (hothers.mpr hamong) hseveral⟩

theorem getElem?_reindexAll (path : String) (siblings seen : List String) (es : List Element)
    (i : Nat) :
    (reindexAll path siblings seen es)[i]? = es[i]?.map fun e =>
      e.reindex (childPath path siblings (((es.take i).map name).reverse ++ seen) e.name) := by
  induction es generalizing seen i with
  | nil => rfl
  | cons e es ih =>
    cases i with
    | zero => rfl
    | succ i =>
      rw [reindexAll, List.getElem?_cons_succ, List.getElem?_cons_succ, ih, List.take_succ_cons,
        List.map_cons, List.reverse_cons, List.append_assoc]
      rfl

theorem path_reindex (path : String) (e : Element) : (e.reindex path).path = path := by
  cases e
  rw [reindex]

/-- Numbering gives every element its place. -/
theorem placed_reindex (path : String) (e : Element) : (e.reindex path).Placed := by
  induction e using induct generalizing path with
  | step name attributes children old source ih =>
    rw [reindex, placed_iff]
    have hplace : ∀ i c, (reindexAll path (children.map Element.name) [] children)[i]? = some c →
        ∃ c' : Element, children[i]? = some c' ∧
          c = c'.reindex (childPath path (children.map Element.name)
            ((children.take i).map Element.name).reverse c'.name) := by
      intro i c hc
      rw [getElem?_reindexAll] at hc
      obtain ⟨c', hc', rfl⟩ := Option.map_eq_some_iff.mp hc
      exact ⟨c', hc', by rw [List.append_nil]⟩
    constructor
    · intro i c hc
      obtain ⟨c', hc', rfl⟩ := hplace i c hc
      have hseen : ((reindexAll path (children.map Element.name) [] children).take i).map
          Element.name = (children.take i).map Element.name := by
        rw [List.map_take, map_name_reindexAll, ← List.map_take]
      refine (standsAt_iff hc).mpr ?_
      rw [path_reindex, name_reindex]
      change _ = childPath path ((reindexAll path (children.map Element.name) [] children).map
        Element.name) (((reindexAll path (children.map Element.name) [] children).take i).map
        Element.name) c'.name
      rw [hseen, map_name_reindexAll, childPath_eq, childPath_eq, segment, segment,
        List.count_reverse]
    · intro c hc
      obtain ⟨i, hi⟩ := List.mem_iff_getElem?.mp hc
      obtain ⟨c', hc', rfl⟩ := hplace i c hi
      exact ih c' (List.mem_of_getElem? hc') _

/-! ### Paths that tell elements apart -/

/-- Whether a name holds none of the marks that paths are made with. -/
def Unmarked (name : String) : Prop := '/' ∉ name.toList ∧ '[' ∉ name.toList

theorem toString_inj {m n : Nat} (h : toString m = toString n) : m = n := by
  have hdigits : Nat.toDigits 10 m = Nat.toDigits 10 n := by
    rw [← Nat.toList_repr, ← Nat.toList_repr]
    exact congrArg String.toList h
  rw [← Nat.ofDigitChars_ten_toDigits (n := m), hdigits, Nat.ofDigitChars_ten_toDigits]

theorem slash_notMem_segment {name : String} (h : Unmarked name) (siblings seen : List String) :
    '/' ∉ (segment siblings seen name).toList := by
  have hdigits : '/' ∉ Nat.toDigits 10 (seen.count name + 1) := by
    intro hmem
    exact absurd (Nat.isDigit_of_mem_toDigits (by decide) (by decide) hmem) (by decide)
  rw [segment]
  split
  · simp [h.1, hdigits]
  · exact h.1

/-- The name of a child is what stands ahead of the bracket in its part of the path. -/
theorem takeWhile_segment {name : String} (h : Unmarked name) (siblings seen : List String) :
    (segment siblings seen name).toList.takeWhile (· != '[') = name.toList := by
  have hname : ∀ rest, (name.toList ++ rest).takeWhile (· != '[') =
      name.toList ++ rest.takeWhile (· != '[') :=
    fun _ => List.takeWhile_append_of_pos (Split.forall_bne_of_notMem h.2)
  rw [segment]
  split
  · simp only [String.toList_append, List.append_assoc]
    rw [hname]
    exact List.append_nil _
  · have hself := hname []
    rwa [List.append_nil, List.takeWhile_nil, List.append_nil] at hself

theorem count_take_lt {names : List String} {i j : Nat} {name : String} (h : names[i]? = some name)
    (hij : i < j) : (names.take i).count name < (names.take j).count name := by
  have hnext : (names.take (i + 1)).count name = (names.take i).count name + 1 := by
    rw [List.take_add_one, h, List.count_append]
    exact congrArg _ List.count_singleton_self
  have hprefix : (names.take (i + 1)).count name ≤ (names.take j).count name :=
    (List.take_sublist_take_left hij).count_le name
  omega

/-- Children at different places have different parts of the path. -/
theorem segment_ne {names : List String} (hnames : ∀ n ∈ names, Unmarked n) {i j : Nat}
    {name name' : String} (hi : names[i]? = some name) (hj : names[j]? = some name') (hij : i < j) :
    segment names (names.take i) name ≠ segment names (names.take j) name' := by
  intro hsame
  have hname : name.toList = name'.toList := by
    rw [← takeWhile_segment (hnames name (List.mem_of_getElem? hi)) names (names.take i), hsame,
      takeWhile_segment (hnames name' (List.mem_of_getElem? hj))]
  obtain rfl := String.toList_inj.mp hname
  -- Both have a rank then, and the later one counts the earlier one among those before it.
  have hseveral : 1 < names.count name := (one_lt_count_iff hi).mpr ⟨j, hj, by omega⟩
  have hrank := count_take_lt hi hij
  rw [segment, segment, if_pos hseveral, if_pos hseveral] at hsame
  have hnumbers : toString ((names.take i).count name + 1) =
      toString ((names.take j).count name + 1) := by
    simpa using hsame
  have hequal := toString_inj hnumbers
  omega

theorem path_child {e c : Element} (h : e.Placed) {i : Nat} (hc : e.children[i]? = some c) :
    c.path.toList = e.path.toList ++ '/' :: (segment (e.children.map name)
      ((e.children.map name).take i) c.name).toList := by
  rw [(standsAt_iff hc).mp ((placed_iff.mp h).1 i c hc), childPath_eq, List.map_take,
    String.toList_append, String.toList_append, List.append_assoc]
  rfl

/-- Whether a text may follow the part of a path for one child. -/
def Follows (tail : List Char) : Prop := tail = [] ∨ ∃ rest, tail = '/' :: rest

/-- A part of a path ends where the next slash stands. -/
theorem takeWhile_append_of_follows {part tail : List Char} (hpart : '/' ∉ part)
    (h : Follows tail) : (part ++ tail).takeWhile (· != '/') = part := by
  rw [List.takeWhile_append_of_pos (Split.forall_bne_of_notMem hpart)]
  obtain rfl | ⟨rest, rfl⟩ := h
  · exact List.append_nil part
  · exact List.append_nil part

/-- The path of an element starts with those of all above it. -/
theorem path_of_mem {e d : Element} (h : e.Placed) (hd : d ∈ e.elements) :
    ∃ tail, Follows tail ∧ d.path.toList = e.path.toList ++ tail := by
  induction e using induct with
  | step name attributes children path source ih =>
    rcases mem_elements.mp hd with rfl | ⟨c, hc, hd⟩
    · exact ⟨[], Or.inl rfl, (List.append_nil _).symm⟩
    · obtain ⟨i, hi⟩ := List.mem_iff_getElem?.mp hc
      obtain ⟨tail, -, htail⟩ := ih c hc ((placed_iff.mp h).2 c hc) hd
      rw [path_child h hi, List.append_assoc, List.cons_append] at htail
      exact ⟨_, Or.inr ⟨_, rfl⟩, htail⟩

theorem path_below {e c d : Element} (h : e.Placed) {i : Nat} (hc : e.children[i]? = some c)
    (hd : d ∈ c.elements) :
    ∃ tail, Follows tail ∧ d.path.toList = e.path.toList ++ '/' ::
      ((segment (e.children.map name) ((e.children.map name).take i) c.name).toList ++ tail) := by
  obtain ⟨tail, hfollows, htail⟩ :=
    path_of_mem ((placed_iff.mp h).2 c (List.mem_of_getElem? hc)) hd
  rw [path_child h hc, List.append_assoc, List.cons_append] at htail
  exact ⟨tail, hfollows, htail⟩

theorem path_ne_of_lt {e c c' d d' : Element} (h : e.Placed)
    (hnames : ∀ s ∈ e.children, Unmarked s.name) {i j : Nat} (hi : e.children[i]? = some c)
    (hj : e.children[j]? = some c') (hij : i < j) (hd : d ∈ c.elements) (hd' : d' ∈ c'.elements) :
    d.path ≠ d'.path := by
  obtain ⟨tail, hfollows, hpath⟩ := path_below h hi hd
  obtain ⟨tail', hfollows', hpath'⟩ := path_below h hj hd'
  intro hsame
  rw [hsame, hpath'] at hpath
  -- Behind the path of the parent, both paths go on with a part that ends at the next slash.
  have hrest := (List.cons.inj (List.append_cancel_left hpath)).2
  have hparts := congrArg (List.takeWhile (· != '/')) hrest
  have hunmarked : ∀ n ∈ e.children.map name, Unmarked n := by
    rw [List.forall_mem_map]
    exact hnames
  have hname : (e.children.map name)[i]? = some c.name := by rw [List.getElem?_map, hi]; rfl
  have hname' : (e.children.map name)[j]? = some c'.name := by rw [List.getElem?_map, hj]; rfl
  have hslash := slash_notMem_segment (hunmarked _ (List.mem_of_getElem? hname))
  have hslash' := slash_notMem_segment (hunmarked _ (List.mem_of_getElem? hname'))
  rw [takeWhile_append_of_follows (hslash _ _) hfollows,
    takeWhile_append_of_follows (hslash' _ _) hfollows'] at hparts
  exact segment_ne hunmarked hname hname' hij (String.toList_inj.mp hparts.symm)

theorem nodup_paths {e : Element} (h : e.Placed) (hnames : ∀ d ∈ e.elements, Unmarked d.name) :
    (e.elements.map (·.path)).Nodup := by
  induction e using induct with
  | step name attributes children path source ih =>
    have hbelow := (forall_mem_elements.mp hnames).2
    have hchildren : ∀ c ∈ children, Unmarked c.name := fun c hc =>
      hbelow c hc c (self_mem_elements c)
    rw [elements_eq, List.map_cons, List.nodup_cons, List.map_flatMap, List.nodup_flatMap]
    refine ⟨fun hmem => ?_, fun c hc => ?_, ?_⟩
    · obtain ⟨c, hc, hmem⟩ := List.mem_flatMap.mp hmem
      obtain ⟨d, hd, hpath⟩ := List.mem_map.mp hmem
      obtain ⟨i, hi⟩ := List.mem_iff_getElem?.mp hc
      obtain ⟨tail, -, htail⟩ := path_of_mem ((placed_iff.mp h).2 c hc) hd
      rw [hpath, path_child h hi, List.append_assoc] at htail
      have hlength := congrArg List.length htail
      rw [List.length_append, List.cons_append, List.length_cons] at hlength
      omega
    · exact ih c hc ((placed_iff.mp h).2 c hc) (hbelow c hc)
    · rw [List.pairwise_iff_getElem]
      intro i j hi hj hij p hp hp'
      obtain ⟨d, hd, rfl⟩ := List.mem_map.mp hp
      obtain ⟨d', hd', hpath⟩ := List.mem_map.mp hp'
      exact path_ne_of_lt h hchildren (List.getElem?_eq_getElem hi) (List.getElem?_eq_getElem hj)
        hij hd hd' hpath.symm

end Element
end MotionRack
