import MotionRack.Proofs.Config.FirstCollision

/-!
# Classes of colliding declarations

If colliding is an equivalence, a list falls into classes. Merging leaves the only member of a class
as it is and puts the merges of all its pairs in place of the members of any other class. So no
declaration is lost; a class of two becomes one declaration, and the merges of a greater class
collide again.
-/
namespace MotionRack.Collision

variable {α : Type} {collides : α → α → Bool} {combine : α → α → α}

/-- The members of a list that collide with a declaration. -/
def classOf (collides : α → α → Bool) (items : List α) (a : α) : List α := items.filter (collides a)

/-- Whether a declaration has its class in a list for itself. -/
def isAlone (collides : α → α → Bool) (items : List α) (a : α) : Bool :=
  (classOf collides items a).length == 1

/-- The merges of every two members of a list, in the lexicographic order of their places. -/
def mergesOf (combine : α → α → α) : List α → List α
  | [] => []
  | a :: rest => rest.map (combine a) ++ mergesOf combine rest

/-- Whether a declaration is the merge of the members at two places of a list. -/
def MergeAt (combine : α → α → α) (items : List α) (c : Collision) (merge : α) : Prop :=
  ∃ a b, items[c.first]? = some a ∧ items[c.second]? = some b ∧ merge = combine a b

theorem length_mergesOf (combine : α → α → α) (items : List α) :
    (mergesOf combine items).length = items.length * (items.length - 1) / 2 := by
  rw [← Nat.choose_two_right]
  induction items with
  | nil => rfl
  | cons a rest ih =>
    rw [mergesOf, List.length_append, List.length_map, ih, List.length_cons, choose_two_succ]

theorem map_pairsWith (index position : Nat) (a : α) (items : List α) :
    (pairsWith collides index a position items).map (fun p => combine p.left p.right) =
      (items.filter (collides a)).map (combine a) := by
  induction items generalizing position with
  | nil => rfl
  | cons b rest ih =>
    rw [pairsWith]
    cases hb : collides a b with
    | true => rw [if_pos rfl, List.filter_cons_of_pos hb, List.map_cons, List.map_cons, ih]
    | false => rw [if_neg Bool.false_ne_true, List.filter_cons_of_neg (by simp [hb]), ih]

/-- The pairs of one kind are all pairs of its members. -/
theorem map_filter_pairsFrom {kind : α → Bool}
    (hkind : ∀ a b, kind a = true → collides a b = kind b) (index : Nat) (items : List α) :
    ((pairsFrom collides index items).filter fun p => kind p.left).map
        (fun p => combine p.left p.right) = mergesOf combine (items.filter kind) := by
  induction items generalizing index with
  | nil => rfl
  | cons a rest ih =>
    rw [pairsFrom, List.filter_append, List.map_append, ih]
    cases ha : kind a with
    | true =>
      have hall : (pairsWith collides index a (index + 1) rest).filter (fun p => kind p.left) =
          pairsWith collides index a (index + 1) rest := by
        apply List.filter_eq_self.mpr
        intro p hp
        rw [(mem_pairsWith hp).1, ha]
      have hothers : rest.filter (collides a) = rest.filter kind :=
        List.filter_congr fun b _ => hkind a b ha
      rw [hall, map_pairsWith, hothers, List.filter_cons_of_pos ha, mergesOf]
    | false =>
      have hnone : (pairsWith collides index a (index + 1) rest).filter (fun p => kind p.left) =
          [] := by
        apply List.filter_eq_nil_iff.mpr
        intro p hp
        rw [(mem_pairsWith hp).1, ha]
        exact Bool.false_ne_true
      rw [hnone, List.filter_cons_of_neg (by simp [ha]), List.map_nil, List.nil_append]

section

variable (hequiv : Equivalence fun a b => collides a b = true)

include hequiv

theorem collides_comm (a b : α) : collides a b = collides b a := by
  rw [Bool.eq_iff_iff]
  exact ⟨hequiv.symm, hequiv.symm⟩

theorem collides_congr {a b : α} (h : collides a b = true) (c : α) :
    collides a c = collides b c := by
  rw [Bool.eq_iff_iff]
  exact ⟨hequiv.trans (hequiv.symm h), hequiv.trans h⟩

theorem classOf_congr {a b : α} (h : collides a b = true) (items : List α) :
    classOf collides items a = classOf collides items b :=
  List.filter_congr fun c _ => collides_congr hequiv h c

theorem self_mem_classOf {items : List α} {a : α} (ha : a ∈ items) :
    a ∈ classOf collides items a :=
  List.mem_filter.mpr ⟨ha, hequiv.refl a⟩

theorem length_classOf_pos {items : List α} {a : α} (ha : a ∈ items) :
    0 < (classOf collides items a).length :=
  List.length_pos_of_mem (self_mem_classOf hequiv ha)

/-- No two members of a list collide exactly if each has its class for itself. -/
theorem pairwise_apart_iff_length_classOf {items : List α} :
    (items.Pairwise fun a b => collides a b = false) ↔
      ∀ a ∈ items, (classOf collides items a).length ≤ 1 := by
  rw [List.pairwise_iff_forall_sublist]
  constructor
  · intro hapart a _
    by_contra hmany
    obtain ⟨b, c, rest, hclass⟩ : ∃ b c rest, classOf collides items a = b :: c :: rest := by
      match hclass : classOf collides items a with
      | [] => simp [hclass] at hmany
      | [b] => simp [hclass] at hmany
      | b :: c :: rest => exact ⟨b, c, rest, rfl⟩
    have hsub : [b, c].Sublist (classOf collides items a) := by
      rw [hclass]
      exact ((List.nil_sublist rest).cons_cons c).cons_cons b
    have hb := (List.mem_filter.mp (hsub.subset List.mem_cons_self)).2
    have hc := (List.mem_filter.mp (hsub.subset (List.mem_cons_of_mem b List.mem_cons_self))).2
    have hfalse := hapart (hsub.trans List.filter_sublist)
    rw [← collides_congr hequiv hb, hc] at hfalse
    cases hfalse
  · intro hsmall a b hsub
    by_contra hcollides
    rw [Bool.not_eq_false] at hcollides
    have hboth : [a, b].filter (collides a) = [a, b] := by
      simp [hcollides, hequiv.refl a]
    have hle := (hsub.filter (collides a)).length_le
    rw [hboth] at hle
    have hone := hsmall a (hsub.subset List.mem_cons_self)
    unfold classOf at hone
    rw [List.length_cons, List.length_singleton] at hle
    omega

/-! ### Members that are left -/

theorem involves_iff_length_classOf {items : List α} {i : Nat} {a : α} (hi : items[i]? = some a) :
    involves (pairs collides items) i = true ↔ 2 ≤ (classOf collides items a).length := by
  have hkind : ∀ x y, collides a x = true → collides x y = collides a y :=
    fun x y hx => (collides_congr hequiv hx y).symm
  rw [involves_pairs_iff_two_le hkind (collides_comm hequiv) hi (hequiv.refl a),
    List.countP_eq_length_filter, classOf]

theorem isAlone_eq_not_involves {items : List α} {i : Nat} {a : α} (hi : items[i]? = some a) :
    isAlone collides items a = !involves (pairs collides items) i := by
  have hinvolved := involves_iff_length_classOf hequiv hi
  have hpos := length_classOf_pos hequiv (List.mem_of_getElem? hi)
  rw [Bool.eq_iff_iff, Bool.not_eq_true', ← Bool.not_eq_true, hinvolved, isAlone, beq_iff_eq]
  omega

theorem untouched_eq (items : List α) :
    untouched (pairs collides items) items = items.filter (isAlone collides items) := by
  have hkept : items.zipIdx.filter (fun q => !involves (pairs collides items) q.2) =
      items.zipIdx.filter (isAlone collides items ∘ Prod.fst) := by
    apply List.filter_congr
    intro q hq
    exact (isAlone_eq_not_involves hequiv (List.mem_zipIdx_iff_getElem?.mp hq)).symm
  show (items.zipIdx.filter fun q => !involves (pairs collides items) q.2).map Prod.fst = _
  rw [hkept, ← List.filter_map, List.zipIdx_map_fst]

/-- Whoever has no class for itself is in none of the classes of those who have. -/
theorem filter_isAlone_classOf {items : List α} {a : α}
    (hmany : 2 ≤ (classOf collides items a).length) :
    classOf collides (items.filter (isAlone collides items)) a = [] := by
  apply List.filter_eq_nil_iff.mpr
  intro b hb hcollides
  have halone : (classOf collides items b).length = 1 := beq_iff_eq.mp (List.mem_filter.mp hb).2
  rw [← classOf_congr hequiv hcollides] at halone
  omega

/-! ### Classes of a merged list -/

/-- The merges of all pairs that collide. -/
def merges (collides : α → α → Bool) (combine : α → α → α) (items : List α) : List α :=
  (pairs collides items).map fun p => combine p.left p.right

/-- What is left of a list: members that have their class for themselves, and then the merges. -/
theorem union_eq_classes (combine : α → α → α) (items : List α) :
    union collides combine items =
      .ok (items.filter (isAlone collides items) ++ merges collides combine items) := by
  rw [union_eq, untouched_eq hequiv]
  rfl

section

variable (hclass : ∀ a b, collides a b = true → collides a (combine a b) = true)

include hclass

theorem classOf_merges (items : List α) (a : α) :
    classOf collides (merges collides combine items) a =
      mergesOf combine (classOf collides items a) := by
  have hleft : ∀ p ∈ pairs collides items,
      (collides a ∘ fun p => combine p.left p.right) p = collides a p.left := by
    intro p hp
    have hmerge := hclass p.left p.right (mem_pairsFrom_iff.mp hp).1
    show collides a (combine p.left p.right) = _
    rw [collides_comm hequiv a, collides_comm hequiv a, collides_congr hequiv hmerge]
  rw [classOf, merges, List.filter_map, List.filter_congr hleft]
  exact map_filter_pairsFrom (fun x y hx => (collides_congr hequiv hx y).symm) 0 items

/-- In place of a class there are all merges of its members. -/
theorem classOf_merged {items : List α} {a : α}
    (hmany : 2 ≤ (classOf collides items a).length) :
    classOf collides (items.filter (isAlone collides items) ++ merges collides combine items) a =
      mergesOf combine (classOf collides items a) := by
  rw [classOf, List.filter_append]
  show classOf collides _ a ++ classOf collides _ a = _
  rw [filter_isAlone_classOf hequiv hmany, classOf_merges hequiv hclass, List.nil_append]

theorem length_classOf_merged_le_one_iff {items : List α} {a : α} (ha : a ∈ items) :
    (classOf collides (items.filter (isAlone collides items) ++
        merges collides combine items) a).length ≤ 1 ↔
      (classOf collides items a).length ≤ 2 := by
  have hpos := length_classOf_pos hequiv ha
  by_cases hone : (classOf collides items a).length = 1
  · have hkept : (classOf collides (items.filter (isAlone collides items)) a).length ≤ 1 := by
      rw [← hone]
      exact (List.filter_sublist.filter (collides a)).length_le
    have hnone : (classOf collides (merges collides combine items) a).length = 0 := by
      rw [classOf_merges hequiv hclass, length_mergesOf, hone]
    unfold classOf at hkept hnone
    rw [classOf, List.filter_append, List.length_append]
    omega
  · rw [classOf_merged hequiv hclass (by omega), length_mergesOf]
    constructor
    · intro hfew
      by_contra hthree
      have hsix := Nat.mul_le_mul (show 3 ≤ (classOf collides items a).length by omega)
        (show 2 ≤ (classOf collides items a).length - 1 by omega)
      omega
    · intro htwo
      rw [show (classOf collides items a).length = 2 by omega]

/-- Whatever a merged list holds is of the class of a member of the list. -/
theorem exists_class_of_mem {items : List α} {x : α}
    (hx : x ∈ items.filter (isAlone collides items) ++ merges collides combine items) :
    ∃ a ∈ items, collides a x = true := by
  rcases List.mem_append.mp hx with hkept | hmerged
  · exact ⟨x, (List.mem_filter.mp hkept).1, hequiv.refl x⟩
  · obtain ⟨p, hp, rfl⟩ := List.mem_map.mp hmerged
    exact ⟨p.left, (mem_pairsFrom hp).1, hclass p.left p.right (mem_pairsFrom_iff.mp hp).1⟩

/-- What was merged collides no more exactly if no class has more than two members. -/
theorem pairwise_merged_iff (items : List α) :
    ((items.filter (isAlone collides items) ++ merges collides combine items).Pairwise
        fun a b => collides a b = false) ↔
      ∀ a ∈ items, (classOf collides items a).length ≤ 2 := by
  rw [pairwise_apart_iff_length_classOf hequiv]
  constructor
  · intro hsmall a ha
    by_contra hmany
    have hlarge := mt (length_classOf_merged_le_one_iff hequiv hclass ha).mp hmany
    have hpos := Nat.lt_trans Nat.one_pos (Nat.not_le.mp hlarge)
    obtain ⟨x, hx⟩ := List.exists_mem_of_length_pos hpos
    obtain ⟨hmem, hcollides⟩ := List.mem_filter.mp hx
    have hone := hsmall x hmem
    rw [← classOf_congr hequiv hcollides] at hone
    exact hlarge hone
  · intro hsmall x hx
    obtain ⟨a, ha, hcollides⟩ := exists_class_of_mem hequiv hclass hx
    rw [← classOf_congr hequiv hcollides]
    exact (length_classOf_merged_le_one_iff hequiv hclass ha).mpr (hsmall a ha)

/-- If colliding is an equivalence, and what two declarations are combined to collides with them,
then merging always succeeds. A member that has its class for itself stays as it is; these members
keep their order and stand in front of the merges. There is one merge for every two members that
collide, in the lexicographic order of their places, so in place of a class of two or more there are
the merges of all its pairs. Every member is left or takes part in a merge. What comes out is free
of collisions exactly if no class has more than two members. -/
theorem classes_merged (items : List α) :
    ∃ (result merged : List α) (places : List Collision),
      union collides combine items = .ok result ∧
      result = items.filter (isAlone collides items) ++ merged ∧
      places.Pairwise Precedes ∧ (∀ c, c ∈ places ↔ Clashes collides items c) ∧
      List.Forall₂ (MergeAt combine items) places merged ∧
      (∀ a ∈ items, 2 ≤ (classOf collides items a).length →
        classOf collides result a = mergesOf combine (classOf collides items a) ∧
        (classOf collides result a).length =
          (classOf collides items a).length * ((classOf collides items a).length - 1) / 2) ∧
      (∀ i a, items[i]? = some a → isAlone collides items a = true ∧ a ∈ result ∨
        ∃ c ∈ places, c.first = i ∨ c.second = i) ∧
      ((result.Pairwise fun a b => collides a b = false) ↔
        ∀ a ∈ items, (classOf collides items a).length ≤ 2) := by
  refine ⟨_, merges collides combine items, (pairs collides items).map (·.place),
    union_eq_classes hequiv combine items, rfl, ?_, ?_, ?_, ?_, ?_,
    pairwise_merged_iff hequiv hclass items⟩
  · exact List.pairwise_map.mpr (pairwise_pairsFrom 0 items)
  · intro c
    rw [clashes_iff_mem, List.mem_map]
  · rw [merges, List.forall₂_map_left_iff, List.forall₂_map_right_iff, List.forall₂_same]
    intro p hp
    obtain ⟨-, i, j, -, hi, hj, hplace⟩ := mem_pairsFrom_iff.mp hp
    rw [Nat.zero_add, Nat.zero_add] at hplace
    exact ⟨p.left, p.right, by rw [hplace]; exact hi, by rw [hplace]; exact hj, rfl⟩
  · intro a ha hmany
    rw [classOf_merged hequiv hclass hmany]
    exact ⟨rfl, length_mergesOf combine _⟩
  · intro i a hi
    cases halone : isAlone collides items a with
    | true =>
      have hkept := List.mem_filter.mpr ⟨List.mem_of_getElem? hi, halone⟩
      exact Or.inl ⟨rfl, List.mem_append_left _ hkept⟩
    | false =>
      rw [isAlone_eq_not_involves hequiv hi, Bool.not_eq_false', involves, List.any_eq_true]
        at halone
      obtain ⟨p, hp, hplace⟩ := halone
      refine Or.inr ⟨p.place, List.mem_map_of_mem hp, ?_⟩
      rwa [Bool.or_eq_true, beq_iff_eq, beq_iff_eq] at hplace

end

end

/-! ### Declarations with a key -/

/-- Whether two declarations have one key. -/
def sameKey (a b : Nat × List Nat) : Bool := a.1 == b.1

/-- Two declarations of a key as one. -/
def joined (a b : Nat × List Nat) : Nat × List Nat := (a.1, a.2 ++ b.2)

theorem equivalence_sameKey : Equivalence fun a b => sameKey a b = true := by
  simp only [sameKey, beq_iff_eq]
  exact ⟨fun _ => rfl, Eq.symm, Eq.trans⟩

/-- A key that is declared three times, one that is declared twice, and one declared once. -/
def keyed : List (Nat × List Nat) := [(7, [1]), (3, [9]), (5, [1]), (7, [2]), (5, [2]), (5, [3])]

theorem classes_merged_keyed :
    ∃ result, union sameKey joined keyed = .ok result ∧ (3, [9]) ∈ result ∧
      classOf sameKey result (7, [1]) = [(7, [1, 2])] ∧
      classOf sameKey result (5, [1]) = [(5, [1, 2]), (5, [1, 3]), (5, [2, 3])] ∧
      ¬ result.Pairwise fun a b => sameKey a b = false := by
  have hjoined : ∀ a b, sameKey a b = true → sameKey a (joined a b) = true :=
    fun a _ _ => beq_self_eq_true a.1
  obtain ⟨result, merged, places, hunion, hresult, -, -, -, hclasses, -, hapart⟩ :=
    classes_merged equivalence_sameKey hjoined keyed
  refine ⟨result, hunion, ?_, ?_, ?_, ?_⟩
  · rw [hresult]
    exact List.mem_append_left merged (by decide)
  · exact (hclasses (7, [1]) (by decide) (by decide)).1
  · exact (hclasses (5, [1]) (by decide) (by decide)).1
  · rw [hapart]
    decide

end MotionRack.Collision
