import MotionRack.Config.Collision

/-!
# Where resolved declarations come from

Refusing collisions changes no list, and none is left. Merging them brings in only merges of two
declarations of the list.
-/
namespace MotionRack.Collision

variable {α : Type} {collides : α → α → Bool}

theorem pairsWith_eq_nil {index position : Nat} {a : α} {items : List α} :
    pairsWith collides index a position items = [] ↔ ∀ b ∈ items, collides a b = false := by
  induction items generalizing position with
  | nil => simp [pairsWith]
  | cons b rest ih =>
    rw [pairsWith, List.forall_mem_cons]
    cases collides a b <;> simp [ih]

theorem pairsFrom_eq_nil {index : Nat} {items : List α} :
    pairsFrom collides index items = [] ↔ items.Pairwise fun a b => collides a b = false := by
  induction items generalizing index with
  | nil => simp [pairsFrom]
  | cons a rest ih =>
    rw [pairsFrom, List.append_eq_nil_iff, pairsWith_eq_nil, ih, List.pairwise_cons]

/-- Whether declarations that collide are refused: they are not to be merged, or there is no way to
merge them. -/
def Refuses (policy : Policy) (combine : Option (α → α → α)) : Prop :=
  policy = .refuse ∨ combine = none

section

variable {policy : Policy} {combine : Option (α → α → α)} {items : List α}

theorem resolve_of_nil (h : pairs collides items = []) :
    resolve collides policy combine items = .ok items := by
  simp only [resolve, h]

theorem resolve_of_cons (hrefuses : Refuses policy combine) {p : Pair α} {rest : List (Pair α)}
    (h : pairs collides items = p :: rest) :
    resolve collides policy combine items = .error p.place := by
  rcases hrefuses with rfl | rfl
  · simp only [resolve, h]
  · cases policy <;> simp only [resolve, h]

/-- A list without collisions comes back as it was, whatever would be done about them. -/
theorem resolve_of_pairwise (h : items.Pairwise fun a b => collides a b = false) :
    resolve collides policy combine items = .ok items :=
  resolve_of_nil (pairsFrom_eq_nil.mpr h)

/-- A list is accepted exactly if no two of its declarations collide, and then as it was. -/
theorem resolve_eq_ok_iff (hrefuses : Refuses policy combine) {result : List α} :
    resolve collides policy combine items = .ok result ↔
      result = items ∧ items.Pairwise fun a b => collides a b = false := by
  constructor
  · intro h
    cases hpairs : pairs collides items with
    | nil =>
      rw [resolve_of_nil hpairs] at h
      exact ⟨(Except.ok.inj h).symm, pairsFrom_eq_nil.mp hpairs⟩
    | cons p rest =>
      rw [resolve_of_cons hrefuses hpairs] at h
      cases h
  · intro ⟨hresult, hapart⟩
    rw [resolve_of_pairwise hapart, hresult]

theorem unique_eq_ok {result : List α} (h : unique collides items = .ok result) : result = items :=
  ((resolve_eq_ok_iff (Or.inl rfl)).mp h).1

/-- No two declarations of a list that is accepted collide. -/
theorem pairwise_of_unique {result : List α} (h : unique collides items = .ok result) :
    result.Pairwise fun a b => collides a b = false := by
  rw [unique_eq_ok h]
  exact ((resolve_eq_ok_iff (Or.inl rfl)).mp h).2

theorem unique_of_pairwise (h : items.Pairwise fun a b => collides a b = false) :
    unique collides items = .ok items :=
  resolve_of_pairwise h

end

theorem mem_pairsWith {index position : Nat} {a : α} {items : List α} {p : Pair α}
    (h : p ∈ pairsWith collides index a position items) : p.left = a ∧ p.right ∈ items := by
  induction items generalizing position with
  | nil => cases h
  | cons b rest ih =>
    rw [pairsWith] at h
    split at h
    next =>
      rcases List.mem_cons.mp h with rfl | h
      · exact ⟨rfl, List.mem_cons_self⟩
      · exact ⟨(ih h).1, List.mem_cons_of_mem b (ih h).2⟩
    next => exact ⟨(ih h).1, List.mem_cons_of_mem b (ih h).2⟩

theorem mem_pairsFrom {index : Nat} {items : List α} {p : Pair α}
    (h : p ∈ pairsFrom collides index items) : p.left ∈ items ∧ p.right ∈ items := by
  induction items generalizing index with
  | nil => cases h
  | cons a rest ih =>
    rw [pairsFrom] at h
    rcases List.mem_append.mp h with h | h
    · obtain ⟨hleft, hright⟩ := mem_pairsWith h
      rw [hleft]
      exact ⟨List.mem_cons_self, List.mem_cons_of_mem a hright⟩
    · exact ⟨List.mem_cons_of_mem a (ih h).1, List.mem_cons_of_mem a (ih h).2⟩

theorem mem_of_mem_untouched {found : List (Pair α)} {items : List α} {x : α}
    (h : x ∈ untouched found items) : x ∈ items := by
  obtain ⟨⟨y, index⟩, hy, rfl⟩ := List.mem_map.mp h
  exact List.fst_mem_of_mem_zipIdx (List.mem_filter.mp hy).1

/-- A merged list holds declarations of the list and merges of two of them. -/
theorem mem_union {combine : α → α → α} {items result : List α}
    (h : union collides combine items = .ok result) {x : α} (hx : x ∈ result) :
    x ∈ items ∨ ∃ a ∈ items, ∃ b ∈ items, x = combine a b := by
  unfold union resolve at h
  dsimp only at h
  split at h
  next =>
    obtain rfl := Except.ok.inj h
    exact Or.inl hx
  next =>
    obtain rfl := Except.ok.inj h
    rcases List.mem_append.mp hx with hx | hx
    · exact Or.inl (mem_of_mem_untouched hx)
    · obtain ⟨p, hp, rfl⟩ := List.mem_map.mp hx
      obtain ⟨hleft, hright⟩ := mem_pairsFrom hp
      exact Or.inr ⟨p.left, hleft, p.right, hright, rfl⟩

/-! ### One declaration, repeated -/

theorem length_pairsWith_replicate {d : α} (h : collides d d = true) (index position m : Nat) :
    (pairsWith collides index d position (List.replicate m d)).length = m := by
  induction m generalizing position with
  | zero => rfl
  | succ m ih => rw [List.replicate_succ, pairsWith, if_pos h, List.length_cons, ih]

theorem length_pairsFrom_replicate {d : α} (h : collides d d = true) (index n : Nat) :
    2 * (pairsFrom collides index (List.replicate n d)).length = n * (n - 1) := by
  induction n generalizing index with
  | zero => rfl
  | succ n ih =>
    have hsquare : n * (n - 1) + 2 * n = (n + 1) * n := by
      cases n with
      | zero => rfl
      | succ k => rw [Nat.add_sub_cancel, Nat.mul_comm (k + 1) k, ← Nat.add_mul]
    rw [List.replicate_succ, pairsFrom, List.length_append, length_pairsWith_replicate h,
      Nat.mul_add, ih, Nat.add_comm, hsquare, Nat.add_sub_cancel]

/-- Merging a declaration that is repeated leaves one for every pair of its copies. -/
theorem union_replicate (combine : α → α → α) {d : α} (h : collides d d = true) (n : Nat) :
    ∃ kept, union collides combine (List.replicate n d) =
      .ok (kept ++ List.replicate (n * (n - 1) / 2) (combine d d)) := by
  have hlength : (pairs collides (List.replicate n d)).length = n * (n - 1) / 2 := by
    rw [← length_pairsFrom_replicate h 0 n, pairs]
    omega
  have hmerged : (pairs collides (List.replicate n d)).map (fun p => combine p.left p.right) =
      List.replicate (n * (n - 1) / 2) (combine d d) := by
    rw [List.eq_replicate_iff, List.length_map]
    refine ⟨hlength, List.forall_mem_map.mpr fun p hp => ?_⟩
    obtain ⟨hleft, hright⟩ := mem_pairsFrom hp
    rw [List.eq_of_mem_replicate hleft, List.eq_of_mem_replicate hright]
  unfold union resolve
  dsimp only
  split
  next hnone =>
    rw [hnone] at hmerged
    exact ⟨List.replicate n d, by rw [← hmerged, List.map_nil, List.append_nil]⟩
  next => exact ⟨_, by rw [hmerged]⟩

end MotionRack.Collision
