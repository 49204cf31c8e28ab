import Mathlib.Data.List.Perm.Basic
import Mathlib.Data.Nat.Choose.Basic
import MotionRack.Proofs.Config.Collision

/-!
# How often a merged list holds something

Merging replaces the declarations of one kind by the merges of all pairs of them, unless there is
only one. So what some of them have, and a merge has as soon as one of the two has it, is counted by
pairs: all pairs of the kind, less those of which neither has it.
-/
namespace MotionRack.Collision

variable {α : Type} {collides : α → α → Bool}

/-- Merging always succeeds: what takes part in no collision stays in front of the merges. -/
theorem union_eq (combine : α → α → α) (items : List α) :
    union collides combine items =
      .ok (untouched (pairs collides items) items ++
        (pairs collides items).map fun p => combine p.left p.right) := by
  unfold union resolve
  dsimp only
  split
  next hnone => simp [hnone, untouched, involves]
  next => rfl

/-! ### Pairs and positions -/

theorem mem_pairsWith_iff {index position : Nat} {a : α} {items : List α} {p : Pair α} :
    p ∈ pairsWith collides index a position items ↔
      p.left = a ∧ collides a p.right = true ∧
        ∃ k, items[k]? = some p.right ∧ p.place = ⟨index, position + k⟩ := by
  induction items generalizing position with
  | nil => simp [pairsWith]
  | cons b rest ih =>
    have hsplit : (∃ k, (b :: rest)[k]? = some p.right ∧ p.place = ⟨index, position + k⟩) ↔
        (b = p.right ∧ p.place = ⟨index, position⟩) ∨
          ∃ k, rest[k]? = some p.right ∧ p.place = ⟨index, position + 1 + k⟩ := by
      constructor
      · rintro ⟨_ | k, hk, hplace⟩
        · exact Or.inl ⟨Option.some.inj hk, hplace⟩
        · exact Or.inr ⟨k, hk, by rw [hplace, Nat.add_assoc, Nat.add_comm 1 k]⟩
      · rintro (⟨hb, hplace⟩ | ⟨k, hk, hplace⟩)
        · exact ⟨0, congrArg some hb, hplace⟩
        · exact ⟨k + 1, hk, by rw [hplace, Nat.add_assoc, Nat.add_comm 1 k]⟩
    rw [hsplit, pairsWith]
    split
    next hb =>
      rw [List.mem_cons, ih]
      constructor
      · rintro (rfl | ⟨hleft, hcollides, hrest⟩)
        · exact ⟨rfl, hb, Or.inl ⟨rfl, rfl⟩⟩
        · exact ⟨hleft, hcollides, Or.inr hrest⟩
      · rintro ⟨hleft, hcollides, ⟨rfl, hplace⟩ | hrest⟩
        · obtain ⟨place, left, right⟩ := p
          exact Or.inl (by rw [← hleft, ← hplace])
        · exact Or.inr ⟨hleft, hcollides, hrest⟩
    next hb =>
      rw [ih]
      constructor
      · rintro ⟨hleft, hcollides, hrest⟩
        exact ⟨hleft, hcollides, Or.inr hrest⟩
      · rintro ⟨hleft, hcollides, ⟨rfl, _⟩ | hrest⟩
        · exact absurd hcollides hb
        · exact ⟨hleft, hcollides, hrest⟩

/-- The pairs of a list are its colliding members, the one that stands first on the left. -/
theorem mem_pairsFrom_iff {index : Nat} {items : List α} {p : Pair α} :
    p ∈ pairsFrom collides index items ↔
      collides p.left p.right = true ∧ ∃ i j, i < j ∧ items[i]? = some p.left ∧
        items[j]? = some p.right ∧ p.place = ⟨index + i, index + j⟩ := by
  induction items generalizing index with
  | nil => simp [pairsFrom]
  | cons a rest ih =>
    rw [pairsFrom, List.mem_append, mem_pairsWith_iff, ih]
    constructor
    · rintro (⟨rfl, hcollides, k, hk, hplace⟩ | ⟨hcollides, i, j, hij, hi, hj, hplace⟩)
      · refine ⟨hcollides, 0, k + 1, Nat.succ_pos k, rfl, hk, ?_⟩
        rw [hplace, Nat.add_assoc, Nat.add_comm 1 k]
        rfl
      · refine ⟨hcollides, i + 1, j + 1, Nat.succ_lt_succ hij, hi, hj, ?_⟩
        rw [hplace, Nat.add_assoc, Nat.add_assoc, Nat.add_comm 1 i, Nat.add_comm 1 j]
    · rintro ⟨hcollides, _ | i, _ | j, hij, hi, hj, hplace⟩
      · exact absurd hij (Nat.lt_irrefl 0)
      · obtain rfl := Option.some.inj hi
        refine Or.inl ⟨rfl, hcollides, j, hj, ?_⟩
        rw [hplace, Nat.add_assoc, Nat.add_comm 1 j, Nat.add_zero]
      · exact absurd hij (Nat.not_lt_zero _)
      · refine Or.inr ⟨hcollides, i, j, Nat.lt_of_succ_lt_succ hij, hi, hj, ?_⟩
        rw [hplace, Nat.add_assoc, Nat.add_assoc, Nat.add_comm 1 i, Nat.add_comm 1 j]

/-- A member takes part in a pair if it collides with another, whichever of them stands first. -/
theorem involves_pairs_iff (hsymm : ∀ a b, collides a b = collides b a) {items : List α} {i : Nat}
    {a : α} (hi : items[i]? = some a) :
    involves (pairs collides items) i = true ↔
      ∃ b ∈ items.eraseIdx i, collides a b = true := by
  simp only [involves, List.any_eq_true, Bool.or_eq_true, beq_iff_eq,
    List.mem_eraseIdx_iff_getElem?]
  constructor
  · rintro ⟨p, hp, hplace⟩
    obtain ⟨hcollides, i', j', hij, hleft, hright, heq⟩ := mem_pairsFrom_iff.mp hp
    rw [heq, Nat.zero_add, Nat.zero_add] at hplace
    rcases hplace with rfl | rfl
    · obtain rfl : p.left = a := Option.some.inj (hleft.symm.trans hi)
      exact ⟨p.right, ⟨j', Nat.ne_of_gt hij, hright⟩, hcollides⟩
    · obtain rfl : p.right = a := Option.some.inj (hright.symm.trans hi)
      exact ⟨p.left, ⟨i', Nat.ne_of_lt hij, hleft⟩, (hsymm _ _).trans hcollides⟩
  · rintro ⟨b, ⟨j, hne, hj⟩, hcollides⟩
    rcases Nat.lt_or_gt_of_ne hne with hlt | hlt
    · refine ⟨⟨⟨j, i⟩, b, a⟩, mem_pairsFrom_iff.mpr ⟨(hsymm b a).trans hcollides, ?_⟩, Or.inr rfl⟩
      exact ⟨j, i, hlt, hj, hi, by rw [Nat.zero_add, Nat.zero_add]⟩
    · refine ⟨⟨⟨i, j⟩, a, b⟩, mem_pairsFrom_iff.mpr ⟨hcollides, ?_⟩, Or.inl rfl⟩
      exact ⟨i, j, hlt, hi, hj, by rw [Nat.zero_add, Nat.zero_add]⟩

/-! ### One kind of declarations -/

/-- One more member makes a pair with each of the others. -/
theorem choose_two_succ (n : Nat) : (n + 1).choose 2 = n + n.choose 2 := by
  rw [Nat.choose_succ_succ, Nat.choose_one_right]

section

variable {kind has : α → Bool} (hkind : ∀ a b, kind a = true → collides a b = kind b)

include hkind

theorem countP_pairsWith {a : α} (ha : kind a = true) (index position : Nat) (items : List α) :
    (pairsWith collides index a position items).countP
        (fun p => kind p.left && (has p.left || has p.right)) =
      items.countP fun b => kind b && (has a || has b) := by
  induction items generalizing position with
  | nil => rfl
  | cons b rest ih =>
    rw [pairsWith, hkind a b ha, List.countP_cons]
    cases hb : kind b with
    | true => simp [List.countP_cons, ih, ha]
    | false => simp [ih]

/-- The pairs of a kind of which one has something, and those of which neither has it, are all pairs
of the kind. -/
theorem countP_pairsFrom (index : Nat) (items : List α) :
    (pairsFrom collides index items).countP
        (fun p => kind p.left && (has p.left || has p.right)) +
      (items.countP fun x => kind x && !has x).choose 2 = (items.countP kind).choose 2 := by
  induction items generalizing index with
  | nil => rfl
  | cons a rest ih =>
    rw [pairsFrom, List.countP_append]
    have hrest := ih (index + 1)
    cases ha : kind a with
    | false =>
      have hnone : (pairsWith collides index a (index + 1) rest).countP
          (fun p => kind p.left && (has p.left || has p.right)) = 0 := by
        rw [List.countP_eq_zero]
        intro p hp
        simp [(mem_pairsWith hp).1, ha]
      simpa [hnone, ha] using hrest
    | true =>
      rw [countP_pairsWith hkind ha]
      cases hhas : has a with
      | true =>
        have hall : (rest.countP fun b => kind b && (true || has b)) = rest.countP kind := by
          simp
        simp only [List.countP_cons, ha, hhas, hall, Bool.not_true, Bool.and_false, if_true,
          choose_two_succ, Bool.false_eq_true, if_false, Nat.add_zero]
        omega
      | false =>
        have hparts : rest.countP kind =
            (rest.countP fun b => kind b && (false || has b)) +
              rest.countP fun b => kind b && !has b := by
          rw [List.countP_eq_countP_filter_add rest kind has, List.countP_filter,
            List.countP_filter]
          simp
        simp only [List.countP_cons, ha, hhas, Bool.not_false, Bool.and_self, if_true,
          choose_two_succ]
        omega

/-- A member of a kind takes part in a pair exactly if it is not the only one. -/
theorem involves_pairs_iff_two_le (hsymm : ∀ a b, collides a b = collides b a) {items : List α}
    {i : Nat} {a : α} (hi : items[i]? = some a) (ha : kind a = true) :
    involves (pairs collides items) i = true ↔ 2 ≤ items.countP kind := by
  obtain ⟨hlt, rfl⟩ := List.getElem?_eq_some_iff.mp hi
  have hcount : items.countP kind = (items.eraseIdx i).countP kind + 1 := by
    rw [← (List.getElem_cons_eraseIdx_perm hlt).countP_eq, List.countP_cons_of_pos ha]
  have hothers : (∃ b ∈ items.eraseIdx i, collides items[i] b = true) ↔
      0 < (items.eraseIdx i).countP kind := by
    simp only [List.countP_pos_iff, hkind _ _ ha]
  rw [involves_pairs_iff hsymm hi, hothers, hcount]
  omega

theorem countP_untouched (hsymm : ∀ a b, collides a b = collides b a) (items : List α) :
    (untouched (pairs collides items) items).countP (fun x => kind x && has x) =
      if items.countP kind ≤ 1 then items.countP fun x => kind x && has x else 0 := by
  have hinvolves : ∀ q ∈ items.zipIdx, kind q.1 = true →
      (involves (pairs collides items) q.2 = true ↔ 2 ≤ items.countP kind) := by
    intro q hq hkindq
    exact involves_pairs_iff_two_le hkind hsymm (List.mem_zipIdx_iff_getElem?.mp hq) hkindq
  rw [untouched, List.countP_map, List.countP_filter]
  split
  next hone =>
    -- The only member of the kind is not involved, so nothing is left out.
    have hall : items.zipIdx.countP ((fun x => kind x && has x) ∘ Prod.fst) =
        items.countP fun x => kind x && has x := by
      rw [← List.countP_map, List.zipIdx_map_fst]
    rw [← hall]
    refine List.countP_congr fun q hq => ?_
    have hout : kind q.1 = true → involves (pairs collides items) q.2 = false := fun hkindq => by
      rw [← Bool.not_eq_true, hinvolves q hq hkindq]
      omega
    simp only [Function.comp_apply, Bool.and_eq_true, Bool.not_eq_true']
    exact ⟨fun h => h.1, fun h => ⟨h, hout h.1⟩⟩
  next hmany =>
    rw [List.countP_eq_zero]
    intro q hq
    simp only [Function.comp_apply, Bool.and_eq_true, Bool.not_eq_true', not_and]
    intro h
    rw [Bool.not_eq_false, hinvolves q hq h.1]
    omega

/-- How many members of a merged list are of a kind and have something: if the kind is declared once
at most, as many as before, and otherwise as many as there are pairs of which one has it. -/
theorem countP_union (hsymm : ∀ a b, collides a b = collides b a) {combine : α → α → α}
    (hcombine : ∀ a b, collides a b = true → kind (combine a b) = kind a)
    (hhas : ∀ a b, has (combine a b) = (has a || has b)) {items result : List α}
    (h : union collides combine items = .ok result) :
    result.countP (fun x => kind x && has x) =
      if items.countP kind ≤ 1 then items.countP fun x => kind x && has x
      else (items.countP kind).choose 2 - (items.countP fun x => kind x && !has x).choose 2 := by
  rw [union_eq] at h
  obtain rfl := Except.ok.inj h
  have hmerged : ((pairs collides items).map fun p => combine p.left p.right).countP
      (fun x => kind x && has x) = (pairs collides items).countP
        (fun p => kind p.left && (has p.left || has p.right)) := by
    rw [List.countP_map]
    refine List.countP_congr fun p hp => ?_
    rw [Function.comp_apply, hcombine _ _ (mem_pairsFrom_iff.mp hp).1, hhas]
  have hpairs : (pairsFrom collides 0 items).countP
      (fun p => kind p.left && (has p.left || has p.right)) +
        (items.countP fun x => kind x && !has x).choose 2 = (items.countP kind).choose 2 :=
    countP_pairsFrom hkind 0 items
  rw [List.countP_append, hmerged, countP_untouched hkind hsymm, pairs]
  split
  next hone =>
    rw [Nat.choose_eq_zero_of_lt (Nat.lt_succ_of_le hone)] at hpairs
    omega
  next => omega

end

end MotionRack.Collision
