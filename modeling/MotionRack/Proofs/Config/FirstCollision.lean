import MotionRack.Proofs.Config.Union

/-!
# The first collision

The colliding pairs of a list are found in the lexicographic order of their places, so a list that
is refused is refused with the first of them.
-/
namespace MotionRack.Collision

variable {α β : Type} {collides : α → α → Bool}

/-- Whether the members at two places of a list collide, the one that stands first on the left. -/
def Clashes (collides : α → α → Bool) (items : List α) (c : Collision) : Prop :=
  c.first < c.second ∧ ∃ a b, items[c.first]? = some a ∧ items[c.second]? = some b ∧
    collides a b = true

/-- The lexicographic order of collisions. -/
def Precedes (c d : Collision) : Prop :=
  c.first < d.first ∨ c.first = d.first ∧ c.second < d.second

/-- Whether a collision of a list is the first one. -/
structure IsFirst (collides : α → α → Bool) (items : List α) (c : Collision) : Prop where
  clashes : Clashes collides items c
  first : ∀ d, Clashes collides items d → d = c ∨ c.Precedes d

theorem clashes_iff_mem {items : List α} {c : Collision} :
    Clashes collides items c ↔ ∃ p ∈ pairs collides items, p.place = c := by
  simp only [pairs, mem_pairsFrom_iff, Nat.zero_add]
  constructor
  · rintro ⟨hlt, a, b, ha, hb, hcollides⟩
    exact ⟨⟨c, a, b⟩, ⟨hcollides, c.first, c.second, hlt, ha, hb, rfl⟩, rfl⟩
  · rintro ⟨p, ⟨hcollides, i, j, hij, hi, hj, hplace⟩, rfl⟩
    rw [hplace]
    exact ⟨hij, p.left, p.right, hi, hj, hcollides⟩

theorem pairwise_pairsWith (index position : Nat) (a : α) (items : List α) :
    (pairsWith collides index a position items).Pairwise fun p q => p.place.Precedes q.place := by
  induction items generalizing position with
  | nil => exact List.Pairwise.nil
  | cons b rest ih =>
    rw [pairsWith]
    split
    next =>
      refine List.pairwise_cons.mpr ⟨fun q hq => ?_, ih (position + 1)⟩
      obtain ⟨-, -, k, -, hplace⟩ := mem_pairsWith_iff.mp hq
      rw [hplace]
      exact Or.inr ⟨rfl, by dsimp only; omega⟩
    next => exact ih (position + 1)

/-- The pairs of a list are in lexicographic order. -/
theorem pairwise_pairsFrom (index : Nat) (items : List α) :
    (pairsFrom collides index items).Pairwise fun p q => p.place.Precedes q.place := by
  induction items generalizing index with
  | nil => exact List.Pairwise.nil
  | cons a rest ih =>
    rw [pairsFrom, List.pairwise_append]
    refine ⟨pairwise_pairsWith index (index + 1) a rest, ih (index + 1), fun p hp q hq => ?_⟩
    obtain ⟨-, -, k, -, hp⟩ := mem_pairsWith_iff.mp hp
    obtain ⟨-, i, j, -, -, -, hq⟩ := mem_pairsFrom_iff.mp hq
    rw [hp, hq]
    exact Or.inl (by dsimp only; omega)

theorem IsFirst.unique {items : List α} {c d : Collision} (hc : IsFirst collides items c)
    (hd : IsFirst collides items d) : c = d := by
  rcases hc.first d hd.clashes with rfl | hcd
  · rfl
  rcases hd.first c hc.clashes with rfl | hdc
  · rfl
  · unfold Precedes at hcd hdc
    omega

theorem isFirst_of_cons {items : List α} {p : Pair α} {rest : List (Pair α)}
    (hpairs : pairs collides items = p :: rest) : IsFirst collides items p.place := by
  have hsorted : (pairs collides items).Pairwise fun p q => p.place.Precedes q.place :=
    pairwise_pairsFrom 0 items
  rw [hpairs] at hsorted
  constructor
  · apply clashes_iff_mem.mpr
    exact ⟨p, hpairs ▸ List.mem_cons_self, rfl⟩
  · intro d hd
    obtain ⟨q, hq, rfl⟩ := clashes_iff_mem.mp hd
    rw [hpairs] at hq
    rcases List.mem_cons.mp hq with rfl | hq
    · exact Or.inl rfl
    · exact Or.inr ((List.pairwise_cons.mp hsorted).1 q hq)

/-- A list with collisions is refused with the first of them. -/
theorem resolve_eq_error_iff {policy : Policy} {combine : Option (α → α → α)}
    (hrefuses : Refuses policy combine) {items : List α} {c : Collision} :
    resolve collides policy combine items = .error c ↔ IsFirst collides items c := by
  constructor
  · intro h
    cases hpairs : pairs collides items with
    | nil =>
      rw [resolve_of_nil hpairs] at h
      cases h
    | cons p rest =>
      rw [resolve_of_cons hrefuses hpairs] at h
      obtain rfl := Except.error.inj h
      exact isFirst_of_cons hpairs
  · intro h
    obtain ⟨p, hp, -⟩ := clashes_iff_mem.mp h.clashes
    obtain ⟨q, rest, hpairs⟩ := List.exists_cons_of_ne_nil (List.ne_nil_of_mem hp)
    rw [resolve_of_cons hrefuses hpairs, (isFirst_of_cons hpairs).unique h]

theorem unique_eq_error_iff {items : List α} {c : Collision} :
    unique collides items = .error c ↔ IsFirst collides items c :=
  resolve_eq_error_iff (Or.inl rfl)

/-- Members that collide if something of them is equal collide where it is equal. -/
theorem isFirst_map {f : α → β} {same : β → β → Bool} (h : ∀ a b, collides a b = same (f a) (f b))
    {items : List α} {c : Collision} :
    IsFirst same (items.map f) c ↔ IsFirst collides items c := by
  have hclashes : ∀ d, Clashes same (items.map f) d ↔ Clashes collides items d := by
    intro d
    simp only [Clashes, List.getElem?_map, Option.map_eq_some_iff, h]
    refine and_congr_right fun _ => ?_
    constructor
    · rintro ⟨_, _, ⟨a, ha, rfl⟩, ⟨b, hb, rfl⟩, hsame⟩
      exact ⟨a, b, ha, hb, hsame⟩
    · rintro ⟨a, b, ha, hb, hsame⟩
      exact ⟨_, _, ⟨a, ha, rfl⟩, ⟨b, hb, rfl⟩, hsame⟩
  constructor
  · rintro ⟨hc, hfirst⟩
    exact ⟨(hclashes c).mp hc, fun d hd => hfirst d ((hclashes d).mpr hd)⟩
  · rintro ⟨hc, hfirst⟩
    exact ⟨(hclashes c).mpr hc, fun d hd => hfirst d ((hclashes d).mp hd)⟩

/-! ### Exact answers -/

/-- Whether an answer about the collisions of a list is exact: the list as it was if no two of its
members collide, and the first two that do otherwise. -/
structure Detects (collides : α → α → Bool) (items : List α)
    (answer : Except Collision (List α)) : Prop where
  ok_iff : ∀ kept, answer = .ok kept ↔
    kept = items ∧ items.Pairwise fun a b => collides a b = false
  error_iff : ∀ c, answer = .error c ↔ IsFirst collides items c

/-- Whatever it means to collide, be it one-sided, a list whose collisions are refused is answered
exactly: it comes back as it was if of no two members the first collides with the second, and else
the lexicographically first pair that does is named. A list without collisions also comes back as it
was if collisions are merged. -/
theorem collisions_detected (collides : α → α → Bool) (items : List α) :
    (∀ policy combine, Refuses policy combine →
      Detects collides items (resolve collides policy combine items)) ∧
    ((items.Pairwise fun a b => collides a b = false) → ∀ policy combine,
      resolve collides policy combine items = .ok items) := by
  constructor
  · intro policy combine hrefuses
    constructor
    · intro kept
      exact resolve_eq_ok_iff hrefuses
    · intro c
      exact resolve_eq_error_iff hrefuses
  · intro hapart policy combine
    exact resolve_of_pairwise hapart

/-- A one-sided relation: a number collides with greater ones only. -/
def below (m n : Nat) : Bool := decide (m < n)

theorem collisions_detected_below :
    IsFirst below [9, 4, 4, 7, 5] ⟨1, 3⟩ ∧
    (∀ kept, resolve below .merge none [9, 4, 4, 7, 5] ≠ .ok kept) ∧
    resolve below .merge (some (· + ·)) [9, 4, 4, 1] = .ok [9, 4, 4, 1] := by
  obtain ⟨hexact, -⟩ := collisions_detected below [9, 4, 4, 7, 5]
  obtain ⟨-, hunchanged⟩ := collisions_detected below [9, 4, 4, 1]
  have hfound := hexact .merge none (Or.inr rfl)
  refine ⟨(hfound.error_iff ⟨1, 3⟩).mp (by decide), ?_, hunchanged (by decide) .merge _⟩
  intro kept hkept
  have hapart := ((hfound.ok_iff kept).mp hkept).2
  exact absurd hapart (by decide)

end MotionRack.Collision
