import Mathlib.Data.List.Basic
import Mathlib.Data.List.Forall2

/-!
# Places in a sequence

What holds at every place of a sequence, told by what stands before it and behind it, how often
a member occurs in a sequence that is put together of others, and when such a sequence comes apart
in one way only. Members of which only some name a number are numbered in order.
-/
namespace MotionRack

variable {α β : Type}

/-- Whether a relation holds at every place of a sequence. -/
def Throughout (R : List α → α → List α → Prop) (xs : List α) : Prop :=
  ∀ before x after, xs = before ++ x :: after → R before x after

namespace Throughout

variable {R : List α → α → List α → Prop} {xs ys : List α}

theorem nil : Throughout R [] := by
  intro before x after h
  simp at h

/-- A place in two sequences in a row is one in the first or one in the second. -/
theorem of_append
    (hxs : ∀ before x after, xs = before ++ x :: after → R before x (after ++ ys))
    (hys : ∀ before x after, ys = before ++ x :: after → R (xs ++ before) x after) :
    Throughout R (xs ++ ys) := by
  intro before x after hsplit
  rcases List.append_eq_append_iff.mp hsplit with ⟨middle, rfl, hrest⟩ | ⟨middle, hfront, hrest⟩
  · exact hys middle x after hrest
  · -- The place is the first behind the border, or stands before it.
    cases middle with
    | nil =>
      rw [List.append_nil] at hfront
      rw [List.nil_append] at hrest
      have h := hys [] x after hrest.symm
      rwa [List.append_nil, hfront] at h
    | cons y middle =>
      rw [List.cons_append, List.cons.injEq] at hrest
      obtain ⟨rfl, rfl⟩ := hrest
      exact hxs before x middle hfront

/-- A relation that is not broken by more before and behind holds throughout two sequences in a
row if it does throughout both. -/
theorem append (hmono : ∀ front before x after back, R before x after →
    R (front ++ before) x (after ++ back)) (hxs : Throughout R xs) (hys : Throughout R ys) :
    Throughout R (xs ++ ys) := by
  apply of_append
  · intro before x after hsplit
    exact hmono [] before x after ys (hxs before x after hsplit)
  · intro before x after hsplit
    have h := hmono xs before x after [] (hys before x after hsplit)
    rwa [List.append_nil] at h

/-- The same of any number of sequences in a row. -/
theorem flatMap {items : List β} {f : β → List α} (hmono : ∀ front before x after back,
    R before x after → R (front ++ before) x (after ++ back))
    (h : ∀ item ∈ items, Throughout R (f item)) : Throughout R (items.flatMap f) := by
  induction items with
  | nil => exact nil
  | cons item items ih =>
    obtain ⟨hitem, hrest⟩ := List.forall_mem_cons.mp h
    rw [List.flatMap_cons]
    exact append hmono hitem (ih hrest)

end Throughout

/-- Members with their numbers: the number that a member names, or else the one behind the number of
the member before it. The number of a first member that names none is `next`. -/
def numbered {ν : Type} (named : α → Option ν) (succ : ν → ν) : ν → List α → List (ν × α)
  | _, [] => []
  | next, x :: xs =>
    ((named x).getD next, x) :: numbered named succ (succ ((named x).getD next)) xs

theorem map_snd_numbered {ν : Type} (named : α → Option ν) (succ : ν → ν) (next : ν) (xs : List α) :
    (numbered named succ next xs).map Prod.snd = xs := by
  induction xs generalizing next with
  | nil => rfl
  | cons x xs ih => rw [numbered, List.map_cons, ih]

/-- What related members have in common is in order the same of both sequences. -/
theorem map_eq_of_forall₂ {γ : Type} {R : α → β → Prop} {f : α → γ} {g : β → γ} {xs : List α}
    {ys : List β} (h : List.Forall₂ R xs ys) (hsame : ∀ x y, R x y → g y = f x) :
    ys.map g = xs.map f := by
  induction h with
  | nil => rfl
  | cons hxy _ ih => rw [List.map_cons, List.map_cons, hsame _ _ hxy, ih]

theorem exists_of_mem_forall₂ {R : α → β → Prop} {xs : List α} {ys : List β}
    (h : List.Forall₂ R xs ys) {y : β} (hy : y ∈ ys) : ∃ x ∈ xs, R x y := by
  induction h with
  | nil => cases hy
  | cons hxy _ ih =>
    rcases List.mem_cons.mp hy with rfl | hy
    · exact ⟨_, List.mem_cons_self, hxy⟩
    · obtain ⟨x, hx, hrel⟩ := ih hy
      exact ⟨x, List.mem_cons_of_mem _ hx, hrel⟩

/-- Sequences that are related one by one are related at every place, or both have ended there. -/
theorem rel_getElem? {R : α → β → Prop} {xs : List α} {ys : List β} (h : List.Forall₂ R xs ys)
    (i : Nat) : Option.Rel R xs[i]? ys[i]? := by
  induction h generalizing i with
  | nil => exact .none
  | cons hxy _ ih =>
    cases i with
    | zero => exact .some hxy
    | succ i => exact ih i

/-- A relation between any two members with their ranks. -/
theorem pairwise_zipIdx_iff {R : α × Nat → α × Nat → Prop} {xs : List α} :
    xs.zipIdx.Pairwise R ↔ ∀ (i j : Nat) (x y : α), i < j → xs[i]? = some x → xs[j]? = some y →
      R (x, i) (y, j) := by
  rw [List.pairwise_iff_getElem]
  constructor
  · intro h i j x y hij hx hy
    obtain ⟨hi, rfl⟩ := List.getElem?_eq_some_iff.mp hx
    obtain ⟨hj, rfl⟩ := List.getElem?_eq_some_iff.mp hy
    have hpair := h i j (by rwa [List.length_zipIdx]) (by rwa [List.length_zipIdx]) hij
    rwa [List.getElem_zipIdx, List.getElem_zipIdx, Nat.zero_add, Nat.zero_add] at hpair
  · intro h i j hi hj hij
    rw [List.getElem_zipIdx, List.getElem_zipIdx, Nat.zero_add, Nat.zero_add]
    exact h i j _ _ hij (List.getElem?_eq_getElem _) (List.getElem?_eq_getElem _)

/-- Parts that have their mark as the only member, or none, come to some of the marks, in order. -/
theorem flatMap_sublist_map {items : List α} {f : α → List β} {g : α → β}
    (h : ∀ item ∈ items, (f item).Sublist [g item]) : (items.flatMap f).Sublist (items.map g) := by
  induction items with
  | nil => exact List.Sublist.refl []
  | cons item items ih =>
    obtain ⟨hitem, hrest⟩ := List.forall_mem_cons.mp h
    exact hitem.append (ih hrest)

/-- Of parts that are empty where they stand apart from one of them, only that one is left. -/
theorem flatMap_eq_of_apart {R : β → β → Prop} {items : List β} {f : β → List α} {item : β}
    (hpairs : items.Pairwise R) (hmem : item ∈ items)
    (hnone : ∀ other ∈ items, R item other ∨ R other item → f other = []) :
    items.flatMap f = f item := by
  obtain ⟨before, after, rfl⟩ := List.append_of_mem hmem
  obtain ⟨-, hafter, hbefore⟩ := List.pairwise_append.mp hpairs
  have hfront : before.flatMap f = [] := by
    rw [List.flatMap_eq_nil_iff]
    exact fun other hother =>
      hnone other (by simp [hother]) (Or.inr (hbefore other hother item List.mem_cons_self))
  have hback : after.flatMap f = [] := by
    rw [List.flatMap_eq_nil_iff]
    exact fun other hother =>
      hnone other (by simp [hother]) (Or.inl ((List.pairwise_cons.mp hafter).1 other hother))
  rw [List.flatMap_append, List.flatMap_cons, hfront, hback, List.nil_append, List.append_nil]

/-- Words of which none is the beginning of another, put in a row, come apart in one way only. -/
theorem eq_of_flatten_eq {P : List α → Prop} (hword : ∀ w, P w → w ≠ [])
    (hfree : ∀ v w, P v → P w → v <+: w → v = w) {vs ws : List (List α)}
    (hvs : ∀ v ∈ vs, P v) (hws : ∀ w ∈ ws, P w) (h : vs.flatten = ws.flatten) : vs = ws := by
  have hnil : ∀ w rest, P w → ([] : List α) ≠ w ++ rest := fun w rest hw hempty =>
    hword w hw (List.append_eq_nil_iff.mp hempty.symm).1
  induction vs generalizing ws with
  | nil =>
    cases ws with
    | nil => rfl
    | cons w ws => exact absurd h (hnil w ws.flatten (hws w List.mem_cons_self))
  | cons v vs ih =>
    cases ws with
    | nil => exact absurd h.symm (hnil v vs.flatten (hvs v List.mem_cons_self))
    | cons w ws =>
      obtain ⟨hv, hvrest⟩ := List.forall_mem_cons.mp hvs
      obtain ⟨hw, hwrest⟩ := List.forall_mem_cons.mp hws
      rw [List.flatten_cons, List.flatten_cons] at h
      -- Both first words begin the same sequence, so one of them begins the other.
      have hfirst : v <+: v ++ vs.flatten := List.prefix_append v vs.flatten
      have hsecond : w <+: v ++ vs.flatten := h ▸ List.prefix_append w ws.flatten
      have hsame : v = w := by
        rcases List.prefix_or_prefix_of_prefix hfirst hsecond with hvw | hwv
        · exact hfree v w hv hw hvw
        · exact (hfree w v hw hv hwv).symm
      subst hsame
      rw [ih hvrest hwrest (List.append_cancel_left h)]

theorem eq_of_perm_of_length_le_one {xs ys : List α} (h : xs.Perm ys) (hlength : xs.length ≤ 1) :
    xs = ys := by
  match xs with
  | [] => exact (List.nil_perm.mp h).symm
  | [x] => exact List.singleton_perm.mp h
  | _ :: _ :: rest => exact absurd hlength (by simp)

theorem countP_and_not (xs : List α) (p q : α → Bool) :
    xs.countP (fun x => p x && !q x) = xs.countP p - xs.countP fun x => p x && q x := by
  have hparts := List.countP_eq_countP_filter_add xs p q
  rw [List.countP_filter, List.countP_filter] at hparts
  omega

section

variable [BEq α] [LawfulBEq α] {a : α}

theorem nodup_eraseDups (xs : List α) : xs.eraseDups.Nodup := by
  match xs with
  | [] => exact List.nodup_nil
  | x :: xs =>
    rw [List.eraseDups_cons, List.nodup_cons, List.mem_eraseDups]
    refine ⟨?_, nodup_eraseDups (xs.filter fun y => !y == x)⟩
    simp [List.mem_filter]
termination_by xs.length
decreasing_by exact Nat.lt_succ_of_le (List.length_filter_le _ _)

/-- What occurs once at most in the parts with a mark, and in no other, occurs no more often than
the mark does. -/
theorem count_flatMap_le_count_map {γ : Type} [BEq γ] [LawfulBEq γ] {mark : γ} {items : List β}
    {f : β → List α} {g : β → γ} (honce : ∀ item ∈ items, (f item).count a ≤ 1)
    (hmark : ∀ item ∈ items, a ∈ f item → g item = mark) :
    (items.flatMap f).count a ≤ (items.map g).count mark := by
  induction items with
  | nil => simp
  | cons item items ih =>
    obtain ⟨hitem, hrest⟩ := List.forall_mem_cons.mp honce
    obtain ⟨hown, hmark⟩ := List.forall_mem_cons.mp hmark
    have hothers := ih hrest hmark
    rw [List.flatMap_cons, List.count_append, List.map_cons]
    by_cases hmem : a ∈ f item
    · rw [hown hmem, List.count_cons_self]
      omega
    · rw [List.count_eq_zero.mpr hmem, Nat.zero_add]
      exact Nat.le_trans hothers List.count_le_count_cons

/-- What stands behind a place and occurs once at most in all occurs there exactly once. -/
theorem count_after_eq_one {before after : List α} {x : α} (hmem : a ∈ after)
    (honce : (before ++ x :: after).count a ≤ 1) : after.count a = 1 := by
  have hsub : after.Sublist (before ++ x :: after) :=
    (List.sublist_cons_self x after).trans (List.sublist_append_right before (x :: after))
  have hle := hsub.count_le a
  have hpos := List.count_pos_iff.mpr hmem
  omega

end
end MotionRack
