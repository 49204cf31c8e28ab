import Mathlib.Data.List.Basic
import Mathlib.Data.List.Infix
import MotionRack.Proofs.Device.AllowedDevices

/-!
# Merged devices

The slots of a device grow one by one, and a slot that is there already is passed over. So a device
that any number of declarations are merged into names the slots of all of them, each where it was
mentioned first. In which groups the declarations are merged makes no difference; their order shows
in the order of the slots only.
-/
namespace MotionRack.AllowedDevice

/-- What is kept of the slots that were mentioned: all of them, in the order of their first
mention. -/
structure FirstMentions (mentioned kept : List UInt16) : Prop where
  complete : ∀ slot, slot ∈ kept ↔ slot ∈ mentioned
  ordered : kept.Pairwise fun a b => mentioned.idxOf a < mentioned.idxOf b

namespace FirstMentions

variable {mentioned kept : List UInt16}

theorem nil : FirstMentions [] [] := ⟨fun _ => Iff.rfl, List.Pairwise.nil⟩

/-- No slot is mentioned for the first time at two places. -/
theorem nodup (h : FirstMentions mentioned kept) : kept.Nodup :=
  h.ordered.imp fun hlt => ne_of_apply_ne mentioned.idxOf (Nat.ne_of_lt hlt)

/-- What is mentioned later does not change where a slot was mentioned first. -/
theorem ordered_append (h : FirstMentions mentioned kept) (later : List UInt16) :
    kept.Pairwise fun a b => (mentioned ++ later).idxOf a < (mentioned ++ later).idxOf b := by
  refine h.ordered.imp_of_mem fun ha hb hlt => ?_
  rwa [List.idxOf_append_of_mem ((h.complete _).mp ha),
    List.idxOf_append_of_mem ((h.complete _).mp hb)]

/-- One more mention: a slot that is there stays where it is, any other one goes to the end. -/
theorem concat (h : FirstMentions mentioned kept) (slot : UInt16) :
    FirstMentions (mentioned ++ [slot]) (if slot ∈ kept then kept else kept ++ [slot]) := by
  split
  next hthere =>
    refine ⟨fun other => ?_, h.ordered_append [slot]⟩
    rw [List.mem_append, List.mem_singleton, ← h.complete]
    refine (or_iff_left_of_imp ?_).symm
    rintro rfl
    exact hthere
  next hnew =>
    constructor
    case complete =>
      intro other
      rw [List.mem_append, List.mem_append, h.complete]
    case ordered =>
      refine List.pairwise_append.mpr
        ⟨h.ordered_append [slot], List.pairwise_singleton _ _, fun a ha b hb => ?_⟩
      obtain rfl := List.mem_singleton.mp hb
      have hbefore : a ∈ mentioned := (h.complete a).mp ha
      have hfresh : b ∉ mentioned := fun hb => hnew ((h.complete b).mpr hb)
      rw [List.idxOf_append_of_mem hbefore, List.idxOf_append_of_notMem hfresh]
      exact Nat.lt_add_right _ (List.idxOf_lt_length_of_mem hbefore)

/-- Any number of further mentions. -/
theorem allow (h : FirstMentions mentioned kept) (more : List UInt16) :
    FirstMentions (mentioned ++ more) (AllowedDevice.allow kept more) := by
  -- What is kept grows at its end, so the induction takes the last mention off.
  induction more using List.reverseRecOn with
  | nil =>
    rw [List.append_nil]
    exact h
  | append_singleton more slot ih =>
    rw [allow_concat, ← List.append_assoc]
    exact ih.concat slot

end FirstMentions

/-! ### Slots that are named in several goes -/

theorem allow_append (slots xs ys : List UInt16) :
    allow slots (xs ++ ys) = allow (allow slots xs) ys :=
  List.foldl_append ..

theorem allow_of_subset {slots more : List UInt16} (h : more ⊆ slots) :
    allow slots more = slots := by
  induction more using List.reverseRecOn with
  | nil => rfl
  | append_singleton more slot ih =>
    obtain ⟨hmore, hslot⟩ := List.append_subset.mp h
    rw [allow_concat, ih hmore, if_pos (hslot (List.mem_singleton_self slot))]

/-- Slots that were put together among themselves first come in as if they had been named one after
the other. -/
theorem allow_allow (slots xs ys : List UInt16) :
    allow slots (allow xs ys) = allow slots (xs ++ ys) := by
  induction ys using List.reverseRecOn with
  | nil =>
    rw [List.append_nil]
    rfl
  | append_singleton ys slot ih =>
    rw [allow_concat xs, ← List.append_assoc, allow_concat slots (xs ++ ys), ← ih]
    split
    next hthere => rw [if_pos (mem_allow.mpr (Or.inr hthere))]
    next => rw [allow_concat]

/-- The slots that are there stay in front. -/
theorem isPrefix_allow (slots more : List UInt16) : slots <+: allow slots more := by
  induction more using List.reverseRecOn with
  | nil => exact List.prefix_rfl
  | append_singleton more slot ih =>
    rw [allow_concat]
    split
    next => exact ih
    next => exact ih.trans (List.prefix_append _ _)

theorem allow_of_nodup {slots more : List UInt16} (h : (slots ++ more).Nodup) :
    allow slots more = slots ++ more := by
  induction more using List.reverseRecOn with
  | nil => exact (List.append_nil slots).symm
  | append_singleton more slot ih =>
    rw [← List.append_assoc, ← List.concat_eq_append, List.nodup_concat] at h
    rw [allow_concat, ih h.2, if_neg h.1, List.append_assoc]

/-- Slots that continue those that are there. -/
theorem allow_of_isPrefix {slots more : List UInt16} (h : slots <+: more) (hmore : more.Nodup) :
    allow slots more = more := by
  obtain ⟨rest, rfl⟩ := h
  rw [allow_append, allow_of_subset (List.Subset.refl slots), allow_of_nodup hmore]

/-- In which of two orders slots are named makes no difference exactly if the ones continue the
others. -/
theorem allow_comm_iff {xs ys : List UInt16} (hxs : xs.Nodup) (hys : ys.Nodup) :
    allow xs ys = allow ys xs ↔ xs <+: ys ∨ ys <+: xs := by
  constructor
  · intro h
    have hys : ys <+: allow xs ys := h ▸ isPrefix_allow ys xs
    exact List.prefix_or_prefix_of_prefix (isPrefix_allow xs ys) hys
  · rintro (h | h)
    · rw [allow_of_isPrefix h hys, allow_of_subset h.subset]
    · rw [allow_of_isPrefix h hxs, allow_of_subset h.subset]

/-! ### Merging -/

theorem firstMentions_new (g : Signature) (slots : List UInt16) :
    FirstMentions slots (new g slots).slots :=
  FirstMentions.nil.allow slots

/-- Two declarations that are merged come to one that names the slots of both. -/
theorem new_merge_new (g h : Signature) (xs ys : List UInt16) :
    (new g xs).merge (new h ys) = new g (xs ++ ys) := by
  simp only [merge, new, allow_allow, allow_append, List.nil_append]

theorem foldl_merge_new (g : Signature) (slots : List UInt16) (others : List (List UInt16)) :
    (others.map (new g)).foldl merge (new g slots) = new g (slots ++ others.flatten) := by
  induction others generalizing slots with
  | nil => rw [List.flatten_nil, List.append_nil]; rfl
  | cons xs others ih =>
    rw [List.map_cons, List.foldl_cons, new_merge_new, ih, List.flatten_cons, List.append_assoc]

theorem merge_assoc (a b c : AllowedDevice) : (a.merge b).merge c = a.merge (b.merge c) := by
  rw [merge, merge, merge, merge, allow_allow, allow_append]

theorem merge_self (a : AllowedDevice) : a.merge a = a := by
  rw [merge, allow_of_subset (List.Subset.refl a.slots)]

theorem perm_merge_comm (g : Signature) (xs ys : List UInt16) :
    ((new g xs).merge (new g ys)).slots.Perm ((new g ys).merge (new g xs)).slots := by
  rw [new_merge_new, new_merge_new]
  have hxy := firstMentions_new g (xs ++ ys)
  have hyx := firstMentions_new g (ys ++ xs)
  refine (List.perm_ext_iff_of_nodup hxy.nodup hyx.nodup).mpr fun slot => ?_
  rw [hxy.complete, hyx.complete, List.mem_append, List.mem_append, or_comm]

/-- Declarations of one signature, one or more, are merged into a device of that signature with the
slots that any of them names, each once and in the order in which they are first mentioned. Merging
is associative, and a device that is merged with itself is unchanged. Two declarations that change
places give a device with the same slots. Their order is another one then, unless the slots of one
declaration continue those of the other. -/
theorem merged_slots_exact (g : Signature) (slots : List UInt16) (others : List (List UInt16)) :
    let merged := (others.map (new g)).foldl merge (new g slots)
    merged.signature = g ∧
    merged.slots.Nodup ∧
    FirstMentions (slots ++ others.flatten) merged.slots ∧
    (∀ a b c : AllowedDevice, (a.merge b).merge c = a.merge (b.merge c)) ∧
    (∀ a : AllowedDevice, a.merge a = a) ∧
    ∀ xs ys : List UInt16,
      ((new g xs).merge (new g ys)).slots.Perm ((new g ys).merge (new g xs)).slots ∧
      ((new g xs).merge (new g ys) = (new g ys).merge (new g xs) ↔
        (new g xs).slots <+: (new g ys).slots ∨ (new g ys).slots <+: (new g xs).slots) := by
  intro merged
  have hmerged : merged = new g (slots ++ others.flatten) := foldl_merge_new g slots others
  have hmentions : FirstMentions (slots ++ others.flatten) merged.slots :=
    hmerged ▸ firstMentions_new g _
  refine ⟨congrArg signature hmerged, hmentions.nodup, hmentions, merge_assoc, merge_self,
    fun xs ys => ⟨perm_merge_comm g xs ys, ?_⟩⟩
  rw [← allow_comm_iff (firstMentions_new g xs).nodup (firstMentions_new g ys).nodup]
  simp only [merge, AllowedDevice.mk.injEq]
  exact and_iff_right rfl

example : (new ⟨16, 1⟩ [1, 2, 1]).merge (new ⟨16, 1⟩ [4, 2, 4]) = ⟨⟨16, 1⟩, [1, 2, 4]⟩ := by decide

end MotionRack.AllowedDevice
