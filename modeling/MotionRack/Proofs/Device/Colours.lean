import Mathlib.Data.List.Nodup
import Mathlib.Data.List.Perm.Subperm
import MotionRack.Device.Joystick
import MotionRack.Document.Reader
import MotionRack.Proofs.Success

/-!
# Colours of an output

An output has three places for colours, and each of its entries takes one: the place that the entry
names, or else the one behind the entry before it. A place that an entry names has to be free. One
that it takes unnamed does not, so such an entry can take the place of an earlier one, whose colour
is lost then. In all other descriptions every entry keeps its colour.
-/
namespace MotionRack

namespace Colours

/-! ### Places -/

/-- The place of an entry, counted from one: the place that it names, or else the one behind
`before`, the place of the entry before it. -/
def placeAfter (before : Nat) (c : Element) : Nat :=
  match Attribute.u8? c "index" with
  | .ok (some number) => number.toNat
  | _ => before + 1

/-- Entries with their places; `before` is the place of the entry before them. -/
def placed (before : Nat) : List Element → List (Nat × Element)
  | [] => []
  | c :: cs => (placeAfter before c, c) :: placed (placeAfter before c) cs

/-- The places of the entries of an output. -/
def places (cs : List Element) : List Nat := (placed 0 cs).map Prod.fst

/-- The entries at a place, in order. -/
def entriesAt (place : Nat) (cs : List Element) : List Element :=
  ((placed 0 cs).filter (·.1 = place)).map Prod.snd

/-- Whether an entry that names no place takes one that an earlier entry has. -/
def Overwrites (cs : List Element) : Prop :=
  ∃ before c after, cs = before ++ c :: after ∧ c.hasAttr "index" = false ∧
    before.foldl placeAfter 0 + 1 ∈ places before

theorem placeAfter_unnamed {c : Element} (h : c.hasAttr "index" = false) (before : Nat) :
    placeAfter before c = before + 1 := by
  rw [placeAfter, Attribute.u8?_eq_none.mpr h]

theorem placed_append (before : Nat) (cs ds : List Element) :
    placed before (cs ++ ds) = placed before cs ++ placed (cs.foldl placeAfter before) ds := by
  induction cs generalizing before with
  | nil => rfl
  | cons c cs ih => simp [placed, ih]

theorem length_placed (before : Nat) (cs : List Element) :
    (placed before cs).length = cs.length := by
  induction cs generalizing before with
  | nil => rfl
  | cons c cs ih => simp [placed, ih]

theorem placed_concat (cs : List Element) (c : Element) :
    placed 0 (cs ++ [c]) = placed 0 cs ++ [(placeAfter (cs.foldl placeAfter 0) c, c)] :=
  placed_append 0 cs [c]

theorem places_concat (cs : List Element) (c : Element) :
    places (cs ++ [c]) = places cs ++ [placeAfter (cs.foldl placeAfter 0) c] := by
  rw [places, placed_concat, List.map_append]
  rfl

section

variable {place : Nat} {cs : List Element}

theorem mem_entriesAt {c : Element} : c ∈ entriesAt place cs ↔ (place, c) ∈ placed 0 cs := by
  simp [entriesAt]

theorem entriesAt_concat (c : Element) :
    entriesAt place (cs ++ [c]) =
      entriesAt place cs ++ if placeAfter (cs.foldl placeAfter 0) c = place then [c] else [] := by
  rw [entriesAt, placed_concat, List.filter_append, List.map_append, entriesAt]
  by_cases hplace : placeAfter (cs.foldl placeAfter 0) c = place <;> simp [hplace]

theorem length_entriesAt (place : Nat) (cs : List Element) :
    (entriesAt place cs).length = (places cs).count place := by
  rw [entriesAt, List.length_map, ← List.countP_eq_length_filter, places, List.count,
    List.countP_map]
  rfl

theorem entriesAt_eq_nil : entriesAt place cs = [] ↔ place ∉ places cs := by
  rw [← List.count_eq_zero, ← length_entriesAt, List.length_eq_zero_iff]

/-- If no two entries have one place, each of them is the only one at its place. -/
theorem entriesAt_eq_singleton (h : (places cs).Nodup) {c : Element}
    (hc : (place, c) ∈ placed 0 cs) : entriesAt place cs = [c] := by
  have hmem : c ∈ entriesAt place cs := mem_entriesAt.mpr hc
  have hone : (entriesAt place cs).length ≤ 1 := by
    rw [length_entriesAt]
    exact List.nodup_iff_count_le_one.mp h place
  obtain ⟨d, hd⟩ := List.length_eq_one_iff.mp
    (Nat.le_antisymm hone (List.length_pos_of_mem hmem))
  rw [hd] at hmem ⊢
  rw [List.mem_singleton.mp hmem]

end

theorem Overwrites.append {cs : List Element} (h : Overwrites cs) (ds : List Element) :
    Overwrites (cs ++ ds) := by
  obtain ⟨before, c, after, rfl, hunnamed, htaken⟩ := h
  exact ⟨before, c, after ++ ds, by simp, hunnamed, htaken⟩

/-- An entry that overwrites another one has the same place. -/
theorem Overwrites.not_nodup {cs : List Element} (h : Overwrites cs) : ¬ (places cs).Nodup := by
  obtain ⟨before, c, after, rfl, hunnamed, htaken⟩ := h
  rw [places, placed_append, List.map_append]
  intro hnodup
  apply List.disjoint_of_nodup_append hnodup htaken
  rw [placed, placeAfter_unnamed hunnamed]
  exact List.mem_cons_self

/-! ### Reading -/

theorem get?_set (cs : Colours) {position : Nat} (h : position < count) (value : UInt32) (i : Nat) :
    (cs.set position value).get? i = if position = i then some value else cs.get? i := by
  unfold count at h
  match position, i with
  | 0, 0 | 0, 1 | 0, 2 | 1, 0 | 1, 1 | 1, 2 | 2, 0 | 2, 1 | 2, 2 => rfl
  | 0, _ + 3 | 1, _ + 3 | 2, _ + 3 => rw [if_neg (by omega)]; rfl

theorem getElem?_toList (cs : Colours) {i : Nat} (h : i < count) :
    cs.toList[i]? = some ((cs.get? i).getD 0) := by
  unfold count at h
  match i with
  | 0 | 1 | 2 => rfl

/-- What the position of an entry is: the place that it has, counted from zero. A place that it
names has to be free. -/
theorem position_eq_ok {cs : Colours} {next position : Nat} {c : Element}
    (h : cs.position next c = .ok position) :
    placeAfter next c = position + 1 ∧
      (c.hasAttr "index" = true → cs.get? position = none) := by
  unfold Colours.position at h
  obtain ⟨index, hindex, h⟩ := bind_eq_ok.mp h
  cases index with
  | none =>
    obtain rfl := pure_eq_ok.mp h
    have hunnamed := Attribute.u8?_eq_none.mp hindex
    exact ⟨placeAfter_unnamed hunnamed next, fun hnamed => by simp [hunnamed] at hnamed⟩
  | some number =>
    dsimp only at h
    split at h
    next => cases h
    next hrange =>
      split at h
      next => cases h
      next hfree =>
        obtain rfl := pure_eq_ok.mp h
        have hpositive : number.toNat ≠ 0 := fun hzero =>
          hrange (Or.inl (UInt8.toNat_inj.mp hzero))
        refine ⟨?_, fun _ => Option.not_isSome_iff_eq_none.mp hfree⟩
        rw [placeAfter, hindex]
        show number.toNat = number.toNat - 1 + 1
        omega

end Colours

namespace OutMap

open Colours

/-- What reading an entry does: it sets the colour at the place of the entry, which is the one that
counts for the next entry. -/
theorem withChild_entry {p q : Partial} {c : Element} (hname : c.name = "ColorID")
    (h : withChild p c = .ok q) :
    ∃ position value, position < Colours.count ∧ placeAfter p.next c = position + 1 ∧
      (c.hasAttr "index" = true → p.colours.get? position = none) ∧
      Attribute.u32 c "value" = .ok value ∧
      q = { p with colours := p.colours.set position value, next := position + 1 } := by
  simp only [withChild, hname, String.reduceEq, if_false, if_true] at h
  obtain ⟨position, hposition, h⟩ := bind_eq_ok.mp h
  split at h
  next => cases h
  next hfits =>
    obtain ⟨value, hvalue, h⟩ := bind_eq_ok.mp h
    obtain rfl := pure_eq_ok.mp h
    obtain ⟨hplace, hfree⟩ := position_eq_ok hposition
    exact ⟨position, value, Nat.not_le.mp hfits, hplace, hfree, hvalue, rfl⟩

/-- Other children leave the colours alone. -/
theorem withChild_other {p q : Partial} {c : Element} (hname : c.name ≠ "ColorID")
    (h : withChild p c = .ok q) : q.colours = p.colours ∧ q.next = p.next := by
  have hkept : ∀ {α : Type} {x : Except ConfigError α} {f : α → Partial},
      x >>= (fun a => pure (f a)) = .ok q →
        (∀ a, (f a).colours = p.colours ∧ (f a).next = p.next) →
          q.colours = p.colours ∧ q.next = p.next := by
    intro α x f h hf
    obtain ⟨a, _, h⟩ := bind_eq_ok.mp h
    obtain rfl := pure_eq_ok.mp h
    exact hf a
  unfold withChild at h
  split_ifs at h
  case neg =>
    obtain rfl := Except.ok.inj h
    exact ⟨rfl, rfl⟩
  all_goals exact hkept h fun _ => ⟨rfl, rfl⟩

/-- What holds once entries were read: every place is one of the three and has the value of the last
entry there, and it has one entry at most unless an entry was overwritten. -/
structure Reads (cs : List Element) (p : Partial) : Prop where
  next : p.next = cs.foldl placeAfter 0
  within : ∀ place ∈ places cs, 1 ≤ place ∧ place ≤ Colours.count
  held : ∀ i, (entriesAt (i + 1) cs).getLast?.mapM (Attribute.u32 · "value") =
    .ok (p.colours.get? i)
  apart : ¬ Overwrites cs → (places cs).Nodup

namespace Reads

theorem nil (map : OutMap) : Reads [] { map := map } where
  next := rfl
  within := List.forall_mem_nil _
  held := fun i => by
    match i with
    | 0 | 1 | 2 | _ + 3 => rfl
  apart := fun _ => List.nodup_nil

theorem entry {cs : List Element} {p q : Partial} {c : Element} (hp : Reads cs p)
    (hname : c.name = "ColorID") (h : withChild p c = .ok q) : Reads (cs ++ [c]) q := by
  obtain ⟨position, value, hfits, hplace, hfree, hvalue, rfl⟩ := withChild_entry hname h
  rw [hp.next] at hplace
  constructor
  case next => rw [List.foldl_concat, hplace]
  case within =>
    rw [places_concat, hplace, List.forall_mem_append, List.forall_mem_singleton]
    exact ⟨hp.within, Nat.le_add_left 1 position, hfits⟩
  case held =>
    intro i
    rw [entriesAt_concat, hplace, get?_set _ hfits]
    by_cases hi : position = i
    · simp [hi, hvalue]
    · rw [if_neg (by omega), if_neg hi, List.append_nil]
      exact hp.held i
  case apart =>
    intro hover
    have hbefore := hp.apart fun h => hover (h.append [c])
    rw [places_concat, hplace, ← List.concat_eq_append, List.nodup_concat]
    refine ⟨?_, hbefore⟩
    cases hindex : c.hasAttr "index" with
    | true =>
      -- The place that the entry names was checked to be free.
      have hheld := hp.held position
      rw [hfree hindex] at hheld
      exact entriesAt_eq_nil.mp (List.getLast?_eq_none_iff.mp (mapM_option_eq_none hheld))
    | false =>
      rw [← hplace, placeAfter_unnamed hindex]
      exact fun htaken => hover ⟨cs, c, [], rfl, hindex, htaken⟩

theorem other {cs : List Element} {p q : Partial} {c : Element} (hp : Reads cs p)
    (hname : c.name ≠ "ColorID") (h : withChild p c = .ok q) : Reads cs q := by
  obtain ⟨hcolours, hnext⟩ := withChild_other hname h
  exact ⟨hnext ▸ hp.next, hp.within, hcolours ▸ hp.held, hp.apart⟩

end Reads

/-- An output that was read has the colours that its entries left. -/
theorem reads_of_ofElement {next : UInt8} {e : Element} {m : OutMap}
    (h : ofElement next e = .ok m) :
    ∃ p, Reads (e.childrenNamed "ColorID") p ∧ m.colours = p.colours.toList := by
  unfold ofElement at h
  obtain ⟨control, _, h⟩ := bind_eq_ok.mp h
  obtain ⟨p, hfold, h⟩ := bind_eq_ok.mp h
  obtain rfl := pure_eq_ok.mp h
  refine ⟨p, ?_, rfl⟩
  refine foldlM_prefix_induction
    (P := fun seen p => Reads (seen.filter (·.name == "ColorID")) p) hfold (Reads.nil _) ?_
  intro seen p c q hp hstep
  by_cases hname : c.name = "ColorID"
  · simpa [hname] using hp.entry hname hstep
  · simpa [hname] using hp.other hname hstep

/-- Whether no colour is lost: there are at most three entries, no two of them have one place, every
entry's value is at its place, and there is 0 at the places of none. -/
structure ColoursKept (e : Element) (m : OutMap) : Prop where
  few : (e.childrenNamed "ColorID").length ≤ Colours.count
  apart : (places (e.childrenNamed "ColorID")).Nodup
  held : ∀ place c, (place, c) ∈ placed 0 (e.childrenNamed "ColorID") →
    ∃ i value, place = i + 1 ∧ Attribute.u32 c "value" = .ok value ∧ m.colours[i]? = some value
  rest : ∀ i < Colours.count, i + 1 ∉ places (e.childrenNamed "ColorID") →
    m.colours[i]? = some 0

/-- Every place of an output that was read holds the value of the last entry there, or 0. So the
colours of all entries are kept if none of them takes the place of an earlier one because it names
none itself, and only then. -/
theorem colours_kept_iff {next : UInt8} {e : Element} {m : OutMap}
    (h : ofElement next e = .ok m) :
    (∀ i < Colours.count, ∃ o, m.colours[i]? = some (o.getD 0) ∧
      (entriesAt (i + 1) (e.childrenNamed "ColorID")).getLast?.mapM (Attribute.u32 · "value") =
        .ok o) ∧
    (ColoursKept e m ↔ ¬ Overwrites (e.childrenNamed "ColorID")) := by
  obtain ⟨p, hp, hcolours⟩ := reads_of_ofElement h
  have hlast : ∀ i < Colours.count, m.colours[i]? = some ((p.colours.get? i).getD 0) :=
    fun i hi => hcolours ▸ getElem?_toList p.colours hi
  refine ⟨fun i hi => ⟨_, hlast i hi, hp.held i⟩, fun hkept hover => hover.not_nodup hkept.apart,
    fun hover => ?_⟩
  have hapart := hp.apart hover
  constructor
  case few =>
    have hsub : places (e.childrenNamed "ColorID") ⊆ List.range' 1 Colours.count := by
      intro place hplace
      have hwithin := hp.within place hplace
      exact List.mem_range'_1.mpr ⟨hwithin.1, by omega⟩
    have hle := (List.subperm_of_subset hapart hsub).length_le
    rwa [places, List.length_map, length_placed, List.length_range'] at hle
  case apart => exact hapart
  case held =>
    intro place c hc
    obtain ⟨hpositive, hfits⟩ := hp.within place (List.mem_map_of_mem hc)
    obtain ⟨i, rfl⟩ := Nat.exists_eq_add_of_le' hpositive
    have hheld := hp.held i
    rw [entriesAt_eq_singleton hapart hc] at hheld
    obtain ⟨value, hvalue, hget⟩ := map_eq_ok.mp hheld
    refine ⟨i, value, rfl, hvalue, ?_⟩
    rw [hlast i hfits, ← hget, Option.getD_some]
  case rest =>
    intro i hi hnone
    have hheld := hp.held i
    rw [entriesAt_eq_nil.mpr hnone] at hheld
    rw [hlast i hi, ← pure_eq_ok.mp hheld, Option.getD_none]

section

open Document (unplaced)

/-- An entry for a colour. -/
def colour (attributes : List (String × String)) (value : String) : Element :=
  unplaced "ColorID" (("value", value) :: attributes) []

/-- An output whose second colour follows the first, which names its place. -/
def followedOutput : Element :=
  unplaced "OutMap" [] [colour [("index", "2")] "5", unplaced "Usage" [("value", "9")] [],
    colour [] "6"]

theorem colours_kept_followedOutput :
    ∃ m, ofElement 0 followedOutput = .ok m ∧ m.colours = [0, 5, 6] ∧
      ColoursKept followedOutput m := by
  obtain ⟨m, hread, hcolours⟩ : ∃ m, ofElement 0 followedOutput = .ok m ∧ m.colours = [0, 5, 6] :=
    ⟨_, rfl, rfl⟩
  refine ⟨m, hread, hcolours, (colours_kept_iff hread).2.mpr fun hover => ?_⟩
  exact hover.not_nodup (by decide)

/-- An output of four entries, the third of which takes the place of the first. -/
def crowdedOutput : Element :=
  unplaced "OutMap" [] [colour [("index", "2")] "1", colour [("index", "1")] "2", colour [] "3",
    colour [] "4"]

/-- It is read without an error, and the colour of the first entry is lost. -/
theorem colour_lost_crowdedOutput :
    ∃ m, ofElement 0 crowdedOutput = .ok m ∧ m.colours = [2, 3, 4] ∧
      ¬ ColoursKept crowdedOutput m := by
  refine ⟨_, rfl, rfl, fun hkept => ?_⟩
  have hfew : (crowdedOutput.childrenNamed "ColorID").length ≤ Colours.count := hkept.few
  exact absurd hfew (by decide)

end

end OutMap
end MotionRack
