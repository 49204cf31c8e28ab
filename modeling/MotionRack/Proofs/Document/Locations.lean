import MotionRack.Proofs.Document.Places

/-!
# Locations in every tree

Trees come about by reading a document, by putting elements together and by expanding directives,
and any part of one is a tree again. In each of them attributes have distinct keys and paths say
where elements stand.
-/
namespace MotionRack.Document

/-- The ways in which a tree comes about. The documents that an expansion loads are trees that came
about in one of these ways too. -/
inductive Obtained : Element → Prop
  | parsed {text : String} {source : Option String} {e : Element} :
      parse text source = .ok e → Obtained e
  | named (name : String) : Obtained (Element.named name)
  | setAttr {e : Element} (key value : String) : Obtained e → Obtained (e.setAttr key value)
  | withChild {e child : Element} : Obtained e → Obtained child → Obtained (e.withChild child)
  | child {e d : Element} : Obtained e → d ∈ e.children → Obtained d
  | selected {e d : Element} {query : String} :
      Obtained e → e.select? query = some d → Obtained d
  | preprocessed {load : Expansion.Loader} {limit : Nat} {root t : Element} {base : String} :
      (∀ path d, load path = .ok d → Obtained d) → Obtained root →
      Expansion.preprocess load limit root base = .ok t → Obtained t

theorem placed_parse {text : String} {source : Option String} {e : Element}
    (h : parse text source = .ok e) : e.Placed := by
  rw [parse] at h
  split at h
  · cases h
  · dsimp only at h
    split at h
    · obtain rfl := Except.ok.inj h
      rw [← Element.reindex_withSource]
      exact Element.placed_reindex _ _
    · obtain rfl := Except.ok.inj h
      exact Element.placed_reindex _ _

theorem placed_expand {load : Expansion.Loader} {limit remaining : Nat} {root t : Element}
    {base : String} (h : Expansion.expand load limit remaining root base = .ok t) : t.Placed := by
  obtain ⟨_, -, below, -, rfl⟩ := Expansion.expand_eq_ok.mp h
  exact Element.placed_reindex _ below

theorem Obtained.placed {e : Element} (h : Obtained e) : e.Placed := by
  induction h with
  | parsed hparse => exact placed_parse hparse
  | named name => exact Element.placed_iff.mpr ⟨nofun, nofun⟩
  | setAttr key value _ ih =>
    -- Neither the path nor the children change, and nothing else is looked at.
    obtain ⟨hown, hchildren⟩ := Element.placed_iff.mp ih
    exact Element.placed_iff.mpr
      ⟨fun i c hc => ⟨(hown i c hc).alone, (hown i c hc).among⟩, hchildren⟩
  | withChild => exact Element.placed_reindex _ _
  | child _ hd ih => exact (Element.placed_iff.mp ih).2 _ hd
  | selected _ hselect ih => exact ih.of_mem (Element.select?_mem hselect)
  | preprocessed _ _ hexpand => exact placed_expand hexpand

theorem Obtained.keysDistinct {e : Element} (h : Obtained e) : e.KeysDistinct := by
  induction h with
  | parsed hparse => exact keysDistinct_parse hparse
  | named name => exact Element.keysDistinct_iff.mpr ⟨List.nodup_nil, nofun⟩
  | setAttr key value _ ih => exact ih.setAttr key value
  | withChild _ _ ih ihchild => exact ih.withChild ihchild
  | child _ hd ih => exact (Element.keysDistinct_iff.mp ih).2 _ hd
  | selected _ hselect ih => exact ih.of_mem (Element.select?_mem hselect)
  | preprocessed _ _ hexpand ihload ih => exact Expansion.keysDistinct_expand ihload hexpand ih

/-- Locations are exact, in whatever way a tree came about. No element has two attributes of one
key, and the path of every child says where it stands below its parent. So elements whose names hold
no mark of paths are told apart by their paths. -/
theorem locations_exact {e : Element} (h : Obtained e) :
    (∀ d ∈ e.elements, (d.attributes.map (·.1)).Nodup) ∧
    (∀ d ∈ e.elements, ∀ i c, d.children[i]? = some c → d.StandsAt i c) ∧
    ((∀ d ∈ e.elements, '/' ∉ d.name.toList ∧ '[' ∉ d.name.toList) →
      (e.elements.map (·.path)).Nodup) :=
  ⟨h.keysDistinct, h.placed, Element.nodup_paths h.placed⟩

/-- A rack with two cards, the second of which is a copy of the first with another slot. -/
def twoCards : Element :=
  let card := (Element.named "Card").setAttr "slot" "1"
  ((Element.named "System").withChild card).withChild (card.setAttr "slot" "2")

theorem locations_exact_twoCards :
    (twoCards.elements.map (·.path)).Nodup ∧
      twoCards.children.map (·.path) = ["/System/Card[1]", "/System/Card[2]"] ∧
      ∀ i c, twoCards.children[i]? = some c → twoCards.StandsAt i c := by
  have hobtained : Obtained twoCards := by
    have hcard : Obtained ((Element.named "Card").setAttr "slot" "1") := .setAttr _ _ (.named _)
    exact .withChild (.withChild (.named _) hcard) (.setAttr _ _ hcard)
  obtain ⟨-, hplaces, hpaths⟩ := locations_exact hobtained
  refine ⟨hpaths (by decide), by decide, hplaces twoCards (Element.self_mem_elements _)⟩

end MotionRack.Document
