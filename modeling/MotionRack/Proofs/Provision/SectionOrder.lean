import MotionRack.Proofs.Provision.Origin

/-!
# Sections in any order

A section is read without a look at the others, so whether a rack can be read, and what is read,
does not depend on the order in which its description has the sections, as long as none is there
twice. What is sent does not either, since the stages have an order of their own. If several
sections cannot be read the order tells which of their errors is shown; nothing is said about
that.
-/
namespace MotionRack

namespace RackSystem

/-- The names of the sections. -/
def sectionNames : List String := ["Settings", "AllowedDevices", "Joysticks"]

/-- Whether an element can be read as the section that it is named for, if it is a section. -/
def Readable (e : Element) : Prop :=
  (e.name = "Settings" → ∃ x, Settings.ofElement e = .ok x) ∧
  (e.name = "AllowedDevices" → ∃ x, AllowedDevices.ofElement e = .ok x) ∧
  (e.name = "Joysticks" → ∃ x, Joysticks.ofElement e = .ok x)

/-- What was read before has no say in whether a section can be read. -/
theorem exists_withSection_iff (s : RackSystem) (e : Element) :
    (∃ next, s.withSection e = .ok next) ↔ Readable e := by
  unfold withSection Readable
  split
  next hsettings => simp [hsettings, map_eq_ok]
  next hsettings =>
    split
    next hallowed => simp [hallowed, map_eq_ok]
    next hallowed =>
      split
      next hjoysticks => simp [hjoysticks, map_eq_ok]
      next hjoysticks => simp [hsettings, hallowed, hjoysticks]

theorem exists_ofElement_iff {root : Element} :
    (∃ s, ofElement root = .ok s) ↔ ∀ e ∈ root.children, Readable e :=
  exists_foldlM_iff exists_withSection_iff

/-- Of two descriptions with the same sections one rack is read. -/
theorem ofElement_unique {a b : Element} {s t : RackSystem}
    (hsections : ∀ name ∈ sectionNames, a.childrenNamed name = b.childrenNamed name)
    (ha : ofElement a = .ok s) (hb : ofElement b = .ok t) : s = t := by
  obtain ⟨hsettings, hallowed, hjoysticks⟩ := sections_of_ofElement ha
  obtain ⟨hsettings', hallowed', hjoysticks'⟩ := sections_of_ofElement hb
  rw [hsections _ (by decide), hsettings'] at hsettings
  rw [hsections _ (by decide), hallowed'] at hallowed
  rw [hsections _ (by decide), hjoysticks'] at hjoysticks
  obtain ⟨settings, allowed, joysticks⟩ := s
  obtain ⟨settings', allowed', joysticks'⟩ := t
  cases hsettings
  cases hallowed
  cases hjoysticks
  rfl

theorem sameOutcome_of_perm {a b : Element} (hperm : a.children.Perm b.children)
    (honce : ∀ name ∈ sectionNames, (a.childrenNamed name).length ≤ 1) :
    SameOutcome (ofElement a) (ofElement b) := by
  have hsections : ∀ name ∈ sectionNames, a.childrenNamed name = b.childrenNamed name :=
    fun name hname => eq_of_perm_of_length_le_one (hperm.filter _) (honce name hname)
  have hreadable : (∃ s, ofElement a = .ok s) ↔ ∃ t, ofElement b = .ok t := by
    rw [exists_ofElement_iff, exists_ofElement_iff]
    exact forall_congr' fun e => by rw [hperm.mem_iff]
  cases ha : ofElement a with
  | ok s =>
    obtain ⟨t, ht⟩ := hreadable.mp ⟨s, ha⟩
    obtain rfl := ofElement_unique hsections ha ht
    exact Or.inl ⟨s, rfl, ht⟩
  | error e =>
    cases hb : ofElement b with
    | ok t =>
      obtain ⟨s, hs⟩ := hreadable.mpr ⟨t, hb⟩
      rw [ha] at hs
      cases hs
    | error e' => exact Or.inr ⟨e, e', rfl, rfl⟩

/-- The same of descriptions whose elements stand in different places. -/
theorem sameOutcome_of_perm_content {a b : Element}
    (hperm : (a.children.map Element.content).Perm (b.children.map Element.content))
    (honce : ∀ name ∈ sectionNames, (a.childrenNamed name).length ≤ 1) :
    SameOutcome (ofElement a) (ofElement b) := by
  have hcontent : Element.bare ∘ Element.content = Element.bare := funext Element.bare_content
  have hbare : a.bare.children.Perm b.bare.children := by
    have h := hperm.map Element.bare
    rwa [List.map_map, List.map_map, hcontent, ← Element.children_bare,
      ← Element.children_bare] at h
  have honce' : ∀ name ∈ sectionNames, (a.bare.childrenNamed name).length ≤ 1 := by
    intro name hname
    rw [Element.childrenNamed_bare, List.length_map]
    exact honce name hname
  have h := sameOutcome_of_perm hbare honce'
  rwa [sameOutcome_iff, toOption_ofElement, toOption_ofElement, ← sameOutcome_iff] at h

end RackSystem

namespace Provision

/-- The plan of a description. -/
def planOf (root : Element) (o : ProvisionOptions) : Except ConfigError (List StagePlan) := do
  plan (← RackSystem.ofElement root) o

/-- Descriptions whose parts are the same up to their order and places, and that have each section
once at most: either one rack is read of both, and they have one plan for every choice of stages,
with the stages in the order of sending, or none can be read. -/
theorem sections_in_any_order {a b : Element}
    (hperm : (a.children.map Element.content).Perm (b.children.map Element.content))
    (honce : ∀ name ∈ RackSystem.sectionNames, (a.childrenNamed name).length ≤ 1) :
    (∃ system, RackSystem.ofElement a = .ok system ∧ RackSystem.ofElement b = .ok system ∧
      ∀ o, planOf a o = planOf b o ∧ ∀ plans, planOf a o = .ok plans →
        plans.map (·.stage) = [Stage.cards, .allowedDevices, .customConfigs, .joysticks].filter
          fun stage => o.enabled stage && declares system stage) ∨
    ∃ e e', RackSystem.ofElement a = .error e ∧ RackSystem.ofElement b = .error e' := by
  rcases RackSystem.sameOutcome_of_perm_content hperm honce with ⟨system, ha, hb⟩ | hfails
  · refine Or.inl ⟨system, ha, hb, fun o => ?_⟩
    have hplan : planOf a o = plan system o := by
      rw [planOf, ha]
      rfl
    refine ⟨?_, fun plans h => ?_⟩
    · rw [hplan, planOf, hb]
      rfl
    · rw [hplan] at h
      exact (planStages_eq_ok h).2
  · exact Or.inr hfails

section

open Document (unplaced)

/-- A description with its parts the other way round, moved to another place. -/
def turned (root : Element) : Element :=
  { root with children := (root.children.map (Element.reindex "/Rack")).reverse }

theorem turned_perm (root : Element) :
    (root.children.map Element.content).Perm ((turned root).children.map Element.content) := by
  have hcontent : Element.content ∘ Element.reindex "/Rack" = Element.content :=
    funext fun e => Element.content_reindex "/Rack" e
  rw [turned, List.map_reverse, List.map_map, hcontent]
  exact (List.reverse_perm _).symm

/-- A description of which no section can be read. -/
def spoiltRoot : Element :=
  unplaced "System" [] [
    unplaced "Settings" [] [unplaced "Card" [("slot", "17"), ("type", "5")] []],
    unplaced "Remark" [] [],
    unplaced "Joysticks" [] [unplaced "Port" [("index", "x")] []]]

/-- A rack that can be read has the same four stages when it is turned; one that cannot be read
fails both ways, each time with the error of the section that comes first. -/
theorem sections_in_any_order_turned :
    (∃ plans, planOf (turned equippedRoot) {} = .ok plans ∧
      plans.map (·.stage) = [.cards, .allowedDevices, .customConfigs, .joysticks]) ∧
    ∃ e e', RackSystem.ofElement spoiltRoot = .error e ∧
      RackSystem.ofElement (turned spoiltRoot) = .error e' ∧ e ≠ e' := by
  constructor
  · obtain ⟨system, plans, hread, hplan, hcounted⟩ := plan_equipped
    rcases sections_in_any_order (turned_perm equippedRoot) (by decide) with
      ⟨_, _, _, hplans⟩ | ⟨e, _, hfails, _⟩
    · obtain ⟨hsame, hstages⟩ := hplans {}
      have hplanOf : planOf equippedRoot {} = .ok plans := by
        rw [planOf, hread]
        exact hplan
      have hfour : (plans.map (·.stage)).length = 4 := by
        simpa using congrArg List.length hcounted
      rw [hstages plans hplanOf] at hfour
      refine ⟨plans, hsame ▸ hplanOf, ?_⟩
      rw [hstages plans hplanOf]
      exact List.filter_sublist.eq_of_length hfour
    · rw [hread] at hfails
      cases hfails
  · have hread : RackSystem.ofElement spoiltRoot =
        .error (.malformedValue "/Card" "slot" "17") := rfl
    have hturned : RackSystem.ofElement (turned spoiltRoot) =
        .error (.malformedValue "/Rack/Port" "index" "x") := rfl
    rcases sections_in_any_order (turned_perm spoiltRoot) (by decide) with
      ⟨_, hok, _, _⟩ | ⟨e, e', he, he'⟩
    · rw [hread] at hok
      cases hok
    · refine ⟨e, e', he, he', ?_⟩
      rw [hread] at he
      rw [hturned] at he'
      cases he
      cases he'
      decide

/-- Where a section is there twice the order does matter: the last one counts. -/
example :
    let empty := unplaced "Settings" [] []
    let full := unplaced "Settings" [] [unplaced "Card" [("slot", "3"), ("type", "5")] []]
    (RackSystem.ofElement (unplaced "System" [] [empty, full])).toOption ≠
      (RackSystem.ofElement (unplaced "System" [] [full, empty])).toOption := by
  decide

end

end Provision
end MotionRack
