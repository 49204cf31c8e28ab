import MotionRack.Proofs.Device.AllowedDevices
import MotionRack.Proofs.Device.Card
import MotionRack.Proofs.Device.Joystick
import MotionRack.Proofs.Provision.Plan

/-!
# Racks that were read

What the readers of the sections check is all that the compilers rely on: every slot is
one, and every frame of a fixed layout is within the limit. So a rack that was read can be
compiled, whatever is to be provisioned, unless an allow list has more entries than fit
into a frame.
-/
namespace MotionRack

namespace RackSystem

/-- The slots from which a compiler counts back: those of cards, of the devices behind them, of
allow lists and of locks. -/
def slots (s : RackSystem) : List UInt16 :=
  s.settings.toList.flatMap Settings.slots ++ s.allowedDevices.toList.flatMap AllowedDevices.slots

/-- Whether an allow list is longer than a frame carries. -/
def Overlong (s : RackSystem) : Prop := ∃ a ∈ s.allowedDevices, a.Overlong

/-- What holds of the sections of a rack that was read. -/
structure Sound (s : RackSystem) : Prop where
  settings : ∀ x ∈ s.settings, x.Sound
  allowedDevices : ∀ x ∈ s.allowedDevices, x.Sound
  joysticks : ∀ x ∈ s.joysticks, x.Sound

/-- What taking an element into account does to a rack. -/
theorem withSection_eq_ok {s next : RackSystem} {e : Element} (h : s.withSection e = .ok next) :
    (e.name = "Settings" ∧
      ∃ x, Settings.ofElement e = .ok x ∧ next = { s with settings := some x }) ∨
    (e.name = "AllowedDevices" ∧
      ∃ x, AllowedDevices.ofElement e = .ok x ∧ next = { s with allowedDevices := some x }) ∨
    (e.name = "Joysticks" ∧
      ∃ x, Joysticks.ofElement e = .ok x ∧ next = { s with joysticks := some x }) ∨
    (e.name ≠ "Settings" ∧ e.name ≠ "AllowedDevices" ∧ e.name ≠ "Joysticks" ∧ next = s) := by
  unfold RackSystem.withSection at h
  split at h
  next hsettings =>
    obtain ⟨x, hx, h⟩ := bind_eq_ok.mp h
    exact Or.inl ⟨hsettings, x, hx, (pure_eq_ok.mp h).symm⟩
  next hsettings =>
    split at h
    next hallowed =>
      obtain ⟨x, hx, h⟩ := bind_eq_ok.mp h
      exact Or.inr (Or.inl ⟨hallowed, x, hx, (pure_eq_ok.mp h).symm⟩)
    next hallowed =>
      split at h
      next hjoysticks =>
        obtain ⟨x, hx, h⟩ := bind_eq_ok.mp h
        exact Or.inr (Or.inr (Or.inl ⟨hjoysticks, x, hx, (pure_eq_ok.mp h).symm⟩))
      next hjoysticks =>
        obtain rfl := Except.ok.inj h
        exact Or.inr (Or.inr (Or.inr ⟨hsettings, hallowed, hjoysticks, rfl⟩))

/-- Every section of a rack is what was read from the last element of its name. -/
theorem sections_of_ofElement {root : Element} {s : RackSystem} (h : ofElement root = .ok s) :
    (root.childrenNamed "Settings").getLast?.mapM Settings.ofElement = .ok s.settings ∧
    (root.childrenNamed "AllowedDevices").getLast?.mapM AllowedDevices.ofElement =
      .ok s.allowedDevices ∧
    (root.childrenNamed "Joysticks").getLast?.mapM Joysticks.ofElement = .ok s.joysticks := by
  -- Of the four ways in which an element is taken into account, its name leaves one.
  refine ⟨foldlM_last h rfl ?_ ?_, foldlM_last h rfl ?_ ?_, foldlM_last h rfl ?_ ?_⟩ <;>
    intro a e b hname hstep <;>
    rcases withSection_eq_ok hstep with ⟨h, x, hx, rfl⟩ | ⟨h, x, hx, rfl⟩ | ⟨h, x, hx, rfl⟩ |
      ⟨h, h', h'', rfl⟩ <;>
    simp_all

theorem sound_of_ofElement {root : Element} {s : RackSystem} (h : ofElement root = .ok s) :
    s.Sound := by
  obtain ⟨hsettings, hallowed, hjoysticks⟩ := sections_of_ofElement h
  refine ⟨fun x hx => ?_, fun x hx => ?_, fun x hx => ?_⟩
  · obtain ⟨e, _, he⟩ := mapM_option_eq_ok hsettings hx
    exact Settings.sound_of_ofElement he
  · obtain ⟨e, _, he⟩ := mapM_option_eq_ok hallowed hx
    exact AllowedDevices.sound_of_ofElement he
  · obtain ⟨e, _, he⟩ := mapM_option_eq_ok hjoysticks hx
    exact Joysticks.sound_of_ofElement he

/-- A description with no other section than allow lists and locks. -/
theorem ofElement_allowedDevices {root e : Element} {a : AllowedDevices}
    (hroot : root.children = [e]) (hname : e.name = "AllowedDevices")
    (ha : AllowedDevices.ofElement e = .ok a) :
    ofElement root = .ok { allowedDevices := some a } := by
  have hother : ¬ e.name = "Settings" := by rw [hname]; decide
  rw [ofElement, hroot, List.foldlM_cons, withSection, if_neg hother, if_pos hname, ha]
  rfl

theorem Sound.isSlotNumber {s : RackSystem} (h : s.Sound) :
    ∀ slot ∈ s.slots, Address.IsSlotNumber slot := by
  refine List.forall_mem_append.mpr ⟨?_, ?_⟩
  · intro slot hslot
    obtain ⟨x, hx, hslot⟩ := List.mem_flatMap.mp hslot
    exact (h.settings x (Option.mem_toList.mp hx)).isSlotNumber slot hslot
  · intro slot hslot
    obtain ⟨x, hx, hslot⟩ := List.mem_flatMap.mp hslot
    exact (h.allowedDevices x (Option.mem_toList.mp hx)).isSlotNumber slot hslot

end RackSystem

/-! ### One stage -/

namespace StagePlan

variable {s : RackSystem} {persist : Bool}

/-- A stage other than that of the allow lists can always be compiled. -/
theorem compile_eq_ok_of_sound (h : s.Sound) {stage : Stage} (hstage : stage ≠ .allowedDevices) :
    ∃ found, compile s persist stage = .ok found := by
  cases stage with
  | cards =>
    rw [compile]
    cases hsection : s.settings with
    | none => exact ⟨none, rfl⟩
    | some x =>
      dsimp only
      rw [(h.settings x hsection).compile_eq_ok]
      exact ⟨_, rfl⟩
  | allowedDevices => exact absurd rfl hstage
  | customConfigs =>
    rw [compile]
    cases s.settings with
    | none => exact ⟨none, rfl⟩
    | some x => exact ⟨_, rfl⟩
  | joysticks =>
    rw [compile]
    cases s.joysticks with
    | none => exact ⟨none, rfl⟩
    | some x => exact ⟨_, rfl⟩

/-- The allow lists can be compiled unless one is too long; then that is the error. -/
theorem compile_allowedDevices_cases (s : RackSystem) (persist : Bool) :
    (¬ s.Overlong ∧ ∃ found, compile s persist .allowedDevices = .ok found) ∨
      ∃ a ∈ s.allowedDevices, ∃ slot ∈ a.slotsUsed,
        AllowedDevices.listLimit < (a.allowedIn slot).length ∧
        compile s persist .allowedDevices =
          .error (.link
            (.payloadTooLarge (AllowedDevices.listSize (a.allowedIn slot).length))) := by
  rw [compile]
  cases hsection : s.allowedDevices with
  | none =>
    refine Or.inl ⟨?_, none, rfl⟩
    rintro ⟨a, ha, _⟩
    rw [hsection] at ha
    cases ha
  | some a =>
    dsimp only
    rcases a.compile_cases with ⟨hshort, frames, hframes⟩ | ⟨slot, hslot, hlong, herror⟩
    · rw [hframes]
      refine Or.inl ⟨?_, _, rfl⟩
      rintro ⟨b, hb, hlong⟩
      rw [hsection] at hb
      obtain rfl := Option.some.inj hb
      exact hshort hlong
    · rw [herror]
      exact Or.inr ⟨a, rfl, slot, hslot, hlong, rfl⟩

/-- Every frame of a stage comes out of the length check. -/
theorem checked_of_compile (h : s.Sound) {stage : Stage} {p : StagePlan}
    (hplan : compile s persist stage = .ok (some p)) : ∀ f ∈ p.frames, f.Checked := by
  cases made_of_compile hplan with
  | cards _ hframes => exact Settings.checked_compile hframes
  | allowedDevices _ hframes => exact AllowedDevices.checked_compile hframes
  | customConfigs hsection => exact (h.settings _ hsection).checked_compileCustoms persist
  | joysticks hsection => exact (h.joysticks _ hsection).checked_compile persist

end StagePlan

/-! ### All stages -/

namespace Provision

/-- A rack that was read, for every choice of stages. Every slot from which a compiler counts back
is one, and the subtraction does not wrap. Every frame of a plan comes out of the length check.
If the allow lists are to be provisioned and one is too long, the result is the link error that
tells the size of the payload of such a list; in all other cases every stage that is to be
provisioned, and whose section is there, has its plan. -/
theorem plan_of_loaded {root : Element} {system : RackSystem}
    (h : RackSystem.ofElement root = .ok system) (o : ProvisionOptions) :
    (∀ slot ∈ system.slots,
      Address.IsSlotNumber slot ∧ (slot - 1).toNat + 1 = slot.toNat) ∧
    (∀ stage p, StagePlan.compile system o.persist stage = .ok (some p) →
      ∀ f ∈ p.frames, f.Checked) ∧
    (o.allowedDevices = true ∧ system.Overlong →
      ∃ a ∈ system.allowedDevices, ∃ slot ∈ a.slotsUsed, 16381 < (a.allowedIn slot).length ∧
        plan system o =
          .error (.link (.payloadTooLarge (2 + 4 * (a.allowedIn slot).length)))) ∧
    (¬ (o.allowedDevices = true ∧ system.Overlong) → ∃ plans, plan system o = .ok plans ∧
      plans.map (·.stage) =
        Stage.order.filter fun stage => o.enabled stage && declares system stage) := by
  have hsound := RackSystem.sound_of_ofElement h
  have hothers : ∀ stage, stage ≠ .allowedDevices →
      ∃ found, StagePlan.compile system o.persist stage = .ok found :=
    fun _ hstage => StagePlan.compile_eq_ok_of_sound hsound hstage
  refine ⟨fun slot hslot => ?_, fun _ _ => StagePlan.checked_of_compile hsound, ?_, ?_⟩
  · have hrange := hsound.isSlotNumber slot hslot
    exact ⟨hrange, hrange.toNat_pred⟩
  · rintro ⟨henabled, hlong⟩
    rcases StagePlan.compile_allowedDevices_cases system o.persist with
      ⟨hshort, _⟩ | ⟨a, ha, slot, hslot, hentries, herror⟩
    · exact absurd hlong hshort
    · refine ⟨a, ha, slot, hslot, hentries, ?_⟩
      exact planStages_eq_error (by decide : Stage.allowedDevices ∈ Stage.order) henabled herror
        hothers
  · intro hexception
    have hcompile : ∀ stage ∈ Stage.order, o.enabled stage = true →
        ∃ found, StagePlan.compile system o.persist stage = .ok found := by
      intro stage _ henabled
      by_cases hstage : stage = .allowedDevices
      · subst hstage
        rcases StagePlan.compile_allowedDevices_cases system o.persist with
          ⟨_, hfound⟩ | ⟨a, ha, slot, _, hentries, _⟩
        · exact hfound
        · exact absurd ⟨henabled, a, ha, slot, hentries⟩ hexception
      · exact hothers stage hstage
    obtain ⟨plans, hplans⟩ := exists_planStages hcompile
    exact ⟨plans, hplans, (planStages_eq_ok hplans).2⟩

/-- The description of a rack with one card, one allow list and one lock. -/
def smallRoot : Element :=
  ⟨"System", [], [
    ⟨"Settings", [], [⟨"Card", [("slot", "3"), ("type", "5")], [], "/System/Settings/Card", none⟩],
      "/System/Settings", none⟩,
    ⟨"AllowedDevices", [], [
      ⟨"Device", [], [⟨"Allow", [("slot", "3")], [], "/System/AllowedDevices/Device/Allow", none⟩],
        "/System/AllowedDevices/Device", none⟩,
      ⟨"DeviceLock", [("slot", "16")], [], "/System/AllowedDevices/DeviceLock", none⟩],
      "/System/AllowedDevices", none⟩], "/System", none⟩

/-- The rack of this description. -/
def smallRack : RackSystem where
  settings := some ⟨[⟨3, 5, false, true, none⟩]⟩
  allowedDevices := some ⟨[⟨{}, [3]⟩], [⟨16, none⟩]⟩

/-- A device that may be plugged into slot 3. -/
def spareDevice : Element :=
  ⟨"Device", [], [⟨"Allow", [("slot", "3")], [], "/System/AllowedDevices/Device/Allow", none⟩],
    "/System/AllowedDevices/Device", none⟩

/-- The description of a rack that declares this device `count` times. -/
def crowdedRoot (count : Nat) : Element :=
  ⟨"System", [], [⟨"AllowedDevices", [], List.replicate count spareDevice,
    "/System/AllowedDevices", none⟩], "/System", none⟩

/-- The small rack has a plan. With 182 declarations of one device, which make 16471 entries, the
crowded rack has none. -/
theorem plan_of_loaded_small_crowded :
    (RackSystem.ofElement smallRoot = .ok smallRack ∧ smallRack.slots = [3, 3, 16] ∧
      (∀ slot ∈ smallRack.slots,
        Address.IsSlotNumber slot ∧ (slot - 1).toNat + 1 = slot.toNat) ∧
      ∃ plans, plan smallRack {} = .ok plans ∧
        plans.map (·.stage) = [.cards, .allowedDevices, .customConfigs]) ∧
    ∃ crowded size, RackSystem.ofElement (crowdedRoot 182) = .ok crowded ∧
      maxPayload < size ∧ plan crowded {} = .error (.link (.payloadTooLarge size)) := by
  constructor
  · have hread : RackSystem.ofElement smallRoot = .ok smallRack := rfl
    have hshort : ¬ smallRack.Overlong := by
      rintro ⟨a, ha, slot, hlong⟩
      obtain rfl := Option.some.inj ha
      have hentries : (AllowedDevices.allowedIn ⟨[⟨{}, [3]⟩], [⟨16, none⟩]⟩ slot).length ≤ 1 := by
        unfold AllowedDevices.allowedIn
        rw [List.length_map]
        exact List.length_filter_le _ _
      exact absurd (Nat.lt_of_lt_of_le hlong hentries) (by decide)
    obtain ⟨hslots, -, -, hplan⟩ := plan_of_loaded hread {}
    exact ⟨hread, rfl, hslots, hplan fun h => hshort h.2⟩
  · have hdevice : AllowedDevice.ofElement spareDevice = .ok ⟨{}, [3]⟩ := rfl
    obtain ⟨a, ha, hentries⟩ := AllowedDevices.exists_ofElement_repeated rfl hdevice
      (e := ⟨"AllowedDevices", [], List.replicate 182 spareDevice, "/System/AllowedDevices", none⟩)
      rfl (List.mem_singleton_self 3)
    have hread : RackSystem.ofElement (crowdedRoot 182) = .ok { allowedDevices := some a } :=
      RackSystem.ofElement_allowedDevices rfl rfl ha
    have hlong : AllowedDevices.listLimit < (a.allowedIn 3).length :=
      Nat.lt_of_lt_of_le (by decide) hentries
    obtain ⟨-, -, hplan, -⟩ := plan_of_loaded hread {}
    obtain ⟨b, _, slot, _, hsize, herror⟩ := hplan ⟨rfl, a, rfl, 3, hlong⟩
    refine ⟨_, _, hread, ?_, herror⟩
    unfold maxPayload
    omega

end Provision
end MotionRack
