import MotionRack.Proofs.Bus.Frame
import MotionRack.Proofs.Provision.Loaded
import MotionRack.Proofs.Sequence

/-!
# What goes over the wire

The frames of a plan, seen from the bus: which commands a stage sends, to which node, with
payloads of which size. All of them are read back from their byte form as they were sent.
-/
namespace MotionRack

namespace Command

/-- The commands whose payload is of one size, with that size. -/
def fixedSizes : List (CommandId × Nat) :=
  [(setCardType, 4), (setDeviceDetection, 3), (setDeviceBoard, 10), (setStageParams, 90),
   (setLimitSwitchParams, 24), (setHomeParams, 14), (setPidParams, 20),
   (setStorePositionDeadband, 4), (setStorePosition, 42), (setShutterParams, 19),
   (setJoystickMapIn, 21), (setJoystickMapOut, 15), (commit, 4)]

/-- Whether the payload of a command can have a size. Only allow lists vary: they have at least
one entry of four bytes behind the slot. -/
def HasSize (command : CommandId) (size : Nat) : Prop :=
  (command, size) ∈ fixedSizes ∨
    command = setAllowedDevices ∧ ∃ entries, 1 ≤ entries ∧ size = 2 + 4 * entries

end Command

/-- The commands that a stage sends. -/
def Stage.commands : Stage → List CommandId
  | .cards => [Command.setCardType, Command.setDeviceDetection]
  | .allowedDevices => [Command.setAllowedDevices, Command.setDeviceBoard]
  | .customConfigs =>
    [Command.setStageParams, Command.setLimitSwitchParams, Command.setHomeParams,
     Command.setPidParams, Command.setStorePositionDeadband, Command.setStorePosition,
     Command.setShutterParams, Command.commit]
  | .joysticks => [Command.setJoystickMapIn, Command.setJoystickMapOut, Command.commit]

namespace Frame

/-- Whether a frame carries one of the commands to a node, with a payload of a size that the
command can have. -/
structure Carries (commands : List CommandId) (node : Address) (f : Frame) : Prop where
  command : f.command ∈ commands
  size : Command.HasSize f.command f.payload.length
  destination : f.destination = node

variable {commands : List CommandId} {node : Address}

theorem carries_carrying {command : CommandId} {payload : Octets} {size : Nat}
    (hsize : (command, size) ∈ Command.fixedSizes) (hlength : payload.length = size)
    (hcommand : command ∈ commands) : (carrying command node payload).Carries commands node :=
  ⟨hcommand, Or.inl (hlength ▸ hsize), rfl⟩

theorem carries_commit (hcommit : Command.commit ∈ commands) (channel : UInt16)
    (command : CommandId) : (commit node channel command).Carries commands node := by
  have hlength : (Octets.ofNat 2 channel.toNat ++ Octets.ofNat 2 command.toNat).length = 4 := by
    simp
  exact carries_carrying (by decide) hlength hcommit

/-- A frame that comes out of the length check is one from the host, with a payload. -/
theorem Checked.eq_carrying {f : Frame} (h : f.Checked) :
    f = carrying f.command f.destination f.payload ∧ f.payload.length ≤ maxPayload := by
  rw [Checked, long] at h
  split at h
  next => cases h
  next hfits => exact ⟨(Except.ok.inj h).symm, Nat.not_lt.mp hfits⟩

theorem Checked.canonical {f : Frame} (h : f.Checked) (hcarries : f.Carries commands node)
    (hnode : node.Canonical) : f.Canonical := by
  obtain ⟨hform, hfits⟩ := h.eq_carrying
  have hsource : f.source = .host := by rw [hform]; rfl
  exact ⟨hcarries.destination ▸ hnode, hsource ▸ trivial, hfits⟩

/-- What can be said of such a frame on the wire, if the address byte of its node tells the
node. -/
theorem Checked.onWire {f : Frame} (h : f.Checked) (hcarries : f.Carries commands node)
    (hnode : Address.ofByte node.byte = node) :
    f.source = .host ∧ f.isExtended = true ∧ decode f.encode = .ok f ∧
      f.command ∈ commands ∧ Command.HasSize f.command f.payload.length := by
  obtain ⟨hform, -⟩ := h.eq_carrying
  have hsource : f.source = .host := by rw [hform]; rfl
  have hextended : f.isExtended = true := by rw [hform]; rfl
  have hcanonical := h.canonical hcarries (Address.ofByte_byte_eq_self_iff.mp hnode)
  exact ⟨hsource, hextended, hcanonical.decode_encode, hcarries.command, hcarries.size⟩

end Frame

theorem Commit.carries_append {commands : List CommandId} {node : Address} {frames : List Frame}
    (h : ∀ f ∈ frames, f.Carries commands node) (hcommit : Command.commit ∈ commands)
    (persist : Bool) (channel : UInt16) :
    ∀ f ∈ append persist node channel frames, f.Carries commands node := by
  unfold append
  cases persist with
  | false => exact h
  | true =>
    refine List.forall_mem_append.mpr ⟨h, ?_⟩
    intro f hf
    obtain ⟨command, _, rfl⟩ := List.mem_map.mp hf
    exact Frame.carries_commit hcommit channel command

/-! ### Devices behind cards -/

theorem StageParameters.IsFrameOf.carries {slot : UInt16} {f : Frame} (h : IsFrameOf slot f) :
    f.Carries Stage.customConfigs.commands (slotAddress slot) := by
  obtain ⟨command, size, hmem, payload, hlength, rfl⟩ := h
  have hsizes : ∀ entry ∈ frameSizes,
      entry ∈ Command.fixedSizes ∧ entry.1 ∈ Stage.customConfigs.commands := by decide
  obtain ⟨hsize, hcommand⟩ := hsizes (command, size) hmem
  exact Frame.carries_carrying hsize hlength hcommand

theorem ShutterChannel.carries_frames {s : ShutterChannel} (h : Address.IsSlotNumber s.slot) :
    ∀ f ∈ s.frames, f.Carries Stage.customConfigs.commands (slotAddress s.slot) := by
  intro f hf
  obtain ⟨p, payload, -, hpayload, rfl⟩ := eq_of_mem_frames hf
  rw [address_eq h]
  exact Frame.carries_carrying (by decide) (ShutterParams.length_payload? hpayload) (by decide)

/-- All frames of a device go to the slot that its description was read for. -/
theorem CustomConfig.ReadFor.carries_compile {slot : UInt16} {d : CustomConfig}
    (h : d.ReadFor slot) (hslot : Address.IsSlotNumber slot) (persist : Bool) :
    ∀ f ∈ d.compile persist, f.Carries Stage.customConfigs.commands (slotAddress slot) := by
  cases d with
  | stage s =>
    obtain ⟨rfl, hframes⟩ := h
    exact Commit.carries_append (fun f hf => (hframes f hf).carries) (by decide) persist 0
  | flipper g =>
    intro f hf
    obtain ⟨s, hs, hf⟩ := List.mem_flatMap.mp hf
    obtain rfl := h.2 s hs
    have haddress := ShutterChannel.address_eq hslot
    rw [ShutterChannel.compile, ShutterChannel.target, haddress] at hf
    exact Commit.carries_append (ShutterChannel.carries_frames hslot) (by decide) persist
      s.channel f hf

/-! ### Cards, allow lists and joysticks -/

theorem Settings.carries_compile {x : Settings} {frames : List Frame}
    (h : x.compile = .ok frames) :
    ∀ f ∈ frames, f.Carries Stage.cards.commands .motherboard := by
  unfold compile at h
  split at h
  next => cases h
  next =>
    cases h
    rw [List.forall_mem_append, List.forall_mem_map, List.forall_mem_map]
    refine ⟨fun c _ => ?_, fun c _ => ?_⟩
    · have hlength : c.typeFrame.payload.length = 4 := by
        simp [Card.typeFrame, Frame.payload, Frame.carrying]
      exact Frame.carries_carrying (by decide) hlength (by decide)
    · have hlength : c.detectionFrame.payload.length = 3 := rfl
      exact Frame.carries_carrying (by decide) hlength (by decide)

namespace AllowedDevices

/-- A slot in use has a device on its list. -/
theorem allowedIn_ne_nil {a : AllowedDevices} {slot : UInt16} (h : slot ∈ a.slotsUsed) :
    a.allowedIn slot ≠ [] := by
  rw [slotsUsed, List.mem_eraseDups, List.mem_flatMap] at h
  obtain ⟨d, hd, hslot⟩ := h
  have hlisted : d ∈ a.devices.filter (·.slots.contains slot) :=
    List.mem_filter.mpr ⟨hd, List.contains_iff_mem.mpr hslot⟩
  exact List.ne_nil_of_mem (List.mem_map_of_mem hlisted)

theorem carries_allowFrame {a : AllowedDevices} {slot : UInt16} (hslot : slot ∈ a.slotsUsed)
    {f : Frame} (h : a.allowFrame slot = .ok f) :
    f.Carries Stage.allowedDevices.commands .motherboard := by
  rw [allowFrame_eq] at h
  split at h
  next => cases h
  next =>
    cases h
    have hentries : 1 ≤ (a.allowedIn slot).length :=
      List.length_pos_iff.mpr (allowedIn_ne_nil hslot)
    have hcommand : Command.setAllowedDevices ∈ Stage.allowedDevices.commands := by decide
    refine ⟨hcommand, Or.inr ⟨rfl, _, hentries, ?_⟩, rfl⟩
    simp only [Frame.payload, Frame.carrying, List.length_append, Octets.length_ofNat,
      length_flatMap_bytes]

theorem carries_compile {a : AllowedDevices} {frames : List Frame} (h : a.compile = .ok frames) :
    ∀ f ∈ frames, f.Carries Stage.allowedDevices.commands .motherboard := by
  unfold compile at h
  split at h
  next lists hlists =>
    cases h
    rw [List.forall_mem_append, List.forall_mem_map]
    refine ⟨fun f hf => ?_, fun l _ => ?_⟩
    · obtain ⟨slot, hslot, hframe⟩ := exists_of_mem_mapM hlists hf
      exact carries_allowFrame hslot hframe
    · have hlength : l.frame.payload.length = 10 := by
        simp [DeviceLock.frame, Frame.payload, Frame.carrying]
      exact Frame.carries_carrying (by decide) hlength (by decide)
  next => cases h

end AllowedDevices

theorem JoystickPort.Sound.carries_frames {p : JoystickPort} (h : p.Sound) :
    ∀ f ∈ p.frames, f.Carries Stage.joysticks.commands .motherboard := by
  unfold frames
  rw [List.forall_mem_append, List.forall_mem_map, List.forall_mem_map]
  refine ⟨fun m _ => ?_, fun m hm => ?_⟩
  · exact Frame.carries_carrying (by decide) (InMap.length_payload m p.index) (by decide)
  · have hlength : (m.payload p.index).length = 15 := by
      rw [OutMap.length_payload, h m hm]
      rfl
    exact Frame.carries_carrying (by decide) hlength (by decide)

theorem Joysticks.Sound.carries_compile {j : Joysticks} (h : j.Sound) (persist : Bool) :
    ∀ f ∈ j.compile persist, f.Carries Stage.joysticks.commands .motherboard := by
  intro f hf
  obtain ⟨p, hp, hf⟩ := List.mem_flatMap.mp hf
  unfold JoystickPort.compile at hf
  split at hf
  next =>
    have hcommit : ∀ command, (Frame.commit .motherboard p.index.toUInt16 command).Carries
        Stage.joysticks.commands .motherboard := Frame.carries_commit (by decide) _
    have hcommits := List.forall_mem_cons.mpr
      ⟨hcommit Command.setJoystickMapIn,
        List.forall_mem_singleton.mpr (hcommit Command.setJoystickMapOut)⟩
    exact List.forall_mem_append.mpr ⟨(h p hp).carries_frames, hcommits⟩ f hf
  next => exact (h p hp).carries_frames f hf

/-! ### Plans -/

/-- Whether a frame is one of the device behind a card. -/
def Card.Owns (persist : Bool) (c : Card) (f : Frame) : Prop :=
  ∃ d ∈ c.custom, f ∈ d.compile persist

theorem Card.Sound.carries_of_owns {c : Card} (h : c.Sound) {persist : Bool} {f : Frame}
    (hf : c.Owns persist f) : f.Carries Stage.customConfigs.commands (slotAddress c.slot) := by
  obtain ⟨d, hd, hf⟩ := hf
  exact (h.readFor d hd).carries_compile h.inRange persist f hf

theorem Settings.exists_owner {x : Settings} {persist : Bool} {f : Frame}
    (hf : f ∈ x.compileCustoms persist) : ∃ c ∈ x.cards, c.Owns persist f := by
  obtain ⟨d, hd, hf⟩ := List.mem_flatMap.mp hf
  obtain ⟨c, hc, hcustom⟩ := List.mem_filterMap.mp hd
  exact ⟨c, hc, d, hcustom, hf⟩

/-- The frames of the device behind a card, if it has one. -/
def Card.frames (persist : Bool) (c : Card) : List Frame :=
  c.custom.toList.flatMap (·.compile persist)

theorem Card.mem_frames {persist : Bool} {c : Card} {f : Frame} :
    f ∈ c.frames persist ↔ c.Owns persist f := by
  simp [frames, Owns]

theorem Settings.compileCustoms_eq (persist : Bool) (x : Settings) :
    x.compileCustoms persist = x.cards.flatMap (·.frames persist) := by
  unfold compileCustoms customs
  induction x.cards with
  | nil => rfl
  | cons c cards ih =>
    rw [List.flatMap_cons, ← ih, Card.frames]
    cases hcustom : c.custom <;> simp [hcustom]

theorem slotAddress_inj {a b : UInt16} (ha : Address.IsSlotNumber a) (hb : Address.IsSlotNumber b)
    (h : slotAddress a = slotAddress b) : a = b := by
  have hbytes : (a - 1).toUInt8 = (b - 1).toUInt8 := Address.slot.inj h
  rw [← UInt16.toNat_inj, ← ha.toNat_index, ← hb.toNat_index, hbytes]

/-- The frames to a slot are those of the device behind the card in it. -/
theorem Settings.Sound.filter_compileCustoms {x : Settings} (h : x.Sound)
    (hslots : x.cards.Pairwise fun c d => c.slot ≠ d.slot) {c : Card} (hc : c ∈ x.cards)
    (persist : Bool) :
    (x.compileCustoms persist).filter (·.destination = slotAddress c.slot) = c.frames persist := by
  have hnode : ∀ d ∈ x.cards, ∀ f ∈ d.frames persist, f.destination = slotAddress d.slot :=
    fun d hd f hf => ((h d hd).carries_of_owns (Card.mem_frames.mp hf)).destination
  have hown : (c.frames persist).filter (·.destination = slotAddress c.slot) =
      c.frames persist := by
    simpa [List.filter_eq_self] using hnode c hc
  have hother : ∀ d ∈ x.cards, d.slot ≠ c.slot →
      (d.frames persist).filter (·.destination = slotAddress c.slot) = [] := by
    intro d hd hslot
    rw [List.filter_eq_nil_iff]
    intro f hf
    rw [hnode d hd f hf, decide_eq_true_eq]
    exact fun haddress => hslot (slotAddress_inj (h d hd).inRange (h c hc).inRange haddress)
  rw [compileCustoms_eq, List.filter_flatMap, flatMap_eq_of_apart hslots hc, hown]
  rintro d hd (hne | hne)
  · exact hother d hd hne.symm
  · exact hother d hd hne

theorem Address.IsSlotNumber.canonical {slot : UInt16} (h : IsSlotNumber slot) :
    (slotAddress slot).Canonical := by
  have hindex := h.toNat_index
  have hrange : slot.toNat ≤ slotCount := h.2
  change (slot - 1).toUInt8.toNat < slotCount
  omega

/-- The address byte of a slot tells the slot. -/
theorem Address.IsSlotNumber.ofByte_byte {slot : UInt16} (h : IsSlotNumber slot) :
    ofByte (slotAddress slot).byte = slotAddress slot :=
  ofByte_byte_of_canonical h.canonical

namespace StagePlan

variable {s : RackSystem} {persist : Bool}

/-- All stages but one talk to the motherboard. -/
theorem carries_of_compile (h : s.Sound) {stage : Stage} (hstage : stage ≠ .customConfigs)
    {p : StagePlan} (hplan : compile s persist stage = .ok (some p)) :
    ∀ f ∈ p.frames, f.Carries stage.commands .motherboard := by
  cases made_of_compile hplan with
  | cards _ hframes => exact Settings.carries_compile hframes
  | allowedDevices _ hframes => exact AllowedDevices.carries_compile hframes
  | customConfigs => exact absurd rfl hstage
  | joysticks hsection => exact (h.joysticks _ hsection).carries_compile persist

/-- The other one talks to the devices behind the cards. -/
theorem compileCustoms_of_compile {p : StagePlan}
    (hplan : compile s persist .customConfigs = .ok (some p)) :
    ∃ x, s.settings = some x ∧ p.frames = x.compileCustoms persist := by
  cases made_of_compile hplan with
  | customConfigs hsection => exact ⟨_, hsection, rfl⟩

/-- So every planned frame has canonical addresses, and a payload that is not too long. -/
theorem canonical_of_compile (h : s.Sound) {stage : Stage} {p : StagePlan}
    (hplan : compile s persist stage = .ok (some p)) : ∀ f ∈ p.frames, f.Canonical := by
  intro f hf
  have hchecked := checked_of_compile h hplan f hf
  by_cases hstage : stage = .customConfigs
  · subst hstage
    obtain ⟨x, hsection, hframes⟩ := compileCustoms_of_compile hplan
    obtain ⟨c, hc, howns⟩ := Settings.exists_owner (hframes ▸ hf)
    have hcard := h.settings x hsection c hc
    exact hchecked.canonical (hcard.carries_of_owns howns) hcard.inRange.canonical
  · exact hchecked.canonical (carries_of_compile h hstage hplan f hf) trivial

end StagePlan

namespace Provision

/-- Every planned frame is well formed, for every rack that was read and every choice of stages.
It comes from the host, has a payload, and is read back from its bytes as it is. Its command is
one of its stage, and its payload has the size of its command. It goes to the motherboard, or, in
the stage of the devices, to the slot of the card that owns it. -/
theorem plan_wellFormed {root : Element} {system : RackSystem}
    (h : RackSystem.ofElement root = .ok system) {o : ProvisionOptions} {plans : List StagePlan}
    (hplan : plan system o = .ok plans) :
    ∀ p ∈ plans, ∀ f ∈ p.frames,
      f.source = .host ∧ f.isExtended = true ∧ Frame.decode f.encode = .ok f ∧
      f.command ∈ p.stage.commands ∧ Command.HasSize f.command f.payload.length ∧
      (p.stage ≠ .customConfigs → f.destination = .motherboard) ∧
      (p.stage = .customConfigs → ∃ x, system.settings = some x ∧
        (∃ c ∈ x.cards, c.Owns o.persist f) ∧
        ∀ c ∈ x.cards, c.Owns o.persist f →
          Address.IsSlotNumber c.slot ∧ f.destination = .slot (c.slot - 1).toUInt8) := by
  intro p hp f hf
  have hsound := RackSystem.sound_of_ofElement h
  obtain ⟨-, hcompile⟩ := compile_of_mem_plan hplan hp
  have hchecked := StagePlan.checked_of_compile hsound hcompile f hf
  by_cases hstage : p.stage = .customConfigs
  · rw [hstage] at hcompile ⊢
    obtain ⟨x, hsection, hframes⟩ := StagePlan.compileCustoms_of_compile hcompile
    have hcards := hsound.settings x hsection
    have hown : ∀ c ∈ x.cards, c.Owns o.persist f →
        Address.IsSlotNumber c.slot ∧ f.destination = slotAddress c.slot :=
      fun c hc howns => ⟨(hcards c hc).inRange, ((hcards c hc).carries_of_owns howns).destination⟩
    obtain ⟨c, hc, howns⟩ := Settings.exists_owner (hframes ▸ hf)
    obtain ⟨hsource, hlong, hread, hcommand, hsize⟩ :=
      hchecked.onWire ((hcards c hc).carries_of_owns howns) (hcards c hc).inRange.ofByte_byte
    exact ⟨hsource, hlong, hread, hcommand, hsize, fun hne => absurd rfl hne,
      fun _ => ⟨x, hsection, ⟨c, hc, howns⟩, hown⟩⟩
  · have hcarries := StagePlan.carries_of_compile hsound hstage hcompile f hf
    obtain ⟨hsource, hlong, hread, hcommand, hsize⟩ := hchecked.onWire hcarries (by decide)
    exact ⟨hsource, hlong, hread, hcommand, hsize, fun _ => hcarries.destination,
      fun hcustom => absurd hcustom hstage⟩

section

open Document (unplaced)

/-- A setting of a description. -/
def valued (name value : String) : Element := unplaced name [("value", value)] []

/-- A shutter with all that it has to tell. -/
def pulsedShutter (attributes : List (String × String)) : Element :=
  unplaced "Shutter" (("version", "0") :: attributes)
    [valued "PowerUpPosition" "OPEN", valued "TriggerMode" "ENABLED", valued "Type" "PULSED",
     valued "OnTimeSeconds" "0.02", valued "PulseVoltage" "24", valued "HoldVoltage" "0"]

/-- The description of a rack with something for every stage: a card with a stage behind it, one
with three shutter channels of which the second is left unconfigured, an allow list, a lock, and
a joystick. -/
def equippedRoot : Element :=
  unplaced "System" [] [
    unplaced "Settings" [] [
      unplaced "Card" [("slot", "3"), ("type", "5")] [
        unplaced "CustomConfig" [] [
          unplaced "StageParameters" [] [
            unplaced "Store" [] [valued "Deadband" "3", valued "Position" "-7"]]]],
      unplaced "Card" [("slot", "16"), ("type", "0x10")] [
        unplaced "CustomConfig" [] [
          unplaced "FlipperShutterParameters" [] [
            pulsedShutter [], unplaced "Shutter" [("version", "0")] [],
            pulsedShutter [("channel", "5")]]]]],
    unplaced "AllowedDevices" [] [
      unplaced "Device" [] [unplaced "Allow" [("slot", "3")] []],
      unplaced "DeviceLock" [("slot", "16")] []],
    unplaced "Joysticks" [] [
      unplaced "Port" [] [
        unplaced "Joystick" [] [
          unplaced "InMap" [] [], unplaced "OutMap" [] [valued "ColorID" "1"]]]]]

/-- The frames of its stages, counted, and the commits among them. -/
theorem plan_equipped :
    ∃ system plans, RackSystem.ofElement equippedRoot = .ok system ∧ plan system {} = .ok plans ∧
      plans.map (fun p => (p.frames.length, p.commits)) = [(4, 0), (2, 0), (8, 4), (4, 2)] := by
  have hcounts : ((fun plans => plans.map fun p => (p.frames.length, p.commits)) <$>
      (RackSystem.ofElement equippedRoot >>= fun system => plan system {})).toOption =
        some [(4, 0), (2, 0), (8, 4), (4, 2)] := by
    decide +kernel
  obtain ⟨plans, hplans, hcounted⟩ := map_eq_ok.mp (toOption_eq_some.mp hcounts)
  obtain ⟨system, hread, hplan⟩ := bind_eq_ok.mp hplans
  exact ⟨system, plans, hread, hplan, hcounted⟩

theorem plan_wellFormed_equipped :
    ∃ system plans, RackSystem.ofElement equippedRoot = .ok system ∧ plan system {} = .ok plans ∧
      plans.map (fun p => (p.frames.length, p.commits)) = [(4, 0), (2, 0), (8, 4), (4, 2)] ∧
      ∀ p ∈ plans, ∀ f ∈ p.frames, Frame.decode f.encode = .ok f ∧
        f.command ∈ p.stage.commands ∧ Command.HasSize f.command f.payload.length := by
  obtain ⟨system, plans, hread, hplan, hcounted⟩ := plan_equipped
  refine ⟨system, plans, hread, hplan, hcounted, fun p hp f hf => ?_⟩
  obtain ⟨-, -, hdecode, hcommand, hsize, -⟩ := plan_wellFormed hread hplan p hp f hf
  exact ⟨hdecode, hcommand, hsize⟩

end

end Provision
end MotionRack
