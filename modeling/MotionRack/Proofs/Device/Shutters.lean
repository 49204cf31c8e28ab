import Mathlib.Data.List.Basic
import MotionRack.Device.Shutter
import MotionRack.Document.Reader
import MotionRack.Proofs.Device.Commit
import MotionRack.Proofs.Success

/-!
# Shutters that were read

A shutter that can be read gives one block of frames, which its own description, the slot and its
rank among the shutters of the group determine. A block is empty if the parameters of the shutter
are invalid, and the other blocks stay as they are then.
-/
namespace MotionRack

/-- Whether an attribute can be read as a number, and which, depends on its text only. -/
theorem Attribute.toOption_u16?_congr {c d : Element} {key : String}
    (h : d.attr? key = c.attr? key) : (u16? d key).toOption = (u16? c key).toOption := by
  unfold u16? natural? natural text Element.hasAttr
  rw [h]
  cases c.attr? key with
  | none => rfl
  | some raw =>
    dsimp only [bind, Except.bind]
    cases Numeral.natOf? 16 raw <;> rfl

/-! ### Channels -/

namespace ShutterParams

theorem length_payload? {p : ShutterParams} {channel : UInt16} {payload : Octets}
    (h : p.payload? channel = some payload) : payload.length = 19 := by
  unfold payload? at h
  obtain ⟨ticks, _, h⟩ := Option.bind_eq_some_iff.mp h
  obtain rfl := Option.some.inj h
  simp

/-- The first word of a payload is its channel. -/
theorem channel_payload? {p : ShutterParams} {channel : UInt16} {payload : Octets}
    (h : p.payload? channel = some payload) :
    UInt16.ofNat (Octets.toNat (payload.take 2)) = channel := by
  unfold payload? at h
  obtain ⟨ticks, _, h⟩ := Option.bind_eq_some_iff.mp h
  obtain rfl := Option.some.inj h
  have hword : (Octets.ofNat 2 channel.toNat).length = 2 := Octets.length_ofNat 2 _
  simp only [List.append_assoc]
  rw [List.take_left' hword, Octets.uint16_ofNat_two]

/-- Whether the parameters of a shutter are invalid: one of them is missing or cannot be read, or
the on-time is a time, but too long for its byte. -/
def Invalid (c : Element) : Prop :=
  (∃ fault, ofElement c = .error fault) ∨ ∃ p, ofElement c = .ok p ∧ p.onTimeTicks? = none

end ShutterParams

namespace ShutterChannel

theorem params?_eq_none {c : Element} : params? c = none ↔ ShutterParams.Invalid c := by
  unfold params? ShutterParams.Invalid
  cases ShutterParams.ofElement c with
  | error fault => simp
  | ok p => cases hticks : p.onTimeTicks? <;> simp [hticks]

theorem params?_eq_some {c : Element} {p : ShutterParams} (h : params? c = some p) :
    ShutterParams.ofElement c = .ok p := by
  unfold params? at h
  split at h
  next p' hread =>
    split at h
    next => rw [hread, Option.some.inj h]
    next => cases h
  next => cases h

/-- A channel has one frame at most, with the payload that its parameters make. -/
theorem eq_of_mem_frames {s : ShutterChannel} {f : Frame} (h : f ∈ s.frames) :
    ∃ (p : ShutterParams) (payload : Octets), s.params = some p ∧
      p.payload? s.channel = some payload ∧
      f = .carrying Command.setShutterParams s.address payload := by
  unfold frames at h
  split at h
  next payload hpayload =>
    obtain ⟨p, hparams, hbytes⟩ := Option.bind_eq_some_iff.mp hpayload
    exact ⟨p, payload, hparams, hbytes, List.mem_singleton.mp h⟩
  next => cases h

/-- What the frame of a shutter is about: parameters of its channel, in its slot. -/
theorem target_of_mem_frames {s : ShutterChannel} {f : Frame} (h : f ∈ s.frames) :
    f.command = Command.setShutterParams ∧ f.destination = s.address ∧ f.channel = s.channel := by
  obtain ⟨p, payload, -, hpayload, rfl⟩ := eq_of_mem_frames h
  refine ⟨rfl, rfl, ?_⟩
  simp only [Frame.channel, Frame.command_carrying, if_true, Frame.payload_carrying]
  exact ShutterParams.channel_payload? hpayload

theorem plain_frames (s : ShutterChannel) : Commit.Plain s.frames := by
  intro f hf
  rw [(target_of_mem_frames hf).1]
  decide

theorem checked_compile (s : ShutterChannel) (persist : Bool) :
    ∀ f ∈ s.compile persist, f.Checked := by
  apply Commit.checked_append
  intro f hf
  obtain ⟨p, payload, -, hpayload, rfl⟩ := eq_of_mem_frames hf
  apply Frame.checked_carrying
  rw [ShutterParams.length_payload? hpayload]
  decide

theorem address_eq {s : ShutterChannel} (h : Address.IsSlotNumber s.slot) :
    s.address = slotAddress s.slot := by
  rw [address, Address.ofSlotNumber?, if_pos h]
  rfl

end ShutterChannel

/-! ### Groups -/

namespace FlipperGroup

/-- The channel of a shutter: the one that it names, or else its rank among the shutters of the
group, counted from zero, modulo 65536. -/
def channelAt (rank : Nat) (c : Element) : UInt16 :=
  (Attribute.u16? c "channel").toOption.join.getD (UInt16.ofNat rank)

/-- What a shutter is read as. -/
def shutterAt (slot : UInt16) (rank : Nat) (c : Element) : ShutterChannel :=
  ⟨slot, channelAt rank c, ShutterChannel.params? c⟩

/-- Whether a shutter can be read for a slot. Its parameters have no say in that. -/
structure Readable (slot : UInt16) (c : Element) : Prop where
  channel : ∃ named, Attribute.u16? c "channel" = .ok named
  version : c.attr? "version" = some FlipperGroup.version
  inRange : Address.IsSlotNumber slot

theorem Readable.congr {slot : UInt16} {c d : Element} (h : Readable slot c)
    (hchannel : d.attr? "channel" = c.attr? "channel")
    (hversion : d.attr? "version" = c.attr? "version") : Readable slot d := by
  obtain ⟨named, hnamed⟩ := h.channel
  refine ⟨⟨named, ?_⟩, hversion ▸ h.version, h.inRange⟩
  rw [← toOption_eq_some, Attribute.toOption_u16?_congr hchannel, hnamed]
  rfl

theorem channelAt_congr {c d : Element} (h : d.attr? "channel" = c.attr? "channel") (rank : Nat) :
    channelAt rank d = channelAt rank c := by
  rw [channelAt, Attribute.toOption_u16?_congr h, channelAt]

theorem shutter_eq_ok {slot : UInt16} {rank : Nat} {c : Element} {s : ShutterChannel} :
    shutter slot (UInt16.ofNat rank) c = .ok s ↔ Readable slot c ∧ s = shutterAt slot rank c := by
  unfold shutter
  constructor
  · intro h
    obtain ⟨named, hnamed, h⟩ := bind_eq_ok.mp h
    split at h
    next v hv =>
      split at h
      next hversion =>
        subst hversion
        unfold ShutterChannel.ofElement at h
        split at h
        next => cases h
        next hslot =>
          obtain rfl := Except.ok.inj h
          refine ⟨⟨⟨named, hnamed⟩, hv, not_not.mp hslot⟩, ?_⟩
          rw [shutterAt, channelAt, hnamed]
          rfl
      next => cases h
    next => cases h
  · rintro ⟨⟨⟨named, hnamed⟩, hversion, hslot⟩, rfl⟩
    rw [hnamed, hversion]
    dsimp only [bind, Except.bind]
    rw [if_pos rfl, ShutterChannel.ofElement, if_neg (not_not.mpr hslot), shutterAt, channelAt,
      hnamed]
    rfl

/-- Shutters are read one by one, and each has the channel of its rank unless it names one. -/
theorem shuttersFrom_eq_ok {slot : UInt16} {rank : Nat} {cs : List Element}
    {shutters : List ShutterChannel} :
    shuttersFrom slot (UInt16.ofNat rank) cs = .ok shutters ↔
      (∀ c ∈ cs, Readable slot c) ∧
        shutters = (cs.zipIdx rank).map fun p => shutterAt slot p.2 p.1 := by
  induction cs generalizing rank shutters with
  | nil => simp [shuttersFrom, eq_comm]
  | cons c cs ih =>
    have hnext : UInt16.ofNat rank + 1 = UInt16.ofNat (rank + 1) :=
      (UInt16.ofNat_add rank 1).symm
    rw [shuttersFrom, bind_eq_ok, List.forall_mem_cons, List.zipIdx_cons, List.map_cons]
    constructor
    · rintro ⟨s, hs, h⟩
      obtain ⟨rest, hrest, h⟩ := bind_eq_ok.mp h
      obtain rfl := pure_eq_ok.mp h
      rw [hnext] at hrest
      obtain ⟨hc, rfl⟩ := shutter_eq_ok.mp hs
      obtain ⟨hcs, rfl⟩ := ih.mp hrest
      exact ⟨⟨hc, hcs⟩, rfl⟩
    · rintro ⟨⟨hc, hcs⟩, rfl⟩
      refine ⟨_, shutter_eq_ok.mpr ⟨hc, rfl⟩, bind_eq_ok.mpr ⟨_, ?_, rfl⟩⟩
      rw [hnext]
      exact ih.mpr ⟨hcs, rfl⟩

theorem ofElement_eq_ok {e : Element} {slot : UInt16} {g : FlipperGroup} :
    ofElement e slot = .ok g ↔ (∀ c ∈ e.childrenNamed "Shutter", Readable slot c) ∧
      g = ⟨slot, (e.childrenNamed "Shutter").zipIdx.map fun p => shutterAt slot p.2 p.1⟩ := by
  have hzero : (0 : UInt16) = UInt16.ofNat 0 := rfl
  rw [ofElement, hzero, bind_eq_ok]
  constructor
  · rintro ⟨shutters, hshutters, h⟩
    obtain rfl := pure_eq_ok.mp h
    obtain ⟨hreadable, rfl⟩ := shuttersFrom_eq_ok.mp hshutters
    exact ⟨hreadable, rfl⟩
  · rintro ⟨hreadable, rfl⟩
    exact ⟨_, shuttersFrom_eq_ok.mpr ⟨hreadable, rfl⟩, rfl⟩

/-! ### Blocks -/

/-- The frames of a shutter at a rank: one with its parameters if they are valid, and behind it, if
they are to be kept, the commit for it. -/
def block (persist : Bool) (slot : UInt16) (rank : Nat) (c : Element) : List Frame :=
  match (ShutterChannel.params? c).bind (·.payload? (channelAt rank c)) with
  | some payload =>
    .carrying Command.setShutterParams (slotAddress slot) payload ::
      if persist then [.commit (slotAddress slot) (channelAt rank c) Command.setShutterParams]
      else []
  | none => []

/-- The blocks of shutters one after the other; the first shutter is at `rank`. -/
def blocks (persist : Bool) (slot : UInt16) (rank : Nat) (cs : List Element) : List Frame :=
  (cs.zipIdx rank).flatMap fun p => block persist slot p.2 p.1

theorem compile_shutterAt {slot : UInt16} (h : Address.IsSlotNumber slot) (persist : Bool)
    (rank : Nat) (c : Element) :
    (shutterAt slot rank c).compile persist = block persist slot rank c := by
  have haddress : (shutterAt slot rank c).address = slotAddress slot := ShutterChannel.address_eq h
  rw [ShutterChannel.compile, ShutterChannel.frames, ShutterChannel.target, haddress, block]
  dsimp only [shutterAt]
  cases (ShutterChannel.params? c).bind (·.payload? (channelAt rank c)) with
  | none => cases persist <;> rfl
  | some payload => cases persist <;> rfl

/-- A block is empty, or it is a frame with the channel of the shutter and what commits it. -/
theorem block_cases (persist : Bool) (slot : UInt16) (rank : Nat) (c : Element) :
    block persist slot rank c = [] ∨
      ∃ payload : Octets, payload.length = 19 ∧
        UInt16.ofNat (Octets.toNat (payload.take 2)) = channelAt rank c ∧
        block persist slot rank c =
          .carrying Command.setShutterParams (slotAddress slot) payload ::
            if persist then
              [.commit (slotAddress slot) (channelAt rank c) Command.setShutterParams]
            else [] := by
  unfold block
  split
  next payload hpayload =>
    obtain ⟨p, _, hbytes⟩ := Option.bind_eq_some_iff.mp hpayload
    exact Or.inr ⟨payload, ShutterParams.length_payload? hbytes,
      ShutterParams.channel_payload? hbytes, rfl⟩
  next => exact Or.inl rfl

theorem block_of_invalid {c : Element} (h : ShutterParams.Invalid c) (persist : Bool)
    (slot : UInt16) (rank : Nat) : block persist slot rank c = [] := by
  rw [block, ShutterChannel.params?_eq_none.mpr h]
  rfl

theorem blocks_append (persist : Bool) (slot : UInt16) (rank : Nat) (cs ds : List Element) :
    blocks persist slot rank (cs ++ ds) =
      blocks persist slot rank cs ++ blocks persist slot (rank + cs.length) ds := by
  rw [blocks, List.zipIdx_append, List.flatMap_append]
  rfl

theorem blocks_cons (persist : Bool) (slot : UInt16) (rank : Nat) (c : Element)
    (cs : List Element) :
    blocks persist slot rank (c :: cs) =
      block persist slot rank c ++ blocks persist slot (rank + 1) cs := by
  rw [blocks, List.zipIdx_cons, List.flatMap_cons]
  rfl

/-- The frames of a group are the blocks of its shutters, in order. -/
theorem compile_eq_blocks {e : Element} {slot : UInt16} {g : FlipperGroup}
    (h : ofElement e slot = .ok g) (persist : Bool) :
    g.compile persist = blocks persist slot 0 (e.childrenNamed "Shutter") := by
  obtain ⟨hreadable, rfl⟩ := ofElement_eq_ok.mp h
  rw [compile, List.flatMap_map, blocks]
  refine List.flatMap_congr fun p hp => ?_
  have hmem : p.1 ∈ e.childrenNamed "Shutter" := List.fst_mem_of_mem_zipIdx hp
  exact compile_shutterAt (hreadable p.1 hmem).inRange persist p.2 p.1

section

open Document (unplaced)

/-- A shutter whose solenoid is switched on for a time. -/
def pulsedFor (onTime : String) (attributes : List (String × String)) : Element :=
  let setting (name value : String) : Element := unplaced name [("value", value)] []
  unplaced "Shutter" (("version", "0") :: attributes)
    [setting "PowerUpPosition" "CLOSED", setting "TriggerMode" "DISABLED", setting "Type" "PULSED",
     setting "OnTimeSeconds" onTime, setting "PulseVoltage" "12", setting "HoldVoltage" "0"]

/-- Three shutters, the second of which has an on-time of its own. -/
def threeShutters (onTime : String) : Element :=
  unplaced "FlipperShutterParameters" []
    [pulsedFor "0.02" [("channel", "5")], unplaced "Mirror" [] [], pulsedFor onTime [],
     pulsedFor "0.02" []]

end

end FlipperGroup
end MotionRack
