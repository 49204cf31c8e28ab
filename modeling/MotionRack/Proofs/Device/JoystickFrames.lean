import MotionRack.Proofs.Bus.Frame
import MotionRack.Proofs.Device.Joystick

/-!
# Joystick frames that are read back

The controller is told every mapping of a port in a frame of its own. The payload of an input has
room for everything that is known of it, so an input is read back as it was. That of an output has
one byte for its mode and for each of its three colours, and what is above that byte is lost. Ports
that were put together by hand may have any mappings; nothing here depends on how they were read.
-/
namespace MotionRack

namespace InMap

/-- Reads a port and an input on it. The last byte must be zero, which enables the control. -/
def ofPayload? (payload : Octets) : Option (UInt8 × InMap) :=
  match payload with
  | [port, control, v0, v1, p0, p1, targetPort, t0, t1, slots, bit, toPort, virtual_,
      speed, reverse, deadband, m0, m1, m2, m3, enabled] =>
    if enabled = 0 then
      some (port, {
        control := control
        vid := UInt16.ofNat (Octets.toNat [v0, v1])
        pid := UInt16.ofNat (Octets.toNat [p0, p1])
        target := ⟨targetPort, UInt16.ofNat (Octets.toNat [t0, t1])⟩
        destination := ⟨slots, bit, toPort, virtual_⟩
        speed := speed
        reverse := reverse
        deadband := deadband
        mode := UInt32.ofNat (Octets.toNat [m0, m1, m2, m3]) })
    else none
  | _ => none

theorem ofPayload?_payload (m : InMap) (port : UInt8) :
    ofPayload? (m.payload port) = some (port, m) := by
  have hvid := Octets.uint16_ofNat_two m.vid
  have hpid := Octets.uint16_ofNat_two m.pid
  have htarget := Octets.uint16_ofNat_two m.target.control
  have hmode := Octets.uint32_ofNat_four m.mode
  have hread : ofPayload? (m.payload port) = some (port, { m with
      vid := UInt16.ofNat (Octets.toNat (Octets.ofNat 2 m.vid.toNat))
      pid := UInt16.ofNat (Octets.toNat (Octets.ofNat 2 m.pid.toNat))
      target.control := UInt16.ofNat (Octets.toNat (Octets.ofNat 2 m.target.control.toNat))
      mode := UInt32.ofNat (Octets.toNat (Octets.ofNat 4 m.mode.toNat)) }) :=
    rfl
  rw [hread, hvid, hpid, htarget, hmode]

/-- Nothing of an input is lost in its payload. -/
theorem payload_inj {m n : InMap} {i j : UInt8} :
    m.payload i = n.payload j ↔ i = j ∧ m = n := by
  constructor
  · intro h
    have hread := ofPayload?_payload m i
    rw [h, ofPayload?_payload] at hread
    obtain ⟨rfl, rfl⟩ := Prod.mk.inj (Option.some.inj hread)
    exact ⟨rfl, rfl⟩
  · rintro ⟨rfl, rfl⟩
    rfl

end InMap

namespace OutMap

/-- What there is room for in the payload of an output. -/
def kept (m : OutMap) : OutMap :=
  { m with ledMode := m.ledMode % 256, colours := m.colours.map (· % 256) }

/-- Reads a port and an output on it. -/
def ofPayload? (payload : Octets) : Option (UInt8 × OutMap) :=
  match payload with
  | [port, control, usage, v0, v1, p0, p1, led, first, second, third, slots, bit, ofPort,
      virtual_] =>
    some (port, {
      control := control
      usage := usage
      vid := UInt16.ofNat (Octets.toNat [v0, v1])
      pid := UInt16.ofNat (Octets.toNat [p0, p1])
      ledMode := led.toUInt32
      colours := [first.toUInt32, second.toUInt32, third.toUInt32]
      source := ⟨slots, bit, ofPort, virtual_⟩ })
  | _ => none

variable {m n : OutMap}

theorem ofPayload?_payload (h : m.colours.length = Colours.count) (port : UInt8) :
    ofPayload? (m.payload port) = some (port, m.kept) := by
  obtain ⟨control, usage, vid, pid, ledMode, colours, source⟩ := m
  obtain ⟨first, second, third, rfl⟩ := List.length_eq_three.mp h
  have hread : ofPayload? (payload ⟨control, usage, vid, pid, ledMode, [first, second, third],
        source⟩ port) = some (port, {
      control := control
      usage := usage
      vid := UInt16.ofNat (Octets.toNat (Octets.ofNat 2 vid.toNat))
      pid := UInt16.ofNat (Octets.toNat (Octets.ofNat 2 pid.toNat))
      ledMode := ledMode.toUInt8.toUInt32
      colours := [first, second, third].map (·.toUInt8.toUInt32)
      source := source }) :=
    rfl
  rw [hread, Octets.uint16_ofNat_two, Octets.uint16_ofNat_two]
  simp only [UInt32.toUInt32_toUInt8]
  rfl

theorem payload_kept (m : OutMap) (port : UInt8) : m.kept.payload port = m.payload port := by
  have hbyte : ∀ v : UInt32, (v % 256).toUInt8 = v.toUInt8 := by
    intro v
    rw [← UInt32.toUInt32_toUInt8, UInt8.toUInt8_toUInt32]
  simp only [payload, kept, List.map_map, hbyte]
  congr 3
  exact funext fun v => hbyte v

/-- The payloads of two outputs are equal exactly if what is kept of them is. -/
theorem payload_eq_iff (hm : m.colours.length = Colours.count)
    (hn : n.colours.length = Colours.count) {i j : UInt8} :
    m.payload i = n.payload j ↔ i = j ∧ m.kept = n.kept := by
  constructor
  · intro h
    have hread := ofPayload?_payload hm i
    rw [h, ofPayload?_payload hn] at hread
    obtain ⟨hport, hkept⟩ := Prod.mk.inj (Option.some.inj hread)
    exact ⟨hport.symm, hkept.symm⟩
  · rintro ⟨rfl, hkept⟩
    rw [← payload_kept m, hkept, payload_kept]

end OutMap

/-- What the controller is told about a control of the joystick on a port. -/
inductive JoystickNotice
  | input (port : UInt8) (m : InMap)
  | output (port : UInt8) (m : OutMap)
  deriving DecidableEq, Repr

namespace JoystickNotice

def ofPayload? (command : CommandId) (payload : Octets) : Option JoystickNotice :=
  if command = Command.setJoystickMapIn then
    (InMap.ofPayload? payload).map fun told => .input told.1 told.2
  else if command = Command.setJoystickMapOut then
    (OutMap.ofPayload? payload).map fun told => .output told.1 told.2
  else none

/-- Reads a notice from the byte form of a frame to the controller. -/
def ofBytes? (bytes : Octets) : Option JoystickNotice :=
  match Frame.decode bytes with
  | .ok f =>
    if f.destination = .motherboard ∧ f.isExtended then ofPayload? f.command f.payload else none
  | .error _ => none

theorem ofBytes?_encode {command : CommandId} {payload : Octets}
    (h : payload.length ≤ maxPayload) :
    ofBytes? (Frame.carrying command .motherboard payload).encode = ofPayload? command payload :=
  Frame.told?_encode_carrying h

theorem read_input (m : InMap) (port : UInt8) :
    ofBytes? (Frame.carrying Command.setJoystickMapIn .motherboard (m.payload port)).encode =
      some (.input port m) := by
  have hfits : (m.payload port).length ≤ maxPayload := by
    rw [InMap.length_payload]
    decide
  rw [ofBytes?_encode hfits, ofPayload?, if_pos rfl, InMap.ofPayload?_payload]
  rfl

theorem read_output {m : OutMap} (h : m.colours.length = Colours.count) (port : UInt8) :
    ofBytes? (Frame.carrying Command.setJoystickMapOut .motherboard (m.payload port)).encode =
      some (.output port m.kept) := by
  have hfits : (m.payload port).length ≤ maxPayload := by
    rw [OutMap.length_payload, h]
    decide
  rw [ofBytes?_encode hfits, ofPayload?, if_neg (by decide), if_pos rfl,
    OutMap.ofPayload?_payload h]
  rfl

end JoystickNotice

namespace JoystickPort

variable {p : JoystickPort}

theorem notices_of_frames (h : p.Sound) :
    p.frames.map (fun f => JoystickNotice.ofBytes? f.encode) =
      p.inMaps.map (fun m => some (.input p.index m)) ++
      p.outMaps.map (fun m => some (.output p.index m.kept)) := by
  rw [frames, List.map_append, List.map_map, List.map_map]
  exact congrArg₂ (· ++ ·)
    (List.map_congr_left fun m _ => JoystickNotice.read_input m p.index)
    (List.map_congr_left fun m hm => JoystickNotice.read_output (h m hm) p.index)

theorem commands_of_frames (p : JoystickPort) :
    p.frames.map (fun f => (f.command, f.destination)) =
      p.inMaps.map (fun _ => (Command.setJoystickMapIn, .motherboard)) ++
      p.outMaps.map (fun _ => (Command.setJoystickMapOut, .motherboard)) := by
  rw [frames, List.map_append, List.map_map, List.map_map]
  rfl

/-- Whatever the number of a port and its mappings are, the inputs and then the outputs are told to
the controller in order, one in a frame. None of the frames is too long. Their byte forms are read
back as the port's number with every input as it is, and every output with its mode and its
colours modulo 256; all colours are there, because an output has three of them. So the payloads of
two inputs of a port differ if the inputs do, and those of two outputs do unless the outputs are
equal modulo 256 in these places and equal elsewhere. -/
theorem map_frames_read_back (p : JoystickPort) (h : p.Sound) :
    (∀ f ∈ p.frames, f.Checked) ∧
    p.frames.map (fun f => (f.command, f.destination)) =
      p.inMaps.map (fun _ => (Command.setJoystickMapIn, .motherboard)) ++
      p.outMaps.map (fun _ => (Command.setJoystickMapOut, .motherboard)) ∧
    p.frames.map (fun f => JoystickNotice.ofBytes? f.encode) =
      p.inMaps.map (fun m => some (.input p.index m)) ++
      p.outMaps.map (fun m => some (.output p.index m.kept)) ∧
    (∀ m ∈ p.inMaps, ∀ n ∈ p.inMaps, m.payload p.index = n.payload p.index ↔ m = n) ∧
    ∀ m ∈ p.outMaps, ∀ n ∈ p.outMaps, m.payload p.index = n.payload p.index ↔ m.kept = n.kept := by
  refine ⟨h.checked_frames, commands_of_frames p, notices_of_frames h, ?_, ?_⟩
  · intro m _ n _
    rw [InMap.payload_inj, and_iff_right rfl]
  · intro m hm n hn
    rw [OutMap.payload_eq_iff (h m hm) (h n hn), and_iff_right rfl]

/-- A port with two inputs that differ in the last byte of their modes, and an output whose mode and
colours have more than one byte. -/
def wideJoystick : JoystickPort where
  index := 255
  inMaps := [
    { control := 7, vid := 0x046D, pid := 0xC215, target := ⟨1, 0x0203⟩,
      destination := ⟨0x81, 2, 3, 4⟩, speed := 5, reverse := 6, deadband := 8, mode := 0x01000000 },
    { control := 7, vid := 0x046D, pid := 0xC215, target := ⟨1, 0x0203⟩,
      destination := ⟨0x81, 2, 3, 4⟩, speed := 5, reverse := 6, deadband := 8 }]
  outMaps := [
    { control := 9, usage := 1, vid := 0x046D, pid := 0xC215, ledMode := 0x0102,
      colours := [0x0304, 5, 0x060700], source := ⟨8, 9, 10, 11⟩ }]

theorem map_frames_read_back_wideJoystick : wideJoystick.Sound ∧
    wideJoystick.frames.map (fun f => JoystickNotice.ofBytes? f.encode) =
      wideJoystick.inMaps.map (fun m => some (.input 255 m)) ++
      [some (.output 255 {
        control := 9, usage := 1, vid := 0x046D, pid := 0xC215, ledMode := 2,
        colours := [4, 5, 0], source := ⟨8, 9, 10, 11⟩ })] := by
  have hsound : wideJoystick.Sound := by
    unfold JoystickPort.Sound
    decide
  obtain ⟨-, -, hread, -⟩ := map_frames_read_back wideJoystick hsound
  exact ⟨hsound, hread⟩

end JoystickPort
end MotionRack
