import MotionRack.Device.Joystick
import MotionRack.Proofs.Config.Collision
import MotionRack.Proofs.Device.Commit
import MotionRack.Proofs.Success

/-!
# Joysticks that were read

Inputs are of a fixed size. An output has as many bytes as it has colours, and one that was
read has three of them. So the joysticks of a rack can always be compiled.
-/
namespace MotionRack

theorem InMap.length_payload (m : InMap) (port : UInt8) : (m.payload port).length = 21 := by
  simp [payload, Dispatcher.bytes]

theorem OutMap.length_payload (m : OutMap) (port : UInt8) :
    (m.payload port).length = 12 + m.colours.length := by
  simp [payload, Dispatcher.bytes]
  omega

/-- An output that was read has three colours, however many of them were declared. -/
theorem OutMap.length_colours {next : UInt8} {e : Element} {m : OutMap}
    (h : ofElement next e = .ok m) : m.colours.length = Colours.count := by
  unfold ofElement at h
  obtain ⟨control, _, h⟩ := bind_eq_ok.mp h
  obtain ⟨p, _, h⟩ := bind_eq_ok.mp h
  obtain rfl := pure_eq_ok.mp h
  rfl

namespace JoystickPort

/-- What holds of a port that was read: every output has three colours. -/
def Sound (p : JoystickPort) : Prop := ∀ m ∈ p.outMaps, m.colours.length = Colours.count

/-- What taking a child of a joystick does, by the name of the child. -/
theorem withControl_cases {s next : Controls} {c : Element} (h : withControl s c = .ok next) :
    (c.name = "InMap" ∧ ∃ m, InMap.ofElement s.nextIn c = .ok m ∧
      next = { s with inMaps := s.inMaps ++ [m], nextIn := m.control + 1 }) ∨
    (c.name = "OutMap" ∧ ∃ m, OutMap.ofElement s.nextOut c = .ok m ∧
      next = { s with outMaps := s.outMaps ++ [m], nextOut := m.control + 1 }) ∨
    (c.name ≠ "InMap" ∧ c.name ≠ "OutMap" ∧ next = s) := by
  unfold withControl at h
  split at h
  next hname =>
    obtain ⟨m, hm, h⟩ := bind_eq_ok.mp h
    exact Or.inl ⟨hname, m, hm, (pure_eq_ok.mp h).symm⟩
  next hin =>
    split at h
    next hname =>
      obtain ⟨m, hm, h⟩ := bind_eq_ok.mp h
      exact Or.inr (Or.inl ⟨hname, m, hm, (pure_eq_ok.mp h).symm⟩)
    next hout => exact Or.inr (Or.inr ⟨hin, hout, (Except.ok.inj h).symm⟩)

theorem withControl_eq_ok {s next : Controls} {c : Element} (h : withControl s c = .ok next)
    (hs : ∀ m ∈ s.outMaps, m.colours.length = Colours.count) :
    ∀ m ∈ next.outMaps, m.colours.length = Colours.count := by
  rcases withControl_cases h with ⟨-, m, -, rfl⟩ | ⟨-, m, hm, rfl⟩ | ⟨-, -, rfl⟩
  · exact hs
  · refine List.forall_mem_append.mpr ⟨hs, ?_⟩
    exact List.forall_mem_singleton.mpr (OutMap.length_colours hm)
  · exact hs

theorem sound_of_withJoystick {p q : JoystickPort} {e : Element}
    (h : p.withJoystick e = .ok q) : q.Sound := by
  unfold withJoystick at h
  obtain ⟨s, hfold, h⟩ := bind_eq_ok.mp h
  have hs : ∀ m ∈ s.outMaps, m.colours.length = Colours.count :=
    foldlM_induction (P := fun s => ∀ m ∈ s.outMaps, m.colours.length = Colours.count)
      hfold (List.forall_mem_nil _) fun _ _ _ hs hstep => withControl_eq_ok hstep hs
  dsimp only at h
  split at h
  next inMaps _ =>
    obtain ⟨_, _, h⟩ := bind_eq_ok.mp h
    split at h
    next outMaps hunique =>
      obtain rfl := pure_eq_ok.mp h
      rw [Sound, Collision.unique_eq_ok hunique]
      exact hs
    next => cases h
  next => cases h

theorem Sound.withChild {p q : JoystickPort} (hp : p.Sound) {c : Element}
    (h : p.withChild c = .ok q) : q.Sound := by
  unfold JoystickPort.withChild at h
  split at h
  next =>
    obtain rfl := Except.ok.inj h
    exact hp
  next =>
    split at h
    next => exact sound_of_withJoystick h
    next =>
      obtain rfl := Except.ok.inj h
      exact hp

theorem sound_of_ofElement {next : UInt8} {e : Element} {p : JoystickPort}
    (h : ofElement next e = .ok p) : p.Sound := by
  unfold ofElement at h
  obtain ⟨index, _, h⟩ := bind_eq_ok.mp h
  exact foldlM_induction h (List.forall_mem_nil _) fun _ _ _ hp hstep => hp.withChild hstep

theorem sound_of_ofElements {next : UInt8} {elements : List Element} {ports : List JoystickPort}
    (h : ofElements next elements = .ok ports) : ∀ p ∈ ports, p.Sound :=
  forall_of_numbered ofElements ofElement (fun _ p => p.index + 1) (fun _ => rfl)
    (fun _ _ _ => rfl) (fun _ _ _ => sound_of_ofElement) h

theorem Sound.checked_frames {p : JoystickPort} (h : p.Sound) : ∀ f ∈ p.frames, f.Checked := by
  unfold frames
  rw [List.forall_mem_append, List.forall_mem_map, List.forall_mem_map]
  refine ⟨fun m _ => ?_, fun m hm => ?_⟩
  · apply Frame.checked_carrying
    rw [InMap.length_payload]
    decide
  · apply Frame.checked_carrying
    rw [OutMap.length_payload, h m hm]
    decide

theorem Sound.checked_compile {p : JoystickPort} (h : p.Sound) (persist : Bool) :
    ∀ f ∈ p.compile persist, f.Checked := by
  unfold compile
  cases persist with
  | false => exact h.checked_frames
  | true =>
    refine List.forall_mem_append.mpr ⟨h.checked_frames, ?_⟩
    rw [List.forall_mem_cons, List.forall_mem_singleton]
    exact ⟨Frame.checked_commit .., Frame.checked_commit ..⟩

end JoystickPort

namespace Joysticks

/-- What holds of joysticks that were read. -/
def Sound (j : Joysticks) : Prop := ∀ p ∈ j.ports, p.Sound

theorem sound_of_ofElement {e : Element} {j : Joysticks} (h : ofElement e = .ok j) : j.Sound := by
  unfold ofElement at h
  obtain ⟨ports, hports, h⟩ := bind_eq_ok.mp h
  split at h
  next kept hkept =>
    obtain rfl := pure_eq_ok.mp h
    rw [Sound, Collision.unique_eq_ok hkept]
    exact JoystickPort.sound_of_ofElements hports
  next => cases h

/-- No two ports of a rack that was read have one number. -/
theorem pairwise_index_of_ofElement {e : Element} {j : Joysticks} (h : ofElement e = .ok j) :
    j.ports.Pairwise fun p q => p.index ≠ q.index := by
  unfold ofElement at h
  obtain ⟨ports, _, h⟩ := bind_eq_ok.mp h
  split at h
  next kept hkept =>
    obtain rfl := pure_eq_ok.mp h
    exact (Collision.pairwise_of_unique hkept).imp fun hapart => by
      simpa [JoystickPort.collides] using hapart
  next => cases h

theorem Sound.checked_compile {j : Joysticks} (h : j.Sound) (persist : Bool) :
    ∀ f ∈ j.compile persist, f.Checked := by
  intro f hf
  obtain ⟨p, hp, hf⟩ := List.mem_flatMap.mp hf
  exact (h p hp).checked_compile persist f hf

end Joysticks
end MotionRack
