import MotionRack.Proofs.Provision.Delivery
import MotionRack.Proofs.Provision.Wire

/-!
# One stream of bytes

Frames travel back to back, with nothing between them to tell where one ends. The stream tells
them apart all the same: it can be cut into byte forms of frames in one way only, so a receiver
that cuts what a rack is sent finds the planned frames. Nothing is said about a stream that is
broken off within a frame.
-/
namespace MotionRack

namespace Frame

variable {fs : List Frame}

theorem mapM_decode_encode (h : ∀ f ∈ fs, f.Canonical) : (fs.map encode).mapM decode = .ok fs := by
  induction fs with
  | nil => rfl
  | cons f fs ih =>
    obtain ⟨hf, hrest⟩ := List.forall_mem_cons.mp h
    rw [List.map_cons, List.mapM_cons, hf.decode_encode, ih hrest]
    rfl

/-- However a stream of frames is cut into pieces that are read as frames, they are read as the
frames that were sent. -/
theorem mapM_decode_of_flatten_eq (h : ∀ f ∈ fs, f.Canonical) {pieces : List Octets}
    (hpieces : ∀ piece ∈ pieces, ∃ f, decode piece = .ok f)
    (hstream : pieces.flatten = (fs.map encode).flatten) : pieces.mapM decode = .ok fs := by
  have hread : ∀ piece ∈ pieces, HasFormat piece := by
    intro piece hpiece
    obtain ⟨f, hf⟩ := hpieces piece hpiece
    exact (hasFormat_of_decode hf).1
  have hsent : ∀ piece ∈ fs.map encode, HasFormat piece :=
    List.forall_mem_map.mpr fun f hf => hasFormat_encode (h f hf).payload
  have hsame : pieces = fs.map encode :=
    eq_of_flatten_eq (fun _ hword => hword.ne_nil) (fun _ _ hv hw => hv.eq_of_isPrefix hw)
      hread hsent hstream
  rw [hsame, mapM_decode_encode h]

end Frame

namespace Provision

theorem canonical_of_plan {root : Element} {system : RackSystem}
    (h : RackSystem.ofElement root = .ok system) {o : ProvisionOptions} {plans : List StagePlan}
    (hplan : plan system o = .ok plans) : ∀ f ∈ plans.flatMap (·.frames), f.Canonical := by
  intro f hf
  obtain ⟨p, hp, hf⟩ := List.mem_flatMap.mp hf
  obtain ⟨-, hcompile⟩ := compile_of_mem_plan hplan hp
  exact StagePlan.canonical_of_compile (RackSystem.sound_of_ofElement h) hcompile f hf

/-- A stream of bytes determines the frames in it. No byte form of a canonical frame is the
beginning of another; two lists of canonical frames whose byte forms make up the same stream are
equal; and whoever cuts the stream of a plan into pieces that are all read as frames reads the
frames of the plan, in order. -/
theorem stream_determines_frames :
    (∀ f g : Frame, f.Canonical → g.Canonical → f.encode <+: g.encode → f = g) ∧
    (∀ fs gs : List Frame, (∀ f ∈ fs, f.Canonical) → (∀ g ∈ gs, g.Canonical) →
      fs.flatMap Frame.encode = gs.flatMap Frame.encode → fs = gs) ∧
    ∀ root system o plans, RackSystem.ofElement root = .ok system → plan system o = .ok plans →
      ∀ pieces : List Octets, (∀ piece ∈ pieces, ∃ f, Frame.decode piece = .ok f) →
        pieces.flatten = (stream plans).flatten →
        pieces.mapM Frame.decode = .ok (plans.flatMap (·.frames)) := by
  refine ⟨fun f g hf hg h => hf.eq_of_isPrefix hg h, fun fs gs hfs hgs h => ?_, ?_⟩
  · rw [List.flatMap_def, List.flatMap_def] at h
    have hpieces : ∀ piece ∈ fs.map Frame.encode, ∃ f, Frame.decode piece = .ok f :=
      List.forall_mem_map.mpr fun f hf => ⟨f, (hfs f hf).decode_encode⟩
    have hread := Frame.mapM_decode_of_flatten_eq hgs hpieces h
    rw [Frame.mapM_decode_encode hfs] at hread
    exact Except.ok.inj hread
  · intro root system o plans hread hplan pieces hpieces hstream
    exact Frame.mapM_decode_of_flatten_eq (canonical_of_plan hread hplan) hpieces hstream

/-- The stream of the small rack, cut where its frames end. -/
def smallPieces : List Octets :=
  [[0x04, 0x40, 0x04, 0x00, 0x91, 0x01, 0x02, 0x00, 0x05, 0x00],
   [0xF5, 0x40, 0x03, 0x00, 0x91, 0x01, 0x02, 0x00, 0x01],
   [0xF2, 0x40, 0x06, 0x00, 0x91, 0x01, 0x02, 0x00, 0xFF, 0xFF, 0xFF, 0xFF],
   [0x08, 0x40, 0x0A, 0x00, 0x91, 0x01, 0x0F, 0x00, 0x00, 0x00, 0x00, 0x00, 0x00, 0x00, 0xFF, 0xFF]]

/-- A frame without a payload before one with, told apart, and the pieces of the small rack. -/
theorem stream_determines_frames_small :
    [Frame.restart, Frame.commit (.slot 2) 0 Command.setStageParams] =
      [⟨0x400B, .motherboard, .host, .short 1 0⟩,
       ⟨0x04B9, .slot 2, .host, .long [0x00, 0x00, 0x41, 0x40]⟩] ∧
    ∃ plans, plan smallRack {} = .ok plans ∧
      smallPieces.mapM Frame.decode = .ok (plans.flatMap (·.frames)) := by
  obtain ⟨-, hlists, hcut⟩ := stream_determines_frames
  have hread : RackSystem.ofElement smallRoot = .ok smallRack := rfl
  have hplan : ∃ plans, plan smallRack {} = .ok plans ∧ stream plans = smallPieces :=
    ⟨_, rfl, rfl⟩
  obtain ⟨plans, hplan, hstream⟩ := hplan
  have hpieces : ∀ piece ∈ smallPieces, ∃ f, Frame.decode piece = .ok f := by
    simp only [smallPieces, List.forall_mem_cons]
    exact ⟨⟨_, rfl⟩, ⟨_, rfl⟩, ⟨_, rfl⟩, ⟨_, rfl⟩, List.forall_mem_nil _⟩
  refine ⟨hlists _ _ (by decide) (by decide) (by decide), plans, hplan, ?_⟩
  exact hcut smallRoot smallRack {} plans hread hplan smallPieces hpieces (by rw [hstream])

end Provision
end MotionRack
