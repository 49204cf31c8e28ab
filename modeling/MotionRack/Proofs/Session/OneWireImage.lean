import MotionRack.Proofs.Session.OneWireTrace
import MotionRack.Proofs.Success

/-!
# What a chip receives of an image

The fragments of a chip session are the frames of the blocks of its image, in order. All of them are
written into one buffer: no write leaves it, and every length that is written fits its field. A
session that goes through has sent the whole image.
-/
namespace MotionRack.OneWire

/-- The size word of the answer to the size request. -/
def reportedSize? (reply : Option Octets) : Option Nat :=
  (Answer.data? reply).bind (Answer.word? 2 · 0)

/-- The fragments that a link was handed between two of its states. -/
def fragmentsBetween (b b' : Bench) : List Transfer :=
  (b'.sent.drop b.sent.length).filter (·.fragment)

theorem reportedChunk?_eq {reply : Option Octets} {size : Nat}
    (h : reportedSize? reply = some size) (hpos : 1 ≤ size) :
    reportedChunk? reply = some (min size 65527) := by
  obtain ⟨data, hdata, hword⟩ := Option.bind_eq_some_iff.mp h
  rw [reportedChunk?, hdata]
  rcases data with _ | ⟨b0, _ | ⟨b1, rest⟩⟩
  · cases hword
  · cases hword
  · obtain rfl : Octets.toNat [b0, b1] = size := by
      rw [Answer.word?, if_pos (by rw [List.length_cons, List.length_cons]; omega)] at hword
      exact Option.some.inj hword
    have hne : min (Octets.toNat [b0, b1]) 65527 ≠ 0 := by omega
    simp only [if_neg hne]

/-! ### The buffer with its bounds

The same writes, each of which fails where it would leave the buffer, and each length where it does
not fit its field. -/

/-- A write that has to lie within its buffer. -/
def overwrite? (buffer : Octets) (start : Nat) (bytes : Octets) : Option Octets :=
  if start + bytes.length ≤ buffer.length then some (buffer.overwrite start bytes) else none

/-- A length field, which has to hold its number. -/
def lengthField? (n : Nat) : Option Octets :=
  if n < 65536 then some (Octets.ofNat 2 n) else none

/-- The buffer before the first piece. Its frame must not be too long. -/
def buffer? (slot : UInt8) (chunk : Nat) : Option Octets := do
  let f ← (Frame.long Command.programOneWire .motherboard
    (List.replicate (lead + chunk) 0)).toOption
  overwrite? f.encode Frame.headerLength [slot]

/-- The buffer with a piece in it. -/
def fill? (buffer piece : Octets) : Option Octets := do
  let field ← lengthField? (lead + piece.length)
  let buffer ← overwrite? buffer 2 field
  overwrite? buffer (Frame.headerLength + lead) piece

/-- The requests for the pieces, each of which must not ask for more than the buffer holds. -/
def sendPieces? (buffer : Octets) : List Octets → Option (List Request)
  | [] => some []
  | piece :: rest => do
    let filled ← fill? buffer piece
    let length := Frame.headerLength + lead + piece.length
    if length ≤ filled.length then
      return .fragment filled length :: (← sendPieces? filled rest)
    else none

/-- The requests that send the image. -/
def sendImage? (slot : UInt8) (data : Octets) (chunk : Nat) : Option (List Request) := do
  sendPieces? (← buffer? slot chunk) (data.pieces chunk)

theorem overwrite?_eq {buffer bytes : Octets} {start : Nat}
    (h : start + bytes.length ≤ buffer.length) :
    overwrite? buffer start bytes = some (buffer.overwrite start bytes) :=
  if_pos h

theorem buffer?_eq (slot : UInt8) {chunk : Nat} (hc : chunk ≤ maxPayload - lead) :
    buffer? slot chunk = some (buffer slot chunk) := by
  have hbound : chunk ≤ 65527 := hc
  have hlong : Frame.long Command.programOneWire .motherboard (List.replicate (lead + chunk) 0) =
      .ok (Frame.carrying Command.programOneWire .motherboard
        (List.replicate (lead + chunk) 0)) := by
    refine if_neg ?_
    rw [List.length_replicate, lead, show maxPayload = 65529 from rfl]
    omega
  have hroom : Frame.headerLength + [slot].length ≤
      (Frame.carrying Command.programOneWire .motherboard
        (List.replicate (lead + chunk) 0)).encode.length := by
    rw [encode_carrying]
    simp only [commandBytes, Frame.headerLength, lead, List.length_append, Octets.length_ofNat,
      List.length_cons, List.length_nil, List.length_replicate]
    omega
  rw [buffer?, hlong]
  exact overwrite?_eq hroom

theorem fill?_eq {slot : UInt8} {chunk : Nat} {buffer piece : Octets}
    (hb : Ready slot chunk buffer) (hp : piece.length ≤ chunk) (hc : chunk ≤ maxPayload - lead) :
    fill? buffer piece = some (fill buffer piece) := by
  have hbound : chunk ≤ 65527 := hc
  have hlen : buffer.length = 8 + chunk := length_of_ready hb
  have hfits : lead + piece.length < 65536 := by
    rw [lead]
    omega
  have hfield : 2 + (Octets.ofNat 2 (lead + piece.length)).length ≤ buffer.length := by
    rw [Octets.length_ofNat]
    omega
  have hpiece : Frame.headerLength + lead + piece.length ≤
      (buffer.overwrite 2 (Octets.ofNat 2 (lead + piece.length))).length := by
    rw [Octets.length_overwrite hfield, hlen, Frame.headerLength, lead]
    omega
  rw [fill?, lengthField?, if_pos hfits, Option.bind_eq_bind, Option.bind_some,
    overwrite?_eq hfield, Option.bind_some, overwrite?_eq hpiece, fill]

/-- The invariant of the buffer gives every bound, and carries over from piece to piece. -/
theorem sendPieces?_eq {slot : UInt8} {chunk : Nat} (hc : chunk ≤ maxPayload - lead)
    {buffer : Octets} (hb : Ready slot chunk buffer) {pieces : List Octets}
    (hp : ∀ piece ∈ pieces, piece.length ≤ chunk) :
    sendPieces? buffer pieces = some ((sendPieces buffer pieces).map (·.request)) := by
  induction pieces generalizing buffer with
  | nil => rfl
  | cons piece rest ih =>
    obtain ⟨hpiece, hrest⟩ := List.forall_mem_cons.mp hp
    have hroom : Frame.headerLength + lead + piece.length ≤ (fill buffer piece).length := by
      rw [length_of_ready (ready_fill hb hpiece)]
      omega
    rw [sendPieces?, fill?_eq hb hpiece hc, Option.bind_eq_bind, Option.bind_some]
    simp only [if_pos hroom, ih (ready_fill hb hpiece) hrest]
    rfl

theorem sendImage?_eq (slot : UInt8) (data : Octets) {chunk : Nat}
    (hc : chunk ≤ maxPayload - lead) :
    sendImage? slot data chunk = some ((sendImage slot data chunk).map (·.request)) := by
  rw [sendImage?, buffer?_eq slot hc]
  exact sendPieces?_eq hc (ready_buffer slot chunk) fun _ => Octets.length_of_mem_pieces

/-! ### The fragments of a session -/

theorem filter_fragment_sequence (slot : UInt8) (data : Octets) (chunk : Nat) :
    (sequence slot data (some chunk)).filter (·.fragment) =
      (data.blocks chunk).map (fragment slot) := by
  have hpieces : ((data.blocks chunk).map (fragment slot)).filter (·.fragment) =
      (data.blocks chunk).map (fragment slot) := by
    refine List.filter_eq_self.mpr fun t ht => ?_
    obtain ⟨piece, -, rfl⟩ := List.mem_map.mp ht
    rfl
  rw [sequence, List.filter_append, List.filter_append, hpieces]
  exact List.append_nil _

/-- A recovery hands no fragment to the link. -/
theorem Recovered.sent_eq {slot : UInt8} {mid b : Bench} {step : Nat}
    (h : Recovered slot mid step b) :
    ∃ more, b.sent = mid.sent ++ more ∧ more.filter (·.fragment) = [] := by
  have hleave : ∀ k, (List.replicate k (leaveRequest slot).whole).filter (·.fragment) = [] := by
    intro k
    refine List.filter_eq_nil_iff.mpr fun t ht => ?_
    rw [List.eq_of_mem_replicate ht]
    exact Bool.false_ne_true
  cases h with
  | unneeded => exact ⟨[], (List.append_nil _).symm, rfl⟩
  | answered => exact ⟨_, rfl, hleave _⟩
  | unanswered =>
    refine ⟨_, List.append_assoc _ _ _, ?_⟩
    rw [List.filter_append, hleave]
    rfl
  | restarted => exact ⟨_, rfl, rfl⟩

theorem fragmentsBetween_eq {b b' : Bench} {made more : List Transfer}
    (hsent : b'.sent = b.sent ++ made ++ more) (hmore : more.filter (·.fragment) = []) :
    fragmentsBetween b b' = made.filter (·.fragment) := by
  rw [fragmentsBetween, hsent, List.append_assoc, List.drop_left' rfl, List.filter_append, hmore,
    List.append_nil]

/-- The fragments of a session are those of the first pieces of its image. -/
theorem fragments_prefix (cancelled : Bench → Bool) {p : Programmer Bench} (slot : UInt8)
    (data : Octets) {chunk : Nat} (hchunk : reportedChunk? (p.line.reply 1) = some chunk) :
    fragmentsBetween p.line (p.program cancelled slot data).2.line <+:
      (data.blocks chunk).map (fragment slot) := by
  rw [← filter_fragment_sequence, Programmer.program, OneWire.program]
  rcases hrun : run cancelled slot data p.line with ⟨⟨step, e⟩ | meaning, mid⟩
  · obtain ⟨made, hpre, rfl, hstep⟩ := run_failed hrun
    have hbounds : 1 ≤ step ∧ step ≤ 4 := by omega
    obtain ⟨more, hsent, hmore⟩ := (recovered_recover slot hbounds (p.line.after made)).sent_eq
    rw [fragmentsBetween_eq hsent hmore, ← hchunk]
    exact hpre.filter _
  · obtain ⟨chunk', hchunk', rfl⟩ := run_ok hrun
    obtain rfl : chunk = chunk' := Option.some.inj (hchunk.symm.trans hchunk')
    have hsent : fragmentsBetween p.line (p.line.after (sequence slot data chunk)) =
        (sequence slot data chunk).filter (·.fragment) :=
      fragmentsBetween_eq (List.append_nil _).symm rfl
    exact hsent ▸ List.prefix_rfl

theorem fragments_of_ok {cancelled : Bench → Bool} {p : Programmer Bench} {slot : UInt8}
    {data : Octets} {chunk : Nat} {meaning : StatusMeaning}
    (hchunk : reportedChunk? (p.line.reply 1) = some chunk)
    (hok : (p.program cancelled slot data).1 = .ok meaning) :
    fragmentsBetween p.line (p.program cancelled slot data).2.line =
      (data.blocks chunk).map (fragment slot) := by
  rw [← filter_fragment_sequence]
  rw [Programmer.program, OneWire.program] at hok ⊢
  rcases hrun : run cancelled slot data p.line with ⟨⟨step, e⟩ | meaning, mid⟩
  · rw [hrun] at hok
    cases hok
  · obtain ⟨chunk', hchunk', rfl⟩ := run_ok hrun
    obtain rfl : chunk = chunk' := Option.some.inj (hchunk.symm.trans hchunk')
    exact fragmentsBetween_eq (List.append_nil _).symm rfl

/-- The bytes of a fragment behind the reserved byte are its piece. -/
theorem drop_fragment (slot : UInt8) (piece : Octets) :
    (fragment slot piece).bytes.drop (Frame.headerLength + lead) = piece := rfl

theorem flatMap_fragment (slot : UInt8) (pieces : List Octets) :
    (pieces.map (fragment slot)).flatMap (·.bytes.drop (Frame.headerLength + lead)) =
      pieces.flatten := by
  simp only [List.flatMap_map, drop_fragment, List.flatMap_id']

/-- For every size that a device may report, every fragment is the byte form of the frame for the
block of its number, with nothing of an earlier block in it. All writes into the buffer lie within
it, and every length fits its field. A session that goes through has sent every byte of its
image. -/
theorem chip_image_intact (cancelled : Bench → Bool) (p : Programmer Bench) (slot : UInt8)
    (data : Octets) {size : Nat} (hsize : reportedSize? (p.line.reply 1) = some size)
    (hpos : 1 ≤ size) :
    let chunk := min size 65527
    let outcome := p.program cancelled slot data
    let fragments := fragmentsBetween p.line outcome.2.line
    sendImage? slot data chunk = some ((sendImage slot data chunk).map (·.request)) ∧
    (∀ i t, fragments[i]? = some t →
      i * chunk < data.length ∧
      ∃ f, Frame.long Command.programOneWire .motherboard ([slot, 0] ++ data.block chunk i) =
          .ok f ∧
        t.bytes = f.encode) ∧
    (∀ meaning, outcome.1 = .ok meaning →
      fragments.flatMap (·.bytes.drop (Frame.headerLength + lead)) = data) := by
  intro chunk outcome fragments
  have hchunk := reportedChunk?_eq hsize hpos
  have hle : chunk ≤ maxPayload - lead := Nat.min_le_right _ _
  have hne : chunk ≠ 0 := by omega
  refine ⟨sendImage?_eq slot data hle, fun i t ht => ?_, fun meaning hok => ?_⟩
  · obtain ⟨rest, hrest⟩ := fragments_prefix cancelled slot data hchunk
    have hplace : ((data.blocks chunk).map (fragment slot))[i]? = some t := by
      rw [← hrest, List.getElem?_append_left (List.getElem?_eq_some_iff.mp ht).1, ht]
    rw [List.getElem?_map] at hplace
    obtain ⟨piece, hpiece, rfl⟩ := Option.map_eq_some_iff.mp hplace
    rw [← Octets.pieces_eq_blocks] at hpiece
    obtain ⟨rfl, hlt⟩ := Octets.getElem?_pieces hpiece
    refine ⟨hlt, pieceFrame slot (data.block chunk i), if_neg ?_, rfl⟩
    have hblock := Octets.length_block_le chunk data i
    have hbound : chunk ≤ 65527 := hle
    rw [List.length_append, List.length_cons, List.length_cons, List.length_nil,
      show maxPayload = 65529 from rfl]
    omega
  · have hall : fragments = _ := fragments_of_ok hchunk hok
    rw [hall, flatMap_fragment, ← Octets.pieces_eq_blocks, Octets.flatten_pieces hne]

/-- A device that takes three bytes at a time, and an image whose last block is shorter. -/
def threeByteDevice : Bench where
  replies := threeByteReplies

theorem chip_image_intact_threeByteDevice :
    let p : Programmer Bench := { line := threeByteDevice }
    let outcome := p.program (fun _ => false) 1 [1, 2, 3, 4, 5]
    let fragments := fragmentsBetween p.line outcome.2.line
    reportedSize? (p.line.reply 1) = some 3 ∧ outcome.1.toOption = some .programmed ∧
      (∀ i t, fragments[i]? = some t → i * 3 < 5 ∧
        ∃ f, Frame.long Command.programOneWire .motherboard
          ([1, 0] ++ Octets.block 3 [1, 2, 3, 4, 5] i) = .ok f ∧ t.bytes = f.encode) ∧
      fragments.flatMap (·.bytes.drop (Frame.headerLength + lead)) = [1, 2, 3, 4, 5] := by
  intro p outcome fragments
  have hsize : reportedSize? (p.line.reply 1) = some 3 := rfl
  have hprogrammed : outcome.1.toOption = some .programmed := by decide +kernel
  obtain ⟨-, hpieces, hwhole⟩ :=
    chip_image_intact (fun _ => false) p 1 [1, 2, 3, 4, 5] hsize (by decide)
  exact ⟨hsize, hprogrammed, hpieces, hwhole _ (toOption_eq_some.mp hprogrammed)⟩

end MotionRack.OneWire
