import MotionRack.Proofs.Octets
import MotionRack.Proofs.Session.Dialogue
import MotionRack.Session.OneWire

/-!
# The reused buffer of a chip session

All pieces of an image travel through one buffer. What a piece leaves behind in it lies
past the end of every later transfer, or is overwritten first: each fragment is the byte
form of a frame that was built for its piece alone.
-/
namespace MotionRack.OneWire

/-- The frame that carries one piece of an image behind its slot and a reserved byte. -/
def pieceFrame (slot : UInt8) (piece : Octets) : Frame where
  command := Command.programOneWire
  destination := .motherboard
  source := .host
  body := .long (slot :: 0 :: piece)

/-- The two bytes ahead of the length field. -/
def commandBytes : Octets := Octets.ofNat 2 Command.programOneWire.toNat

/-- The bytes between the length field and the piece. -/
def routingBytes (slot : UInt8) : Octets :=
  [Address.motherboard.byte ||| Address.extendedFlag, Address.host.byte, slot, 0]

/-- A buffer that is ready for a piece of at most `chunk` bytes. Its length field and
the bytes behind the reserved one are whatever the piece before left there. -/
def Ready (slot : UInt8) (chunk : Nat) (buffer : Octets) : Prop :=
  ∃ length body : Octets, length.length = 2 ∧ body.length = chunk ∧
    buffer = commandBytes ++ (length ++ (routingBytes slot ++ body))

theorem encode_carrying (payload : Octets) :
    (Frame.carrying Command.programOneWire .motherboard payload).encode =
      commandBytes ++ Octets.ofNat 2 (min payload.length 65535)
        ++ [Address.motherboard.byte ||| Address.extendedFlag, Address.host.byte]
        ++ payload := rfl

theorem ready_buffer (slot : UInt8) (chunk : Nat) : Ready slot chunk (buffer slot chunk) := by
  refine ⟨Octets.ofNat 2 (min (lead + chunk) 65535), List.replicate chunk 0,
    Octets.length_ofNat _ _, List.length_replicate, ?_⟩
  have hzero : List.replicate (lead + chunk) (0 : UInt8) =
      [0] ++ (0 :: List.replicate chunk 0) := by
    rw [Nat.add_comm]
    rfl
  rw [buffer, encode_carrying, List.length_replicate, hzero]
  have hslot : ([0] : Octets).length = [slot].length := rfl
  have hw := Octets.overwrite_append
    (a := commandBytes ++ Octets.ofNat 2 (min (lead + chunk) 65535)
      ++ [Address.motherboard.byte ||| Address.extendedFlag, Address.host.byte])
    hslot (0 :: List.replicate chunk 0)
  simp only [List.append_assoc] at hw ⊢
  exact hw

/-- Filling a buffer sets its length field and the bytes of the piece. -/
theorem fill_eq {slot : UInt8} {length body piece : Octets} (hl : length.length = 2)
    (hp : piece.length ≤ body.length) :
    fill (commandBytes ++ (length ++ (routingBytes slot ++ body))) piece =
      commandBytes ++ (Octets.ofNat 2 (lead + piece.length) ++
        (routingBytes slot ++ (piece ++ body.drop piece.length))) := by
  have hlen : length.length = (Octets.ofNat 2 (lead + piece.length)).length := by
    rw [Octets.length_ofNat, hl]
  have hfield : (commandBytes ++ (length ++ (routingBytes slot ++ body))).overwrite 2
      (Octets.ofNat 2 (lead + piece.length)) =
      commandBytes ++ (Octets.ofNat 2 (lead + piece.length) ++ (routingBytes slot ++ body)) :=
    Octets.overwrite_append (a := commandBytes) hlen (routingBytes slot ++ body)
  have hbody := Octets.overwrite_append_of_le
    (a := commandBytes ++ (Octets.ofNat 2 (lead + piece.length) ++ routingBytes slot)) hp
  have hstart : (commandBytes ++ (Octets.ofNat 2 (lead + piece.length)
      ++ routingBytes slot)).length = Frame.headerLength + lead := by
    simp [commandBytes, routingBytes, Frame.headerLength, lead]
  rw [hstart] at hbody
  simp only [List.append_assoc] at hbody
  rw [fill, hfield, hbody]

theorem ready_fill {slot : UInt8} {chunk : Nat} {buffer piece : Octets}
    (hb : Ready slot chunk buffer) (hp : piece.length ≤ chunk) :
    Ready slot chunk (fill buffer piece) := by
  obtain ⟨length, body, hl, hbody, rfl⟩ := hb
  refine ⟨_, _, ?_, ?_, fill_eq hl (by omega)⟩
  · exact Octets.length_ofNat _ _
  · rw [List.length_append, List.length_drop]
    omega

/-- The filled part of a buffer is the byte form of the piece's own frame. -/
theorem take_fill {slot : UInt8} {chunk : Nat} {buffer piece : Octets}
    (hb : Ready slot chunk buffer) (hp : piece.length ≤ chunk) (hc : chunk ≤ maxPayload - lead) :
    (fill buffer piece).take (Frame.headerLength + lead + piece.length) =
      (pieceFrame slot piece).encode := by
  obtain ⟨length, body, hl, hbody, rfl⟩ := hb
  have hmin : min (lead + piece.length) 65535 = lead + piece.length := by
    have hbound : chunk ≤ 65527 := hc
    have htwo : lead = 2 := rfl
    omega
  have henc : (pieceFrame slot piece).encode =
      commandBytes ++ (Octets.ofNat 2 (lead + piece.length) ++ (routingBytes slot ++ piece)) := by
    have hpayload : (slot :: 0 :: piece).length = lead + piece.length := by
      simp only [List.length_cons, lead]
      omega
    have hframe : pieceFrame slot piece =
        .carrying Command.programOneWire .motherboard (slot :: 0 :: piece) := rfl
    rw [hframe, encode_carrying, hpayload, hmin]
    simp [routingBytes]
  rw [fill_eq hl (by omega), henc]
  simp only [← List.append_assoc]
  refine List.take_left' ?_
  simp only [commandBytes, routingBytes, Frame.headerLength, lead, List.length_append,
    Octets.length_ofNat, List.length_cons, List.length_nil]

theorem length_of_ready {slot : UInt8} {chunk : Nat} {buffer : Octets}
    (hb : Ready slot chunk buffer) : buffer.length = Frame.headerLength + lead + chunk := by
  obtain ⟨length, body, hl, hbody, rfl⟩ := hb
  simp only [commandBytes, routingBytes, Frame.headerLength, lead, List.length_append,
    Octets.length_ofNat, List.length_cons, List.length_nil, hl, hbody]
  omega

/-! ### The fragments of an image -/

/-- A piece as a link records it. -/
def fragment (slot : UInt8) (piece : Octets) : Transfer :=
  ⟨true, (pieceFrame slot piece).encode⟩

/-- The invariant of the buffer carries over from piece to piece, so every fragment is
the byte form of a frame of its own. -/
theorem transfers_sendPieces {slot : UInt8} {chunk : Nat} (hc : chunk ≤ maxPayload - lead)
    {buffer : Octets} (hb : Ready slot chunk buffer) {pieces : List Octets}
    (hp : ∀ piece ∈ pieces, piece.length ≤ chunk) :
    Exchange.transfers (sendPieces buffer pieces) = pieces.map (fragment slot) := by
  induction pieces generalizing buffer with
  | nil => rfl
  | cons piece rest ih =>
    obtain ⟨hpiece, hrest⟩ := List.forall_mem_cons.mp hp
    rw [sendPieces, Exchange.transfers, List.map_cons, List.map_cons]
    refine List.cons_eq_cons.mpr ⟨?_, ih (ready_fill hb hpiece) hrest⟩
    change Transfer.mk true ((fill buffer piece).take _) = _
    rw [take_fill hb hpiece hc]
    rfl

/-- Every fragment lies within the buffer, and a fragment is the only request of a
session that looks at a cancel request. -/
theorem sendPieces_fits {slot : UInt8} {chunk : Nat} {buffer : Octets}
    (hb : Ready slot chunk buffer) {pieces : List Octets}
    (hp : ∀ piece ∈ pieces, piece.length ≤ chunk) :
    ∀ x ∈ sendPieces buffer pieces, x.request.Fits ∧ x.step = 3 := by
  induction pieces generalizing buffer with
  | nil => intro x hx; exact absurd hx List.not_mem_nil
  | cons piece rest ih =>
    obtain ⟨hpiece, hrest⟩ := List.forall_mem_cons.mp hp
    intro x hx
    rw [sendPieces] at hx
    rcases List.mem_cons.mp hx with rfl | hx
    · refine ⟨?_, rfl⟩
      change Frame.headerLength + lead + piece.length ≤ (fill buffer piece).length
      rw [length_of_ready (ready_fill hb hpiece)]
      omega
    · exact ih (ready_fill hb hpiece) hrest x hx

theorem transfers_sendImage (slot : UInt8) (data : Octets) {chunk : Nat}
    (hc : chunk ≤ maxPayload - lead) :
    Exchange.transfers (sendImage slot data chunk) = (data.blocks chunk).map (fragment slot) := by
  rw [← Octets.pieces_eq_blocks]
  exact transfers_sendPieces hc (ready_buffer slot chunk) fun _ => Octets.length_of_mem_pieces

theorem sendImage_fits (slot : UInt8) (data : Octets) (chunk : Nat) :
    ∀ x ∈ sendImage slot data chunk, x.request.Fits ∧ x.step = 3 :=
  sendPieces_fits (ready_buffer slot chunk) fun _ => Octets.length_of_mem_pieces

end MotionRack.OneWire
