import MotionRack.Bus.Frame
import MotionRack.Proofs.Bus.Address
import MotionRack.Proofs.Octets

/-!
# Frames that are read back

The header of a frame alone tells how long its byte form is, whatever its addresses are. So every
frame that is not too long is read back, up to addresses that no byte tells apart; the byte
strings that are read as frames are exactly those of the format; and none of them is the
beginning of another. A payload stands behind the header, place by place.
-/
namespace MotionRack.Frame

open Address (addressMask extendedFlag)

/-- Whether a frame is the one that its byte form is read as: both addresses are canonical, and
the payload is not too long. -/
structure Canonical (f : Frame) : Prop where
  destination : f.destination.Canonical
  source : f.source.Canonical
  payload : f.payload.length ≤ maxPayload

instance : DecidablePred Canonical := fun f =>
  decidable_of_iff
    (f.destination.Canonical ∧ f.source.Canonical ∧ f.payload.length ≤ maxPayload)
    ⟨fun h => ⟨h.1, h.2.1, h.2.2⟩, fun h => ⟨h.destination, h.source, h.payload⟩⟩

/-! ### The format of a byte string -/

/-- Whether the payload mark is set, the eighth bit of the fifth byte. -/
def marked (bytes : Octets) : Bool := (bytes.getD 4 0).toNat.testBit 7

/-- The number in the third and fourth byte. -/
def announced (bytes : Octets) : Nat := Octets.toNat ((bytes.drop 2).take 2)

/-- Whether a byte string has the format of a frame: a header and nothing behind it if the mark is
not set, else a header and a payload of the announced length, which has a ceiling. -/
def HasFormat (bytes : Octets) : Prop :=
  headerLength ≤ bytes.length ∧
    (marked bytes = false ∧ bytes.length = headerLength ∨
      marked bytes = true ∧ announced bytes ≤ maxPayload ∧
        bytes.length = headerLength + announced bytes)

instance : DecidablePred HasFormat := fun _ => inferInstanceAs (Decidable (_ ∧ _))

theorem exists_header {bytes : Octets} (h : headerLength ≤ bytes.length) :
    ∃ c0 c1 p0 p1 dest src rest, bytes = c0 :: c1 :: p0 :: p1 :: dest :: src :: rest := by
  match bytes with
  | c0 :: c1 :: p0 :: p1 :: dest :: src :: rest => exact ⟨c0, c1, p0, p1, dest, src, rest, rfl⟩
  | [] | [_] | [_, _] | [_, _, _] | [_, _, _, _] | [_, _, _, _, _] => simp [headerLength] at h

section

variable {bytes : Octets} (h : headerLength ≤ bytes.length) (behind : Octets)

include h

theorem marked_append : marked (bytes ++ behind) = marked bytes := by
  obtain ⟨c0, c1, p0, p1, dest, src, rest, rfl⟩ := exists_header h
  rfl

theorem announced_append : announced (bytes ++ behind) = announced bytes := by
  obtain ⟨c0, c1, p0, p1, dest, src, rest, rfl⟩ := exists_header h
  rfl

end

namespace HasFormat

variable {bytes : Octets}

/-- The length of a byte string of the format, as its header tells it. -/
theorem length_eq (h : HasFormat bytes) :
    bytes.length = headerLength + if marked bytes then announced bytes else 0 := by
  rcases h.2 with ⟨hmark, hlength⟩ | ⟨hmark, _, hlength⟩
  · simpa [hmark] using hlength
  · simpa [hmark] using hlength

/-- What has the format is not the beginning of anything else that has. -/
theorem eq_of_isPrefix {more : Octets} (h : HasFormat bytes) (hmore : HasFormat more)
    (hbegins : bytes <+: more) : bytes = more := by
  obtain ⟨behind, rfl⟩ := hbegins
  -- The header stands in front of both, so it tells the same length of both.
  have hlength := hmore.length_eq
  rw [marked_append h.1, announced_append h.1, ← h.length_eq, List.length_append] at hlength
  have hbehind : behind = [] := List.length_eq_zero_iff.mp (by omega)
  rw [hbehind, List.append_nil]

theorem ne_nil (h : HasFormat bytes) : bytes ≠ [] := by
  rintro rfl
  exact absurd h.1 (by decide)

end HasFormat

/-! ### From bytes to a frame and back -/

section

variable {c0 c1 p0 p1 dest src : UInt8} {rest : Octets}

theorem hasFormat_header_iff : HasFormat (c0 :: c1 :: p0 :: p1 :: dest :: src :: rest) ↔
    dest.toNat.testBit 7 = false ∧ rest = [] ∨
      dest.toNat.testBit 7 = true ∧ Octets.toNat [p0, p1] ≤ maxPayload ∧
        rest.length = Octets.toNat [p0, p1] := by
  have hmark : marked (c0 :: c1 :: p0 :: p1 :: dest :: src :: rest) = dest.toNat.testBit 7 := rfl
  have hannounced :
      announced (c0 :: c1 :: p0 :: p1 :: dest :: src :: rest) = Octets.toNat [p0, p1] := rfl
  have hlength :
      (c0 :: c1 :: p0 :: p1 :: dest :: src :: rest).length = headerLength + rest.length :=
    Nat.add_comm rest.length 6
  rw [HasFormat, hmark, hannounced, hlength, Nat.add_eq_left, Nat.add_left_cancel_iff,
    List.length_eq_zero_iff]
  exact and_iff_right (Nat.le_add_right headerLength rest.length)

/-- The frames that a header, and what is behind it, are read as. -/
theorem decode_header_eq_ok_iff {f : Frame} :
    decode (c0 :: c1 :: p0 :: p1 :: dest :: src :: rest) = .ok f ↔
      dest.toNat.testBit 7 = false ∧ rest = [] ∧
        f = ⟨UInt16.ofNat (Octets.toNat [c0, c1]), .ofByte dest, .ofByte src, .short p0 p1⟩ ∨
      dest.toNat.testBit 7 = true ∧ Octets.toNat [p0, p1] ≤ maxPayload ∧
        rest.length = Octets.toNat [p0, p1] ∧
        f = ⟨UInt16.ofNat (Octets.toNat [c0, c1]), .ofByte dest, .ofByte src, .long rest⟩ := by
  rw [decode]
  dsimp only
  cases hmark : dest.toNat.testBit 7 with
  | false =>
    rw [if_pos (Address.and_extendedFlag_eq_zero_iff.mpr hmark)]
    by_cases hrest : rest = []
    · simp [hrest, eq_comm]
    · simp [hrest]
  | true =>
    have hset : ¬ dest &&& extendedFlag = 0 := by
      rw [Address.and_extendedFlag_eq_zero_iff, hmark]
      exact Bool.noConfusion
    rw [if_neg hset]
    by_cases hceiling : maxPayload < Octets.toNat [p0, p1]
    · rw [if_pos hceiling]
      simp [Nat.not_le.mpr hceiling]
    · rw [if_neg hceiling]
      by_cases hlength : rest.length = Octets.toNat [p0, p1]
      · simp [hlength, Nat.not_lt.mp hceiling, eq_comm]
      · simp [hlength]

theorem encode_decoded_short :
    encode ⟨UInt16.ofNat (Octets.toNat [c0, c1]), .ofByte dest, .ofByte src, .short p0 p1⟩ =
      [c0, c1, p0, p1, dest &&& addressMask, src &&& addressMask] := by
  rw [encode, parameterBytes, destinationByte, payload, Octets.ofNat_two_uint16,
    Address.byte_ofByte, Address.byte_ofByte]
  rfl

theorem encode_decoded_long (h : rest.length = Octets.toNat [p0, p1]) :
    encode ⟨UInt16.ofNat (Octets.toNat [c0, c1]), .ofByte dest, .ofByte src, .long rest⟩ =
      c0 :: c1 :: p0 :: p1 :: (dest &&& addressMask ||| extendedFlag) :: (src &&& addressMask) ::
        rest := by
  have hword : Octets.ofNat 2 (min rest.length 65535) = [p0, p1] := by
    rw [h, Nat.min_eq_left (Nat.le_of_lt_succ (Octets.toNat_two_lt p0 p1))]
    exact Octets.ofNat_toNat [p0, p1]
  rw [encode, parameterBytes, destinationByte, payload, Octets.ofNat_two_uint16,
    Address.byte_ofByte, Address.byte_ofByte]
  dsimp only
  rw [hword]
  rfl

end

theorem headerLength_le_of_decode {bytes : Octets} {f : Frame} (h : decode bytes = .ok f) :
    headerLength ≤ bytes.length := by
  unfold decode at h
  split at h
  next c0 c1 p0 p1 dest src rest => exact Nat.le_add_left 6 rest.length
  next => cases h

/-- What is read as a frame has the format, and the frame is written as the same bytes without the
eighth bit of the source. -/
theorem hasFormat_of_decode {bytes : Octets} {f : Frame} (h : decode bytes = .ok f) :
    HasFormat bytes ∧ f.encode = bytes.modify 5 (· &&& addressMask) := by
  obtain ⟨c0, c1, p0, p1, dest, src, rest, rfl⟩ := exists_header (headerLength_le_of_decode h)
  rw [hasFormat_header_iff]
  rcases decode_header_eq_ok_iff.mp h with
    ⟨hmark, rfl, rfl⟩ | ⟨hmark, hceiling, hlength, rfl⟩
  · refine ⟨Or.inl ⟨hmark, rfl⟩, ?_⟩
    rw [encode_decoded_short, Address.and_addressMask_of_unmarked hmark]
    rfl
  · refine ⟨Or.inr ⟨hmark, hceiling, hlength⟩, ?_⟩
    rw [encode_decoded_long hlength, Address.and_addressMask_or_extendedFlag hmark]
    rfl

/-- Whatever has the format is read as a frame. -/
theorem HasFormat.exists_decode {bytes : Octets} (h : HasFormat bytes) :
    ∃ f, decode bytes = .ok f := by
  obtain ⟨c0, c1, p0, p1, dest, src, rest, rfl⟩ := exists_header h.1
  rcases hasFormat_header_iff.mp h with ⟨hmark, hrest⟩ | ⟨hmark, hceiling, hlength⟩
  · exact ⟨_, decode_header_eq_ok_iff.mpr (Or.inl ⟨hmark, hrest, rfl⟩)⟩
  · exact ⟨_, decode_header_eq_ok_iff.mpr (Or.inr ⟨hmark, hceiling, hlength, rfl⟩)⟩

/-! ### From a frame to bytes and back -/

@[simp] theorem length_encode (f : Frame) : f.encode.length = f.encodedLength := by
  have hparameters : f.parameterBytes.length = 2 := by
    unfold parameterBytes
    cases f.body with
    | short _ _ => rfl
    | long _ => exact Octets.length_ofNat 2 _
  simp only [encode, List.length_append, List.length_cons, List.length_nil, Octets.length_ofNat,
    hparameters, encodedLength, headerLength]

/-- A frame that is not too long is read back with the nodes that its address bytes name. -/
theorem decode_encode_of_fits {f : Frame} (h : f.payload.length ≤ maxPayload) :
    decode f.encode = .ok { f with
      destination := .ofByte f.destination.byte
      source := .ofByte f.source.byte } := by
  have hcommand := Octets.uint16_ofNat_two f.command
  obtain ⟨command, destination, source, body⟩ := f
  cases body with
  | short a b =>
    refine decode_header_eq_ok_iff.mpr (Or.inl ⟨destination.byte_unmarked, rfl, ?_⟩)
    exact congrArg (Frame.mk · _ _ _) hcommand.symm
  | long bytes =>
    have hlimit : bytes.length < 65536 := Nat.lt_of_le_of_lt h (by decide)
    have hlength : Octets.toNat (Octets.ofNat 2 (min bytes.length 65535)) = bytes.length := by
      rw [Nat.min_eq_left (Nat.le_of_lt_succ hlimit), Octets.toNat_ofNat_two hlimit]
    refine decode_header_eq_ok_iff.mpr
      (Or.inr ⟨destination.byte_marked, hlength.le.trans h, hlength.symm, ?_⟩)
    rw [destinationByte, Address.ofByte_marked]
    exact congrArg (Frame.mk · _ _ _) hcommand.symm

/-- A frame that is not too long is read back as it was exactly if its addresses are canonical. -/
theorem decode_encode_eq_ok_iff {f : Frame} (h : f.payload.length ≤ maxPayload) :
    decode f.encode = .ok f ↔ f.destination.Canonical ∧ f.source.Canonical := by
  rw [decode_encode_of_fits h, Except.ok.injEq, ← Address.ofByte_byte_eq_self_iff,
    ← Address.ofByte_byte_eq_self_iff]
  obtain ⟨command, destination, source, body⟩ := f
  simp

theorem Canonical.decode_encode {f : Frame} (h : f.Canonical) : decode f.encode = .ok f :=
  (decode_encode_eq_ok_iff h.payload).mpr ⟨h.destination, h.source⟩

theorem hasFormat_encode {f : Frame} (h : f.payload.length ≤ maxPayload) : HasFormat f.encode :=
  (hasFormat_of_decode (decode_encode_of_fits h)).1

/-- No byte form of a frame is the beginning of another. -/
theorem Canonical.eq_of_isPrefix {f g : Frame} (hf : f.Canonical) (hg : g.Canonical)
    (h : f.encode <+: g.encode) : f = g := by
  have hbytes := (hasFormat_encode hf.payload).eq_of_isPrefix (hasFormat_encode hg.payload) h
  have hread := hf.decode_encode
  rw [hbytes, hg.decode_encode] at hread
  exact (Except.ok.inj hread).symm

/-! ### The payload in the byte form -/

/-- The header of a frame from the host with a payload of a length. -/
def longHeader (command : CommandId) (destination : Address) (length : Nat) : Octets :=
  Octets.ofNat 2 command.toNat ++ Octets.ofNat 2 (min length 65535) ++
    [destination.byte ||| Address.extendedFlag, Address.host.byte]

theorem length_longHeader (command : CommandId) (destination : Address) (length : Nat) :
    (longHeader command destination length).length = headerLength := by
  rw [longHeader, List.length_append, List.length_append, Octets.length_ofNat, Octets.length_ofNat]
  rfl

theorem encode_carrying (command : CommandId) (destination : Address) (payload : Octets) :
    (carrying command destination payload).encode =
      longHeader command destination payload.length ++ payload :=
  rfl

section

variable {command : CommandId} {destination : Address} {payload : Octets}

theorem length_encode_carrying : (carrying command destination payload).encode.length =
    headerLength + payload.length :=
  length_encode _

theorem decode_encode_carrying (hdestination : destination.Canonical)
    (hpayload : payload.length ≤ maxPayload) :
    decode (carrying command destination payload).encode =
      .ok (carrying command destination payload) := by
  have hcanonical : (carrying command destination payload).Canonical :=
    ⟨hdestination, trivial, hpayload⟩
  exact hcanonical.decode_encode

/-- What the byte form of a long frame tells the controller, if its payload can be read. -/
def told? {α : Type} (read : CommandId → Octets → Option α) (bytes : Octets) : Option α :=
  match decode bytes with
  | .ok f =>
    if f.destination = .motherboard ∧ f.isExtended then read f.command f.payload else none
  | .error _ => none

theorem told?_encode_carrying {α : Type} {read : CommandId → Octets → Option α}
    (h : payload.length ≤ maxPayload) :
    told? read (carrying command .motherboard payload).encode = read command payload := by
  have hcontroller : Address.motherboard.Canonical := trivial
  rw [told?, decode_encode_carrying hcontroller h]
  rfl

/-- Places of the payload, in the byte form. -/
theorem slice_encode_carrying (start width : Nat) :
    Octets.slice (headerLength + start) width (carrying command destination payload).encode =
      Octets.slice start width payload := by
  rw [encode_carrying, ← length_longHeader command destination payload.length,
    Octets.slice_append_right]

theorem getElem?_encode_carrying (i : Nat) :
    (carrying command destination payload).encode[headerLength + i]? = payload[i]? := by
  rw [encode_carrying, ← length_longHeader command destination payload.length,
    List.getElem?_append_right (Nat.le_add_right _ i), Nat.add_sub_cancel_left]

/-- A write within the payload is one in the byte form. -/
theorem encode_carrying_overwrite {start : Nat} {bytes : Octets}
    (h : start + bytes.length ≤ payload.length) :
    (carrying command destination (payload.overwrite start bytes)).encode =
      (carrying command destination payload).encode.overwrite (headerLength + start) bytes := by
  rw [encode_carrying, encode_carrying, Octets.length_overwrite h,
    ← length_longHeader command destination payload.length, Octets.overwrite_append_right]

end

/-! ### The code of frames -/

/-- Every frame that is not too long, whatever its command, its two parameters or its payload, and
its two nodes, is read back, with each node replaced by the one that its address byte names. Its
byte form is as long as the frame tells. It comes back as it was exactly if both addresses are
canonical. -/
theorem encode_read_back (f : Frame) (h : f.payload.length ≤ maxPayload) :
    decode f.encode = .ok { f with
      destination := .ofByte f.destination.byte
      source := .ofByte f.source.byte } ∧
    f.encode.length = f.encodedLength ∧
    (decode f.encode = .ok f ↔ f.destination.Canonical ∧ f.source.Canonical) :=
  ⟨decode_encode_of_fits h, length_encode f, decode_encode_eq_ok_iff h⟩

/-- A frame to a slot beyond the rack, whose index wraps, from a byte with the payload mark. -/
def wrappedFrame : Frame where
  command := Command.setStageParams
  destination := .slot 0x81
  source := .other 0x91
  body := .long [0x03, 0x00]

theorem encode_read_back_wrapped :
    wrappedFrame.payload.length ≤ maxPayload ∧ wrappedFrame.encode.length = 8 ∧
    decode wrappedFrame.encode =
      .ok { wrappedFrame with destination := .slot 1, source := .motherboard } ∧
    decode wrappedFrame.encode ≠ .ok wrappedFrame := by
  have hfits : wrappedFrame.payload.length ≤ maxPayload := by decide
  obtain ⟨hread, hlength, hsame⟩ := encode_read_back wrappedFrame hfits
  have hbeyond : ¬ (wrappedFrame.destination.Canonical ∧ wrappedFrame.source.Canonical) := by decide
  exact ⟨hfits, hlength, hread, fun h => hbeyond (hsame.mp h)⟩

/-- A byte string is read as a frame exactly if it has the format; and then the frame is written
as the same bytes, less the eighth bit of the source, which tells nothing. -/
theorem decode_accepts_format (bytes : Octets) :
    ((∃ f, decode bytes = .ok f) ↔ HasFormat bytes) ∧
    ∀ f, decode bytes = .ok f → f.encode = bytes.modify 5 (· &&& addressMask) := by
  refine ⟨⟨?_, HasFormat.exists_decode⟩, fun f h => (hasFormat_of_decode h).2⟩
  rintro ⟨f, h⟩
  exact (hasFormat_of_decode h).1

/-- A frame with two bytes of payload, and the eighth bit of the source set; and the same with one
byte missing. -/
theorem decode_accepts_format_broken_off :
    (∃ f, decode [0x41, 0x40, 0x02, 0x00, 0xA1, 0x81, 0x03, 0x00] = .ok f ∧
      f.encode = [0x41, 0x40, 0x02, 0x00, 0xA1, 0x01, 0x03, 0x00]) ∧
    ¬ ∃ f, decode [0x41, 0x40, 0x02, 0x00, 0xA1, 0x81, 0x03] = .ok f := by
  obtain ⟨haccepts, hwritten⟩ :=
    decode_accepts_format [0x41, 0x40, 0x02, 0x00, 0xA1, 0x81, 0x03, 0x00]
  obtain ⟨hrefuses, -⟩ := decode_accepts_format [0x41, 0x40, 0x02, 0x00, 0xA1, 0x81, 0x03]
  constructor
  · obtain ⟨f, hf⟩ := haccepts.mpr (by decide)
    exact ⟨f, hf, hwritten f hf⟩
  · rw [hrefuses]
    decide

end MotionRack.Frame
