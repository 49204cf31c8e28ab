import MotionRack.Proofs.Session.Dialogue
import MotionRack.Session.Lut

/-!
# The trace of a table session

A table session over a bench link is one sequence of exchanges as soon as the size
reply is known. What it hands to the link is therefore a prefix of the full request
sequence, and after a failure one closing frame. Replies and cancel requests are
arbitrary throughout.
-/
namespace MotionRack.Lut

open Exchange (transfers Accepted Ends)

/-- The chunk size that a size reply gives, if it gives one: the low sixteen bits of
the reported word, and no more than fits into a frame beside the table number. -/
def reportedChunk? (reply : Option Octets) : Option Nat :=
  match Answer.data? reply with
  | some (_ :: b0 :: b1 :: b2 :: b3 :: _) =>
    let chunk := min (Octets.toNat [b0, b1, b2, b3] % 65536) 65528
    if chunk = 0 then none else some chunk
  | _ => none

/-- A frame to the motherboard that names a table and switches something on or off for it. -/
def switchFrame (command : CommandId) (table flag : UInt8) : Frame where
  command := command
  destination := .motherboard
  source := .host
  body := .short table flag

/-- A frame to the motherboard that carries data behind the number of their table. -/
def dataFrame (command : CommandId) (table : UInt8) (data : Octets) : Frame where
  command := command
  destination := .motherboard
  source := .host
  body := .long (table :: data)

/-- The frame that opens programming for a table. -/
def openProgramming (table : UInt8) : Frame := switchFrame Command.setLutProgramming table 1

/-- The frames up to the size request. -/
def opening (image : Image) : List Frame :=
  [switchFrame Command.setLutInquiry image.table 1,
    switchFrame Command.requestLutSize image.table 1]

/-- The frames up to the one that opens programming. -/
def inquirySequence (image : Image) (chunk : Nat) : List Frame :=
  opening image ++ (image.inquiry.blocks chunk).map (dataFrame Command.inquireLut image.table)

/-- The full request sequence. Without a chunk size it ends with the size request. -/
def sequence (image : Image) : Option Nat → List Frame
  | none => opening image
  | some chunk =>
    inquirySequence image chunk ++ openProgramming image.table
      :: (((image.inquiry ++ image.payload).blocks chunk).map
            (dataFrame Command.programLut image.table)
        ++ [switchFrame Command.finishLutProgramming image.table 1])

/-- The exchanges of a session, given the chunk size that it will read. -/
def plan (image : Image) (chunk? : Option Nat) : List (Exchange Unit) :=
  beginInquiry image.table :: (requestSize image.table).discard
    :: chunk?.elim [] (transferPlan image)

theorem requestSize_verdict (table : UInt8) (reply : Option Octets) (chunk : Nat) :
    (requestSize table).verdict reply = .ok chunk ↔ reportedChunk? reply = some chunk := by
  rw [Exchange.verdict_eq_ok_iff, reportedChunk?]
  rcases Answer.data? reply with _ | data
  · simp
  · rcases data with _ | ⟨t, _ | ⟨b0, _ | ⟨b1, _ | ⟨b2, _ | ⟨b3, rest⟩⟩⟩⟩⟩
    case cons.cons.cons.cons.cons =>
      simp only [requestSize, Answer.wordAt, chunkSize, maxPayload, bind, Except.bind]
      by_cases h : Octets.toNat [b0, b1, b2, b3] % 65536 = 0 <;> simp [h]
    all_goals simp [requestSize, Answer.wordAt, bind, Except.bind]

theorem plan_fits (image : Image) (chunk? : Option Nat) :
    ∀ x ∈ plan image chunk?, x.request.Fits := by
  intro x hx
  cases chunk? with
  | none =>
    simp only [plan, Option.elim, List.mem_cons, List.not_mem_nil, or_false] at hx
    rcases hx with rfl | rfl <;> trivial
  | some chunk =>
    simp only [plan, Option.elim, List.mem_cons, transferPlan, sendData, List.mem_append,
      List.mem_map, List.not_mem_nil, or_false] at hx
    rcases hx with rfl | rfl | ((⟨piece, _, rfl⟩ | rfl) | ⟨piece, _, rfl⟩) | rfl <;> trivial

/-- What is sent in a session that goes through. -/
theorem transfers_plan (image : Image) (chunk? : Option Nat) :
    transfers (plan image chunk?) = (sequence image chunk?).map Frame.whole := by
  cases chunk? with
  | none => rfl
  | some chunk =>
    simp only [transfers, plan, Option.elim, transferPlan, sendData, sequence, inquirySequence,
      opening, Octets.pieces_eq_blocks, List.map_cons, List.map_append, List.map_map, List.map_nil,
      List.append_assoc, List.cons_append, List.nil_append]
    rfl

/-- A session is the sequence of exchanges that its size reply determines. -/
theorem run_eq_performAll (cancelled : Bench → Bool) (image : Image) (b : Bench) :
    run cancelled image b =
      Exchange.performAll cancelled (plan image (reportedChunk? (b.reply 1))) b := by
  have hreply : (b.after [(beginInquiry image.table).request.transfer]).reply 0 = b.reply 1 :=
    Bench.reply_after b _ 0
  rw [run, plan, Exchange.performAll, ← hreply]
  cases hv : (beginInquiry image.table).verdict (b.reply 0) with
  | error e =>
    rw [Exchange.perform_of_error cancelled (beginInquiry image.table) trivial rfl hv]
  | ok _ =>
    rw [Exchange.perform_of_ok cancelled (beginInquiry image.table) trivial rfl hv]
    cases hw : (requestSize image.table).verdict
        ((b.after [(beginInquiry image.table).request.transfer]).reply 0) with
    | error e =>
      have hsize := Exchange.perform_of_error cancelled (requestSize image.table) trivial rfl hw
      simp only [hsize, Exchange.performAll_of_error hsize trivial]
    | ok chunk =>
      have hsize := Exchange.perform_of_ok cancelled (requestSize image.table) trivial rfl hw
      simp only [hsize, Exchange.performAll_of_ok hsize trivial, (requestSize_verdict _ _ _).mp hw]
      rfl

/-! ### Which window is open -/

/-- How many requests come before the one that opens programming. -/
def openIndex (image : Image) (chunk? : Option Nat) : Nat :=
  chunk?.elim (opening image).length fun chunk => (inquirySequence image chunk).length

theorem openProgramming_not_mem_opening (image : Image) :
    openProgramming image.table ∉ opening image := by
  intro h
  simp only [opening, List.mem_cons, List.not_mem_nil, or_false] at h
  rcases h with h | h
  · have hcmd := congrArg Frame.command h
    exact absurd hcmd (by decide : Command.setLutProgramming ≠ Command.setLutInquiry)
  · have hcmd := congrArg Frame.command h
    exact absurd hcmd (by decide : Command.setLutProgramming ≠ Command.requestLutSize)

theorem openProgramming_not_mem_inquirySequence (image : Image) (chunk : Nat) :
    openProgramming image.table ∉ inquirySequence image chunk := by
  intro h
  rcases List.mem_append.mp h with h | h
  · exact openProgramming_not_mem_opening image h
  · obtain ⟨piece, _, h⟩ := List.mem_map.mp h
    have hcmd := congrArg Frame.command h
    exact absurd hcmd (by decide : Command.inquireLut ≠ Command.setLutProgramming)

/-- A prefix of the full sequence holds the request that opens programming as soon as
it is long enough to. -/
theorem mem_take_sequence (image : Image) (chunk? : Option Nat) {n : Nat}
    (hn : n ≤ (sequence image chunk?).length) :
    openProgramming image.table ∈ (sequence image chunk?).take n ↔
      openIndex image chunk? < n := by
  cases chunk? with
  | none =>
    have habs : openProgramming image.table ∉ (opening image).take n :=
      fun h => openProgramming_not_mem_opening image (List.mem_of_mem_take h)
    exact iff_of_false habs (Nat.not_lt.mpr hn)
  | some chunk =>
    change _ ↔ (inquirySequence image chunk).length < n
    rw [sequence, List.take_append, List.mem_append]
    constructor
    · rintro (h | h)
      · exact absurd (List.mem_of_mem_take h)
          (openProgramming_not_mem_inquirySequence image chunk)
      · refine Nat.lt_of_not_le fun hle => ?_
        rw [Nat.sub_eq_zero_of_le hle, List.take_zero] at h
        exact List.not_mem_nil h
    · intro h
      obtain ⟨k, hk⟩ : ∃ k, n - (inquirySequence image chunk).length = k + 1 :=
        ⟨n - (inquirySequence image chunk).length - 1, by omega⟩
      rw [hk, List.take_succ_cons]
      exact Or.inr List.mem_cons_self

/-- The exchanges up to the one that opens programming. -/
def inquiryPlan (image : Image) (chunk : Nat) : List (Exchange Unit) :=
  [beginInquiry image.table, (requestSize image.table).discard]
    ++ sendData 3 Command.inquireLut image.table chunk image.inquiry

theorem inquiryPlan_length (image : Image) (chunk : Nat) :
    (inquiryPlan image chunk).length = (inquirySequence image chunk).length := by
  simp only [inquiryPlan, inquirySequence, opening, sendData, Octets.pieces_eq_blocks,
    List.length_append, List.length_map, List.length_cons, List.length_nil]

theorem inquiryPlan_step {image : Image} {chunk : Nat} {x : Exchange Unit}
    (h : x ∈ inquiryPlan image chunk) : x.step ≤ 3 := by
  simp only [inquiryPlan, sendData, List.mem_append, List.mem_cons, List.mem_map,
    List.not_mem_nil, or_false] at h
  rcases h with (rfl | rfl) | ⟨piece, _, rfl⟩
  · exact (by decide : 1 ≤ 3)
  · exact (by decide : 2 ≤ 3)
  · exact (by decide : 3 ≤ 3)

theorem plan_some (image : Image) (chunk : Nat) :
    plan image (some chunk) = inquiryPlan image chunk ++ beginProgramming image.table
      :: (sendData 5 Command.programLut image.table chunk (image.inquiry ++ image.payload)
        ++ [finish image.table]) := by
  simp only [plan, Option.elim, inquiryPlan, transferPlan, List.cons_append, List.nil_append,
    List.append_assoc]

/-- The steps up to the third come before the request that opens programming. Neither
it nor the first request looks at a cancel request. -/
theorem plan_getElem? {image : Image} {chunk? : Option Nat} {i : Nat} {x : Exchange Unit}
    (h : (plan image chunk?)[i]? = some x) :
    (x.step ≤ 3 ↔ i < openIndex image chunk?) ∧
      (x.interruptible = true → 0 < i ∧ i ≠ openIndex image chunk?) := by
  cases chunk? with
  | none =>
    rcases i with _ | _ | i
    · obtain rfl : beginInquiry image.table = x := Option.some.inj h
      simp [beginInquiry, openIndex, opening]
    · obtain rfl : (requestSize image.table).discard = x := Option.some.inj h
      simp [requestSize, Exchange.discard, openIndex, opening]
    · simp [plan] at h
  | some chunk =>
    have hidx : openIndex image (some chunk) = (inquiryPlan image chunk).length :=
      (inquiryPlan_length image chunk).symm
    rw [hidx]
    rw [plan_some, List.getElem?_append] at h
    by_cases hlt : i < (inquiryPlan image chunk).length
    · rw [if_pos hlt] at h
      have hstep := inquiryPlan_step (List.mem_of_getElem? h)
      refine ⟨iff_of_true hstep hlt, fun hint => ⟨?_, by omega⟩⟩
      refine Nat.pos_of_ne_zero fun hz => ?_
      subst hz
      obtain rfl : beginInquiry image.table = x := Option.some.inj h
      exact Bool.noConfusion hint
    · rw [if_neg hlt] at h
      rcases hk : i - (inquiryPlan image chunk).length with _ | k
      · rw [hk] at h
        obtain rfl : beginProgramming image.table = x := Option.some.inj h
        refine ⟨iff_of_false (by decide : ¬ 4 ≤ 3) hlt, fun hint => ?_⟩
        exact Bool.noConfusion hint
      · rw [hk, List.getElem?_cons_succ] at h
        have hmem := List.mem_of_getElem? h
        simp only [sendData, List.mem_append, List.mem_map, List.mem_singleton] at hmem
        have hstep : ¬ x.step ≤ 3 := by
          rcases hmem with ⟨piece, _, rfl⟩ | rfl
          · exact (by decide : ¬ 5 ≤ 3)
          · exact (by decide : ¬ 6 ≤ 3)
        exact ⟨iff_of_false hstep hlt, fun _ => ⟨by omega, by omega⟩⟩

/-- The step that a failed session was at, against the requests it made. -/
theorem step_of_ends {cancelled : Bench → Bool} {b : Bench} {image : Image}
    {chunk? : Option Nat} {step : Nat} {e : ProgramError} {n : Nat}
    (h : Ends cancelled b (plan image chunk?) (.error ⟨step, e⟩) n) :
    0 < n ∧ n ≤ (plan image chunk?).length ∧ (step ≤ 3 ↔ ¬ openIndex image chunk? < n) := by
  cases h with
  | @refused i x e hx hacc hv =>
    have hlt := (List.getElem?_eq_some_iff.mp hx).1
    have hstep := (plan_getElem? hx).1
    exact ⟨by omega, hlt, by omega⟩
  | @interrupted i x hx hacc hi hc =>
    have hlt := (List.getElem?_eq_some_iff.mp hx).1
    obtain ⟨hstep, hint⟩ := plan_getElem? hx
    obtain ⟨hpos, hne⟩ := hint hi
    exact ⟨hpos, Nat.le_of_lt hlt, by omega⟩

/-! ### The trace -/

theorem transfers_take_plan (image : Image) (chunk? : Option Nat) (n : Nat) :
    transfers ((plan image chunk?).take n) =
      ((sequence image chunk?).take n).map Frame.whole := by
  rw [List.map_take, ← transfers_plan, transfers, transfers, List.map_take]

theorem length_plan (image : Image) (chunk? : Option Nat) :
    (plan image chunk?).length = (sequence image chunk?).length := by
  have h := congrArg List.length (transfers_plan image chunk?)
  rwa [transfers, List.length_map, List.length_map] at h

/-- A session that is accepted throughout has read a chunk size. -/
theorem reportedChunk?_of_accepted {b : Bench} {image : Image}
    (h : Accepted b (plan image (reportedChunk? (b.reply 1)))) :
    ∃ chunk, reportedChunk? (b.reply 1) = some chunk := by
  obtain ⟨chunk, hv⟩ :=
    Exchange.exists_verdict_of_discard (h 1 (requestSize image.table).discard rfl)
  exact ⟨chunk, (requestSize_verdict _ _ _).mp hv⟩

/-- A session that goes through sends exactly the full sequence. One that fails sends
a non-empty prefix of it, each frame with its reply slot, and then one frame that
closes the window which is open: programming if that was asked for, else the inquiry.
That frame is waited for by nobody. Without a usable size reply the sequence ends with
the size request. -/
theorem table_session_trace (cancelled : Bench → Bool) (p : Programmer Bench) (image : Image) :
    match p.program cancelled image with
    | (.ok (), q) =>
      ∃ chunk, reportedChunk? (p.line.reply 1) = some chunk ∧
        q = ⟨p.line.after ((sequence image (some chunk)).map Frame.whole), .finished⟩
    | (.error e, q) =>
      ∃ (made : List Frame) (step : Nat), made ≠ [] ∧
        made <+: sequence image (reportedChunk? (p.line.reply 1)) ∧
        run cancelled image p.line = (.error ⟨step, e⟩, p.line.after (made.map Frame.whole)) ∧
        (step ≤ 3 ↔ openProgramming image.table ∉ made) ∧
        q = ⟨(p.line.after (made.map Frame.whole)).told
              (switchFrame
                (if openProgramming image.table ∈ made then Command.setLutProgramming
                  else Command.setLutInquiry) image.table 0).whole,
            .idle⟩ := by
  obtain ⟨n, hends, hline⟩ := Exchange.performAll_ends cancelled
    (plan image (reportedChunk? (p.line.reply 1))) (plan_fits image _) p.line
  rw [← run_eq_performAll, transfers_take_plan] at hline
  rw [← run_eq_performAll] at hends
  have hrun : run cancelled image p.line =
      ((run cancelled image p.line).1, (run cancelled image p.line).2) := rfl
  rw [Programmer.program, Lut.program]
  cases hr : (run cancelled image p.line).1 with
  | ok _ =>
    rw [hr] at hends
    rw [hrun, hr, hline]
    cases hends with
    | completed hacc =>
      obtain ⟨chunk, hchunk⟩ := reportedChunk?_of_accepted hacc
      refine ⟨chunk, hchunk, ?_⟩
      rw [length_plan, List.take_length, hchunk]
  | error failure =>
    obtain ⟨step, e⟩ := failure
    rw [hr] at hends
    obtain ⟨hpos, hle, hstep⟩ := step_of_ends hends
    rw [length_plan] at hle
    have hmem := mem_take_sequence image (reportedChunk? (p.line.reply 1)) hle
    rw [hrun, hr, hline]
    refine ⟨(sequence image (reportedChunk? (p.line.reply 1))).take n, step, ?_,
      List.take_prefix _ _, rfl, ?_, ?_⟩
    · intro hnil
      have hlen := congrArg List.length hnil
      rw [List.length_take, List.length_nil] at hlen
      omega
    · rw [hstep, hmem]
    · simp only [hmem]
      by_cases hopen : openIndex image (reportedChunk? (p.line.reply 1)) < n
      · have hs : ¬ step ≤ 3 := fun h => hstep.mp h hopen
        rw [if_pos hopen, closingFrame, if_neg hs]
        rfl
      · have hs : step ≤ 3 := hstep.mpr hopen
        rw [if_neg hopen, closingFrame, if_pos hs]
        rfl

/-- A programmer over a link that answers by a script. -/
def scripted (replies : List (Option Octets)) : Programmer Bench :=
  { line := { replies := replies } }

/-- The answers of a device that takes two bytes of a table at a time. -/
def twoByteReplies : List (Option Octets) :=
  [some [0xFB, 0x40, 7, 0, 0x01, 0x11],
    some [0x07, 0x41, 5, 0, 0x81, 0x11, 7, 2, 0, 0, 0],
    some [0xFD, 0x40, 7, 12, 0x01, 0x11], some [0xFD, 0x40, 7, 0, 0x01, 0x11],
    some [0xFF, 0x40, 7, 0, 0x01, 0x11],
    some [0x03, 0x41, 7, 12, 0x01, 0x11], some [0x03, 0x41, 7, 12, 0x01, 0x11],
    some [0x03, 0x41, 7, 0, 0x01, 0x11],
    some [0x05, 0x41, 5, 0, 0x81, 0x11, 7, 0xFF, 0xFF, 0xFF, 0xFF]]

/-- A table that does not go into whole blocks of two bytes. -/
def unevenTable : Image := ⟨7, [1, 2, 3], [4, 5]⟩

/-- With all answers the whole table is sent, block by block. Where they break off behind the first
block that is programmed, the second one is still sent, and programming is closed. -/
theorem table_session_trace_unevenTable :
    let begun : List Octets :=
      [[0xF8, 0x40, 7, 1, 0x11, 0x01], [0x06, 0x41, 7, 1, 0x11, 0x01],
        [0xFC, 0x40, 3, 0, 0x91, 0x01, 7, 1, 2], [0xFC, 0x40, 2, 0, 0x91, 0x01, 7, 3],
        [0xFE, 0x40, 7, 1, 0x11, 0x01],
        [0x02, 0x41, 3, 0, 0x91, 0x01, 7, 1, 2], [0x02, 0x41, 3, 0, 0x91, 0x01, 7, 3, 4]]
    let whole := (scripted twoByteReplies).program (fun _ => false) unevenTable
    let broken := (scripted (twoByteReplies.take 6)).program (fun _ => false) unevenTable
    (whole.1.toOption = some () ∧ whole.2.phase = .finished ∧ whole.2.line.replies = [] ∧
      whole.2.line.sent.map (·.bytes) =
        begun ++ [[0x02, 0x41, 2, 0, 0x91, 0x01, 7, 5], [0x04, 0x41, 7, 1, 0x11, 0x01]]) ∧
    broken.1.toOption = none ∧ broken.2.phase = .idle ∧
      broken.2.line.sent.map (·.bytes) = begun ++ [[0xFE, 0x40, 7, 0, 0x11, 0x01]] := by
  intro begun whole broken
  have hwhole : whole.1.toOption = some () := by decide +kernel
  have hbroken : broken.1.toOption = none := by decide +kernel
  have hclosed : broken.2.line.sent.map (·.bytes) = begun ++ [[0xFE, 0x40, 7, 0, 0x11, 0x01]] := by
    decide +kernel
  have htrace := table_session_trace (fun _ => false) (scripted twoByteReplies) unevenTable
  have hclosing :=
    table_session_trace (fun _ => false) (scripted (twoByteReplies.take 6)) unevenTable
  constructor
  · generalize hrun : (scripted twoByteReplies).program (fun _ => false) unevenTable = outcome
      at htrace
    obtain ⟨e | _, q⟩ := outcome
    · exact absurd hwhole (by simp [whole, hrun, Except.toOption])
    · obtain ⟨chunk, hchunk, rfl⟩ := htrace
      obtain rfl : 2 = chunk := Option.some.inj hchunk
      refine ⟨hwhole, ?_⟩
      simp only [whole, hrun]
      exact ⟨trivial, rfl, by decide +kernel⟩
  · generalize hrun : (scripted (twoByteReplies.take 6)).program (fun _ => false) unevenTable =
      outcome at hclosing
    obtain ⟨e | _, q⟩ := outcome
    · obtain ⟨made, step, -, -, -, -, rfl⟩ := hclosing
      exact ⟨hbroken, by simp only [broken, hrun], hclosed⟩
    · exact absurd hbroken (by simp [broken, hrun, Except.toOption])

end MotionRack.Lut
