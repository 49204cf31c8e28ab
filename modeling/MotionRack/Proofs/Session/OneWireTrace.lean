import MotionRack.Proofs.Session.OneWireBuffer

/-!
# The trace of a chip session

A chip session over a bench link is a prefix of the full request sequence and, after a
failure, a recovery that the step of the failure selects. Which attempt to leave the
mode ends the recovery is read off the reply slots that the session left over.
-/
namespace MotionRack.OneWire

open Exchange (transfers Accepted Ends)

/-- The piece size that a size reply gives, if it gives one: the reported word, and no
more than fits into a frame behind the slot and the reserved byte. -/
def reportedChunk? (reply : Option Octets) : Option Nat :=
  match Answer.data? reply with
  | some (b0 :: b1 :: _) =>
    let chunk := min (Octets.toNat [b0, b1]) 65527
    if chunk = 0 then none else some chunk
  | _ => none

/-- The frame to the motherboard that enters the mode for a slot, or leaves it. -/
def modeRequest (slot flag : UInt8) : Frame where
  command := Command.setOneWireProgramming
  destination := .motherboard
  source := .host
  body := .long [slot, 0, flag]

/-- The frame that asks for the size. -/
def sizeRequest : Frame where
  command := Command.requestOneWireSize
  destination := .motherboard
  source := .host
  body := .short 0 0

/-- The short form of the frame that leaves the mode. -/
def leaveRequest (slot : UInt8) : Frame where
  command := Command.setOneWireProgramming
  destination := .motherboard
  source := .host
  body := .short slot 0

/-- The transfers up to the size request. -/
def opening (slot : UInt8) : List Transfer := [(modeRequest slot 1).whole, sizeRequest.whole]

/-- The full sequence of transfers. Without a piece size it ends with the size request. -/
def sequence (slot : UInt8) (data : Octets) : Option Nat → List Transfer
  | none => opening slot
  | some chunk =>
    opening slot ++ (data.blocks chunk).map (fragment slot) ++ [(modeRequest slot 0).whole]

/-- The exchanges of a session, given the piece size that it will read. -/
def plan (slot : UInt8) (data : Octets) (chunk? : Option Nat) : List (Exchange Unit) :=
  enable slot :: requestSize.discard
    :: chunk?.elim [] fun chunk => sendImage slot data chunk ++ [(disable slot).discard]

theorem requestSize_verdict (reply : Option Octets) (chunk : Nat) :
    requestSize.verdict reply = .ok chunk ↔ reportedChunk? reply = some chunk := by
  rw [Exchange.verdict_eq_ok_iff, reportedChunk?]
  rcases Answer.data? reply with _ | data
  · simp
  · rcases data with _ | ⟨b0, _ | ⟨b1, rest⟩⟩
    case cons.cons =>
      simp only [requestSize, Answer.wordAt, maxPayload, lead, bind, Except.bind]
      by_cases h : Octets.toNat [b0, b1] = 0 <;> simp [h]
    all_goals simp [requestSize, Answer.wordAt, bind, Except.bind]

theorem reportedChunk?_le {reply : Option Octets} {chunk : Nat}
    (h : reportedChunk? reply = some chunk) : chunk ≤ maxPayload - lead := by
  unfold reportedChunk? at h
  split at h
  · dsimp only at h
    split at h
    · cases h
    · obtain rfl := Option.some.inj h
      exact Nat.min_le_right _ _
  · cases h

theorem plan_fits (slot : UInt8) (data : Octets) (chunk? : Option Nat) :
    ∀ x ∈ plan slot data chunk?, x.request.Fits := by
  intro x hx
  rcases List.mem_cons.mp hx with rfl | hx
  · trivial
  rcases List.mem_cons.mp hx with rfl | hx
  · trivial
  cases chunk? with
  | none => exact absurd hx List.not_mem_nil
  | some chunk =>
    rcases List.mem_append.mp hx with hx | hx
    · exact (sendImage_fits slot data chunk x hx).1
    · obtain rfl := List.mem_singleton.mp hx
      trivial

/-- What is handed to the link in a session that goes through. -/
theorem transfers_plan (slot : UInt8) (data : Octets) {chunk? : Option Nat}
    (hc : ∀ chunk, chunk? = some chunk → chunk ≤ maxPayload - lead) :
    transfers (plan slot data chunk?) = sequence slot data chunk? := by
  cases chunk? with
  | none => rfl
  | some chunk =>
    have himage := transfers_sendImage slot data (hc chunk rfl)
    rw [transfers] at himage
    simp only [plan, Option.elim, transfers, List.map_cons, List.map_append, himage, sequence,
      opening, List.map_nil, List.cons_append, List.nil_append]
    rfl

/-- A session is the sequence of exchanges that its size reply determines. -/
theorem run_eq_performAll (cancelled : Bench → Bool) (slot : UInt8) (data : Octets) (b : Bench) :
    ((run cancelled slot data b).1.map (fun _ => ()), (run cancelled slot data b).2) =
      Exchange.performAll cancelled (plan slot data (reportedChunk? (b.reply 1))) b := by
  have hreply : (b.after [(enable slot).request.transfer]).reply 0 = b.reply 1 :=
    Bench.reply_after b _ 0
  rw [run, plan, Exchange.performAll, ← hreply]
  cases hv : (enable slot).verdict (b.reply 0) with
  | error e =>
    rw [Exchange.perform_of_error cancelled (enable slot) trivial rfl hv]
    rfl
  | ok _ =>
    rw [Exchange.perform_of_ok cancelled (enable slot) trivial rfl hv]
    cases hw : requestSize.verdict ((b.after [(enable slot).request.transfer]).reply 0) with
    | error e =>
      have hsize := Exchange.perform_of_error cancelled requestSize trivial rfl hw
      simp only [hsize, Exchange.performAll_of_error hsize trivial]
      rfl
    | ok chunk =>
      have hsize := Exchange.perform_of_ok cancelled requestSize trivial rfl hw
      simp only [hsize, Exchange.performAll_of_ok hsize trivial, (requestSize_verdict _ _).mp hw,
        Option.elim]
      rcases himage : Exchange.performAll cancelled (sendImage slot data chunk)
          ((b.after [(enable slot).request.transfer]).after [requestSize.request.transfer])
        with ⟨e | _, mid⟩
      · rw [Exchange.performAll_append_of_error himage]
        rfl
      · rw [Exchange.performAll_append_of_ok himage]
        rcases hlast : (disable slot).perform cancelled mid with ⟨e | meaning, last⟩
        · rw [Exchange.performAll_of_error hlast trivial]
          simp only [hlast, Except.map]
        · rw [Exchange.performAll_of_ok hlast trivial]
          simp only [hlast, Except.map]
          rfl

/-! ### Where a session fails -/

/-- The first two exchanges and the last one are steps of their own and look at no
cancel request. All between them is step three. -/
theorem plan_getElem? {slot : UInt8} {data : Octets} {chunk? : Option Nat} {i : Nat}
    {x : Exchange Unit} (h : (plan slot data chunk?)[i]? = some x) :
    (i = 0 ∧ x.step = 1 ∧ x.interruptible = false) ∨
    (i = 1 ∧ x.step = 2 ∧ x.interruptible = false) ∨
    (2 ≤ i ∧ i + 1 < (plan slot data chunk?).length ∧ x.step = 3) ∨
    (2 ≤ i ∧ i + 1 = (plan slot data chunk?).length ∧ x.step = 4 ∧ x.interruptible = false) := by
  rcases i with _ | _ | i
  · obtain rfl : enable slot = x := Option.some.inj h
    exact Or.inl ⟨rfl, rfl, rfl⟩
  · obtain rfl : requestSize.discard = x := Option.some.inj h
    exact Or.inr (Or.inl ⟨rfl, rfl, rfl⟩)
  · cases chunk? with
    | none => simp [plan] at h
    | some chunk =>
      simp only [plan, Option.elim, List.getElem?_cons_succ, List.getElem?_append] at h
      have hlen : (plan slot data (some chunk)).length =
          (sendImage slot data chunk).length + 3 := by
        simp [plan]
      by_cases hlt : i < (sendImage slot data chunk).length
      · rw [if_pos hlt] at h
        have hstep := (sendImage_fits slot data chunk x (List.mem_of_getElem? h)).2
        exact Or.inr (Or.inr (Or.inl ⟨by omega, by omega, hstep⟩))
      · rw [if_neg hlt, List.getElem?_singleton] at h
        by_cases hz : i - (sendImage slot data chunk).length = 0
        · rw [if_pos hz] at h
          obtain rfl : (disable slot).discard = x := Option.some.inj h
          exact Or.inr (Or.inr (Or.inr ⟨by omega, by omega, rfl, rfl⟩))
        · rw [if_neg hz] at h
          cases h

/-- The step at which a session failed tells how many requests it had made. -/
theorem step_of_ends {cancelled : Bench → Bool} {b : Bench} {slot : UInt8} {data : Octets}
    {chunk? : Option Nat} {step : Nat} {e : ProgramError} {n : Nat}
    (h : Ends cancelled b (plan slot data chunk?) (.error ⟨step, e⟩) n) :
    n ≤ (plan slot data chunk?).length ∧
      ((step = 1 ∧ n = 1) ∨ (step = 2 ∧ n = 2) ∨
        (step = 3 ∧ 2 ≤ n ∧ n < (plan slot data chunk?).length) ∨
        (step = 4 ∧ 3 ≤ n ∧ n = (plan slot data chunk?).length)) := by
  cases h with
  | @refused i x e hx hacc hv =>
    have hlt := (List.getElem?_eq_some_iff.mp hx).1
    refine ⟨hlt, ?_⟩
    rcases plan_getElem? hx with ⟨hi, hs, _⟩ | ⟨hi, hs, _⟩ | ⟨hi, hj, hs⟩ | ⟨hi, hj, hs, _⟩
    · exact Or.inl ⟨hs, by omega⟩
    · exact Or.inr (Or.inl ⟨hs, by omega⟩)
    · exact Or.inr (Or.inr (Or.inl ⟨hs, by omega, hj⟩))
    · exact Or.inr (Or.inr (Or.inr ⟨hs, by omega, hj⟩))
  | @interrupted i x hx hacc hint hc =>
    have hlt := (List.getElem?_eq_some_iff.mp hx).1
    refine ⟨Nat.le_of_lt hlt, ?_⟩
    rcases plan_getElem? hx with ⟨_, _, hi⟩ | ⟨_, _, hi⟩ | ⟨hi, _, hs⟩ | ⟨_, _, _, hi⟩
    · exact Bool.noConfusion (hint.symm.trans hi)
    · exact Bool.noConfusion (hint.symm.trans hi)
    · exact Or.inr (Or.inr (Or.inl ⟨hs, hi, hlt⟩))
    · exact Bool.noConfusion (hint.symm.trans hi)

/-! ### Recovery -/

/-- What a recovery makes of the link that a failure at `step` left. An attempt to leave
the mode ends it as soon as its wait brings a frame; ten silent or malformed waits lead
to a restart, and so does a failure of the last step. -/
inductive Recovered (slot : UInt8) (mid : Bench) : Nat → Bench → Prop
  | unneeded : Recovered slot mid 1 mid
  | answered {step k : Nat} : step = 2 ∨ step = 3 → k < 10 →
      (∀ i < k, Answer.data? (mid.reply i) = none) →
      (Answer.data? (mid.reply k)).isSome = true →
      Recovered slot mid step (mid.after (List.replicate (k + 1) (leaveRequest slot).whole))
  | unanswered {step : Nat} : step = 2 ∨ step = 3 →
      (∀ i < 10, Answer.data? (mid.reply i) = none) →
      Recovered slot mid step (mid.after (List.replicate 10 (leaveRequest slot).whole)).restarted
  | restarted : Recovered slot mid 4 mid.restarted

theorem leave_verdict (slot : UInt8) (reply : Option Octets) :
    (∃ e, (leave slot).verdict reply = .error e) ↔ Answer.data? reply = none := by
  have hok := Exchange.verdict_eq_ok_iff (leave slot) reply ()
  cases hv : (leave slot).verdict reply with
  | ok _ =>
    obtain ⟨data, hdata, _⟩ := hok.mp hv
    simp [hdata]
  | error e =>
    rw [hv] at hok
    cases hdata : Answer.data? reply with
    | none => simp
    | some data => exact absurd (hok.mpr ⟨data, hdata, rfl⟩) (by simp)

/-- The retry loop in closed form: it ends with the first wait that brings a frame, or
after all its attempts. -/
theorem tryLeave_bench (slot : UInt8) (attempts : Nat) (b : Bench) :
    (∃ k < attempts, (∀ i < k, Answer.data? (b.reply i) = none) ∧
      (Answer.data? (b.reply k)).isSome = true ∧
      tryLeave slot attempts b =
        (true, b.after (List.replicate (k + 1) (leaveRequest slot).whole))) ∨
    ((∀ i < attempts, Answer.data? (b.reply i) = none) ∧
      tryLeave slot attempts b =
        (false, b.after (List.replicate attempts (leaveRequest slot).whole))) := by
  induction attempts generalizing b with
  | zero =>
    refine Or.inr ⟨fun i hi => absurd hi (Nat.not_lt_zero i), ?_⟩
    rw [tryLeave, List.replicate_zero, Bench.after_nil]
  | succ attempts ih =>
    have hask := Exchange.ask_bench (leave slot) trivial b
    have hiff := leave_verdict slot (b.reply 0)
    rw [tryLeave]
    cases hv : (leave slot).verdict (b.reply 0) with
    | ok _ =>
      rw [hv] at hask hiff
      refine Or.inl ⟨0, Nat.zero_lt_succ _, fun i hi => absurd hi (Nat.not_lt_zero i), ?_, ?_⟩
      · rw [Option.isSome_iff_ne_none]
        intro hnone
        obtain ⟨e, he⟩ := hiff.mpr hnone
        cases he
      · rw [hask]
        rfl
    | error e =>
      rw [hv] at hask hiff
      have hzero : Answer.data? (b.reply 0) = none := hiff.mp ⟨e, rfl⟩
      have hshift : ∀ i, (b.after [(leaveRequest slot).whole]).reply i = b.reply (i + 1) := by
        intro i
        rw [Bench.reply_after, List.length_singleton, Nat.add_comm]
      have hmore : ∀ k, (b.after [(leaveRequest slot).whole]).after
          (List.replicate k (leaveRequest slot).whole) =
          b.after (List.replicate (k + 1) (leaveRequest slot).whole) := by
        intro k
        rw [Bench.after_after]
        rfl
      have hfirst : ∀ k, (∀ i < k, Answer.data? (b.reply (i + 1)) = none) →
          ∀ i < k + 1, Answer.data? (b.reply i) = none := by
        intro k hk i hi
        cases i with
        | zero => exact hzero
        | succ i => exact hk i (by omega)
      rw [hask]
      have hrest := ih (b.after [(leaveRequest slot).whole])
      simp only [hshift, hmore] at hrest
      rcases hrest with ⟨k, hk, hnone, hsome, heq⟩ | ⟨hnone, heq⟩
      · exact Or.inl ⟨k + 1, by omega, hfirst k hnone, hsome, heq⟩
      · exact Or.inr ⟨hfirst attempts hnone, heq⟩

/-- Recovery does what its description says, for every step at which a session fails. -/
theorem recovered_recover (slot : UInt8) {step : Nat} (hstep : 1 ≤ step ∧ step ≤ 4)
    (mid : Bench) : Recovered slot mid step (recover slot step mid) := by
  rw [recover]
  by_cases hretry : step = 2 ∨ step = 3
  · rw [if_pos hretry, disableAttempts]
    rcases tryLeave_bench slot 10 mid with ⟨k, hk, hnone, hsome, heq⟩ | ⟨hnone, heq⟩
    · rw [heq]
      exact .answered hretry hk hnone hsome
    · rw [heq]
      exact .unanswered hretry hnone
  · rw [if_neg hretry]
    by_cases hlast : step = 4
    · rw [if_pos hlast, hlast]
      exact .restarted
    · rw [if_neg hlast]
      obtain rfl : step = 1 := by omega
      exact .unneeded

/-! ### The trace -/

theorem length_plan (slot : UInt8) (data : Octets) {chunk? : Option Nat}
    (hc : ∀ chunk, chunk? = some chunk → chunk ≤ maxPayload - lead) :
    (plan slot data chunk?).length = (sequence slot data chunk?).length := by
  rw [← transfers_plan slot data hc, transfers, List.length_map]

/-- A session leaves the link after a prefix of the full sequence, each transfer of it
with its reply slot. -/
theorem run_ends (cancelled : Bench → Bool) (slot : UInt8) (data : Octets) (b : Bench) :
    ∃ n, Ends cancelled b (plan slot data (reportedChunk? (b.reply 1)))
        ((run cancelled slot data b).1.map fun _ => ()) n ∧
      (run cancelled slot data b).2 =
        b.after ((sequence slot data (reportedChunk? (b.reply 1))).take n) := by
  obtain ⟨n, hends, hline⟩ := Exchange.performAll_ends cancelled
    (plan slot data (reportedChunk? (b.reply 1))) (plan_fits slot data _) b
  rw [← run_eq_performAll] at hends hline
  refine ⟨n, hends, hline.trans ?_⟩
  rw [← transfers_plan slot data fun _ => reportedChunk?_le, transfers, transfers, List.map_take]

/-- A session that fails has made a non-empty prefix of the full sequence, which the
step of its failure bounds. -/
theorem run_failed {cancelled : Bench → Bool} {slot : UInt8} {data : Octets} {b mid : Bench}
    {step : Nat} {e : ProgramError} (h : run cancelled slot data b = (.error ⟨step, e⟩, mid)) :
    ∃ made, made <+: sequence slot data (reportedChunk? (b.reply 1)) ∧ mid = b.after made ∧
      ((step = 1 ∧ made.length = 1) ∨ (step = 2 ∧ made.length = 2) ∨
        (step = 3 ∧ 2 ≤ made.length ∧
          made.length < (sequence slot data (reportedChunk? (b.reply 1))).length) ∨
        (step = 4 ∧ 3 ≤ made.length ∧
          made = sequence slot data (reportedChunk? (b.reply 1)))) := by
  obtain ⟨n, hends, hline⟩ := run_ends cancelled slot data b
  rw [h] at hends hline
  obtain ⟨hn, hstep⟩ := step_of_ends hends
  rw [length_plan slot data fun _ => reportedChunk?_le] at hn hstep
  have htake : ((sequence slot data (reportedChunk? (b.reply 1))).take n).length = n :=
    List.length_take_of_le hn
  refine ⟨_, List.take_prefix n _, hline, ?_⟩
  rw [htake]
  rcases hstep with hs | hs | hs | ⟨hs, hlo, hall⟩
  · exact Or.inl hs
  · exact Or.inr (Or.inl hs)
  · exact Or.inr (Or.inr (Or.inl hs))
  · exact Or.inr (Or.inr (Or.inr ⟨hs, hlo, List.take_of_length_le (by omega)⟩))

theorem length_sequence (slot : UInt8) (data : Octets) (chunk : Nat) :
    (sequence slot data (some chunk)).length = (data.blocks chunk).length + 3 := by
  simp [sequence, opening]

/-- A session that goes through has read a piece size and made the full sequence. -/
theorem run_ok {cancelled : Bench → Bool} {slot : UInt8} {data : Octets} {b last : Bench}
    {meaning : StatusMeaning} (h : run cancelled slot data b = (.ok meaning, last)) :
    ∃ chunk, reportedChunk? (b.reply 1) = some chunk ∧
      last = b.after (sequence slot data (some chunk)) := by
  obtain ⟨n, hends, hline⟩ := run_ends cancelled slot data b
  rw [h] at hends hline
  cases hends with
  | completed hacc =>
    obtain ⟨chunk, hv⟩ := Exchange.exists_verdict_of_discard (hacc 1 requestSize.discard rfl)
    have hchunk := (requestSize_verdict _ _).mp hv
    rw [length_plan slot data fun _ => reportedChunk?_le, List.take_length, hchunk] at hline
    exact ⟨chunk, hchunk, hline⟩

/-- A session that goes through makes exactly the full sequence of transfers, each with
its reply slot, and no restart. One that fails makes a non-empty prefix of it: the first
transfer alone at step one, all of it at step four. The recovery which its step selects
follows, and nothing else. -/
theorem chip_session_trace (cancelled : Bench → Bool) (p : Programmer Bench) (slot : UInt8)
    (data : Octets) :
    match p.program cancelled slot data with
    | (.ok _, q) =>
      ∃ chunk, reportedChunk? (p.line.reply 1) = some chunk ∧
        q = ⟨p.line.after (sequence slot data (some chunk)), .done⟩
    | (.error e, q) =>
      ∃ (made : List Transfer) (step : Nat), made ≠ [] ∧
        made <+: sequence slot data (reportedChunk? (p.line.reply 1)) ∧
        run cancelled slot data p.line = (.error ⟨step, e⟩, p.line.after made) ∧
        (step = 1 ↔ made.length = 1) ∧
        (step = 4 ↔ ∃ chunk, reportedChunk? (p.line.reply 1) = some chunk ∧
          made = sequence slot data (some chunk)) ∧
        Recovered slot (p.line.after made) step q.line ∧ q.phase = .idle := by
  rw [Programmer.program, OneWire.program]
  rcases hrun : run cancelled slot data p.line with ⟨⟨step, e⟩ | meaning, mid⟩
  · obtain ⟨made, hpre, rfl, hstep⟩ := run_failed hrun
    have hpos : 1 ≤ made.length ∧ 1 ≤ step ∧ step ≤ 4 ∧ (step = 1 ↔ made.length = 1) := by
      omega
    refine ⟨made, step, ?_, hpre, rfl, hpos.2.2.2, ?_, ?_, rfl⟩
    · intro hnil
      rw [hnil] at hpos
      exact absurd hpos.1 (by decide)
    · constructor
      · intro hfour
        obtain ⟨hlen, hmade⟩ : 3 ≤ made.length ∧
            made = sequence slot data (reportedChunk? (p.line.reply 1)) := by
          rcases hstep with h | h | h | h
          · omega
          · omega
          · omega
          · exact h.2
        cases hchunk : reportedChunk? (p.line.reply 1) with
        | none =>
          rw [hmade, hchunk] at hlen
          exact absurd (show 3 ≤ 2 from hlen) (by decide)
        | some chunk => exact ⟨chunk, rfl, hmade.trans (by rw [hchunk])⟩
      · rintro ⟨chunk, hchunk, hmade⟩
        have hlen := length_sequence slot data chunk
        rw [hchunk, ← hmade] at hstep
        rw [← hmade] at hlen
        omega
    · exact recovered_recover slot ⟨hpos.2.1, hpos.2.2.1⟩ _
  · obtain ⟨chunk, hchunk, rfl⟩ := run_ok hrun
    exact ⟨chunk, hchunk, rfl⟩

/-- A programmer over a link that answers by a script. -/
def scripted (replies : List (Option Octets)) : Programmer Bench :=
  { line := { replies := replies } }

/-- The answers of a device that takes three bytes of an image at a time. -/
def threeByteReplies : List (Option Octets) :=
  [some [0xEE, 0x40, 3, 0, 0x81, 0x01, 1, 0, 0], some [0xF0, 0x40, 3, 0, 0x01, 0x01],
    some [0xF1, 0x40, 3, 0, 0x81, 0x01, 1, 0, 0], some [0xF1, 0x40, 3, 0, 0x81, 0x01, 1, 0, 0],
    some [0xEE, 0x40, 3, 0, 0x81, 0x01, 1, 0, 0]]

/-- Its answer to a piece that it cannot take, and what three attempts to leave the mode then bring:
nothing, half a frame, and a frame. -/
def refusingReplies : List (Option Octets) :=
  [some [0xF1, 0x40, 3, 0, 0x81, 0x01, 1, 0, 4], none, some [0xEE, 0x40, 3],
    some [0xEE, 0x40, 3, 0, 0x81, 0x01, 1, 0, 0]]

/-- With all answers the whole image is sent, and the mode is left. After a piece that is refused,
it is left in short form with the third attempt. A device that falls silent once the mode is entered
is asked ten times, and then the controller starts over. -/
theorem chip_session_trace_threeByteReplies :
    let entered : List Octets :=
      [[0xEC, 0x40, 3, 0, 0x91, 0x01, 1, 0, 1], [0xF0, 0x40, 0, 0, 0x11, 0x01]]
    let piece : Octets := [0xEF, 0x40, 5, 0, 0x91, 0x01, 1, 0, 1, 2, 3]
    let leave : Octets := [0xEC, 0x40, 1, 0, 0x11, 0x01]
    let whole := (scripted threeByteReplies).program (fun _ => false) 1 [1, 2, 3, 4, 5]
    let refused := (scripted (threeByteReplies.take 2 ++ refusingReplies)).program (fun _ => false)
      1 [1, 2, 3, 4, 5]
    let mute := (scripted (threeByteReplies.take 1)).program (fun _ => false) 1 [1, 2, 3, 4, 5]
    (whole.1.toOption = some .programmed ∧ whole.2.phase = .done ∧ whole.2.line.restarts = 0 ∧
      whole.2.line.sent.map (·.bytes) =
        entered ++ [piece, [0xEF, 0x40, 4, 0, 0x91, 0x01, 1, 0, 4, 5],
          [0xEC, 0x40, 3, 0, 0x91, 0x01, 1, 0, 0]]) ∧
    (refused.1.toOption = none ∧ refused.2.phase = .idle ∧ refused.2.line.restarts = 0 ∧
      refused.2.line.sent.map (·.bytes) = entered ++ [piece, leave, leave, leave]) ∧
    mute.1.toOption = none ∧ mute.2.phase = .idle ∧ mute.2.line.restarts = 1 ∧
      mute.2.line.sent.map (·.bytes) =
        entered ++ List.replicate 10 leave ++ [[0x0B, 0x40, 1, 0, 0x11, 0x01]] := by
  intro entered piece leave whole refused mute
  have hwhole : whole.1.toOption = some .programmed := by decide +kernel
  have hrefused : refused.1.toOption = none ∧ refused.2.line.restarts = 0 ∧
      refused.2.line.sent.map (·.bytes) = entered ++ [piece, leave, leave, leave] := by
    decide +kernel
  have hmute : mute.1.toOption = none ∧ mute.2.line.restarts = 1 ∧
      mute.2.line.sent.map (·.bytes) =
        entered ++ List.replicate 10 leave ++ [[0x0B, 0x40, 1, 0, 0x11, 0x01]] := by
    decide +kernel
  have hidle : ∀ replies, ((scripted replies).program (fun _ => false) 1
      [1, 2, 3, 4, 5]).1.toOption = none →
      ((scripted replies).program (fun _ => false) 1 [1, 2, 3, 4, 5]).2.phase = .idle := by
    intro replies hfails
    have htrace := chip_session_trace (fun _ => false) (scripted replies) 1 [1, 2, 3, 4, 5]
    generalize (scripted replies).program (fun _ => false) 1 [1, 2, 3, 4, 5] = outcome
      at hfails htrace ⊢
    obtain ⟨e | meaning, q⟩ := outcome
    · obtain ⟨made, step, -, -, -, -, -, -, hphase⟩ := htrace
      exact hphase
    · cases hfails
  refine ⟨⟨hwhole, ?_⟩, ?_, ?_⟩
  · have htrace := chip_session_trace (fun _ => false) (scripted threeByteReplies) 1 [1, 2, 3, 4, 5]
    generalize hrun : (scripted threeByteReplies).program (fun _ => false) 1 [1, 2, 3, 4, 5] =
      outcome at htrace
    obtain ⟨e | meaning, q⟩ := outcome
    · exact absurd hwhole (by simp [whole, hrun, Except.toOption])
    · obtain ⟨chunk, hchunk, rfl⟩ := htrace
      obtain rfl : 3 = chunk := Option.some.inj hchunk
      simp only [whole, hrun]
      exact ⟨trivial, rfl, by decide +kernel⟩
  · exact ⟨hrefused.1, hidle _ hrefused.1, hrefused.2⟩
  · exact ⟨hmute.1, hidle _ hmute.1, hmute.2⟩

end MotionRack.OneWire
