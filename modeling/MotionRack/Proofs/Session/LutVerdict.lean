import Mathlib.Data.List.Forall2
import MotionRack.Proofs.Session.LutTrace
import MotionRack.Proofs.Session.Rules

/-!
# The reply that decides a table session

Every request of a table session has its own rule for the reply. A session goes through exactly if
each request is answered as its rule asks; otherwise the first reply that breaks its rule decides
which error there is, and the step that the error names has also selected the frame that closes the
open window.
-/
namespace MotionRack.Lut

open Rule (Governs Kept BrokenAt)

/-! ### The rules -/

/-- The rule for opening a window: the second data byte is zero. -/
def openRule (step : Nat) : Rule := .status 1 step [0] fun _ => .badResponse

/-- The rule for the size: the low sixteen bits of the word behind the first data byte are not all
zero. -/
def sizeRule : Rule :=
  .reading 2 (Answer.word? 4 · 1) (· % 65536 ≠ 0) fun _ => .status 2 0 .zeroTableChunk

/-- The rule for a block of data: the second data byte is zero, or asks for more. -/
def blockRule (step : Nat) : Rule := .status 1 step [0, 12] fun _ => .badResponse

/-- The rule for finishing a table: the word behind the first data byte names no bad address. -/
def finishRule : Rule :=
  .reading 6 (Answer.word? 4 · 1) (· = 0xFFFFFFFF) fun address => .badAddress (UInt32.ofNat address)

/-- The rule for the requests of a command. -/
def ruleOf (command : CommandId) : Rule :=
  if command = Command.setLutInquiry then openRule 1
  else if command = Command.requestLutSize then sizeRule
  else if command = Command.inquireLut then blockRule 3
  else if command = Command.setLutProgramming then openRule 4
  else if command = Command.programLut then blockRule 5
  else finishRule

/-- The rules of a session, one for each request of the full sequence. -/
def rules (image : Image) (chunk? : Option Nat) : List Rule :=
  (sequence image chunk?).map fun f => ruleOf f.command

theorem namesOwnStep_ruleOf (command : CommandId) : (ruleOf command).NamesOwnStep := by
  have hopen : ∀ step, (openRule step).NamesOwnStep :=
    fun _ => Rule.namesOwnStep_reading fun _ => rfl
  have hblock : ∀ step, (blockRule step).NamesOwnStep :=
    fun _ => Rule.namesOwnStep_reading fun _ => rfl
  have hsize : sizeRule.NamesOwnStep := Rule.namesOwnStep_reading fun _ => rfl
  have hfinish : finishRule.NamesOwnStep := Rule.namesOwnStep_reading fun _ => rfl
  unfold ruleOf
  split_ifs
  · exact hopen 1
  · exact hsize
  · exact hblock 3
  · exact hopen 4
  · exact hblock 5
  · exact hfinish

/-! ### The exchanges follow them -/

theorem governs_sizeRule (table : UInt8) : Governs sizeRule (requestSize table).discard := by
  refine Rule.governs_reading 2 _ _ _ rfl fun data => ?_
  change (Answer.wordAt 4 data 1 >>= chunkSize).map (fun _ => ()) = _
  rw [Answer.wordAt_eq (by decide)]
  cases Answer.word? 4 data 1 with
  | none => rfl
  | some word =>
    have hlimit : min (word % 65536) (maxPayload - 1) = 0 ↔ ¬ word % 65536 ≠ 0 := by
      rw [show maxPayload - 1 = 65528 from rfl]
      omega
    change (chunkSize word).map (fun _ => ()) = _
    simp only [chunkSize, hlimit, Option.elim]
    split_ifs <;> rfl

theorem governs_finishRule (table : UInt8) : Governs finishRule (finish table) := by
  refine Rule.governs_reading 6 _ _ _ rfl fun data => ?_
  change (Answer.wordAt 4 data 1 >>= fun address => if address = noBadAddress then _ else _) = _
  rw [Answer.wordAt_eq (by decide)]
  cases Answer.word? 4 data 1 <;> rfl

theorem governs_sendData {command : CommandId} {step : Nat}
    (hrule : ruleOf command = blockRule step) (table : UInt8) (chunk : Nat) (data : Octets) :
    List.Forall₂ Governs ((data.blocks chunk).map fun block =>
      ruleOf (dataFrame command table block).command)
      (sendData step command table chunk data) := by
  rw [sendData, Octets.pieces_eq_blocks, List.forall₂_map_left_iff, List.forall₂_map_right_iff,
    List.forall₂_same]
  intro block _
  rw [dataFrame, hrule]
  exact Rule.governs_status rfl fun _ => rfl

/-- The requests of a session have the rules of a session, one by one. -/
theorem governs_plan (image : Image) (chunk? : Option Nat) :
    List.Forall₂ Governs (rules image chunk?) (plan image chunk?) := by
  have hinquiry : Governs (openRule 1) (beginInquiry image.table) :=
    Rule.governs_status rfl fun _ => rfl
  have hprogramming : Governs (openRule 4) (beginProgramming image.table) :=
    Rule.governs_status rfl fun _ => rfl
  have hopening := List.Forall₂.cons hinquiry (.cons (governs_sizeRule image.table) .nil)
  cases chunk? with
  | none => exact hopening
  | some chunk =>
    rw [plan_some, rules, sequence, inquirySequence, inquiryPlan, List.map_append, List.map_append,
      List.map_map, List.map_cons, List.map_append, List.map_map]
    refine List.rel_append (List.rel_append hopening ?_)
      (.cons hprogramming (List.rel_append ?_ ?_))
    · exact governs_sendData rfl image.table chunk image.inquiry
    · exact governs_sendData rfl image.table chunk (image.inquiry ++ image.payload)
    · exact .cons (governs_finishRule image.table) .nil

/-! ### How a session ends -/

theorem run_eq_ok_iff (b : Bench) (image : Image) :
    (run (fun _ => false) image b).1 = .ok () ↔
      Kept (rules image (reportedChunk? (b.reply 1))) b := by
  rw [run_eq_performAll, Exchange.performAll_eq_ok_iff (plan_fits image _)]
  exact Rule.accepted_iff_kept (governs_plan image _)

/-- A session ends with the first reply slot that breaks its rule. -/
theorem run_of_brokenAt {image : Image} {b : Bench} {i : Nat} {e : ProgramError}
    (h : BrokenAt (rules image (reportedChunk? (b.reply 1))) b i e) :
    ∃ command, (ruleOf command).Fails (b.reply i) e ∧
      (run (fun _ => false) image b).1 = .error ⟨(ruleOf command).step, e⟩ := by
  obtain ⟨r, hr, hfails, hrun⟩ :=
    Rule.performAll_of_brokenAt (governs_plan image _) (plan_fits image _) h
  obtain ⟨f, -, rfl⟩ := List.mem_map.mp hr
  exact ⟨f.command, hfails, by rw [run_eq_performAll, hrun]⟩

theorem exists_brokenAt_of_run {image : Image} {b : Bench} {failure : SessionFailure}
    (h : (run (fun _ => false) image b).1 = .error failure) :
    ∃ i, BrokenAt (rules image (reportedChunk? (b.reply 1))) b i failure.error := by
  rcases Rule.kept_or_brokenAt (governs_plan image _) (plan_fits image _) (b := b) with
    hkept | ⟨i, e, hbroken⟩
  · cases h.symm.trans ((run_eq_ok_iff b image).mpr hkept)
  · obtain ⟨command, -, hrun⟩ := run_of_brokenAt hbroken
    obtain rfl := Except.error.inj (h.symm.trans hrun)
    exact ⟨i, hbroken⟩

theorem program_of_run {p : Programmer Bench} {image : Image} {failure : SessionFailure}
    (h : (run (fun _ => false) image p.line).1 = .error failure) :
    (p.program (fun _ => false) image).1 = .error failure.error ∧
      (p.program (fun _ => false) image).2.line.sent.getLast? = some (switchFrame
        (if failure.step ≤ 3 then Command.setLutInquiry else Command.setLutProgramming)
        image.table 0).whole := by
  rw [Programmer.program, Lut.program]
  rcases hrun : run (fun _ => false) image p.line with ⟨_ | _, line⟩
  · rw [hrun] at h
    obtain rfl := Except.error.inj h
    exact ⟨rfl, List.getLast?_concat⟩
  · rw [hrun] at h
    cases h

theorem program_eq_ok_iff {p : Programmer Bench} {image : Image} :
    (p.program (fun _ => false) image).1 = .ok () ↔
      (run (fun _ => false) image p.line).1 = .ok () := by
  rw [Programmer.program, Lut.program]
  rcases run (fun _ => false) image p.line with ⟨_ | _, _⟩ <;> simp

end MotionRack.Lut
