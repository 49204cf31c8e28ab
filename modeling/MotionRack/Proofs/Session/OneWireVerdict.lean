import Mathlib.Algebra.Order.Floor.Div
import MotionRack.Proofs.Session.OneWireImage
import MotionRack.Proofs.Session.OneWireRecovery
import MotionRack.Proofs.Session.Rules

/-!
# The reply that decides a chip session

How many requests a chip session makes depends on the reported size and on the length of its image.
Each of them has its rule, and the session goes through exactly if every reply slot keeps the rule
of its request. Otherwise the first one that does not gives the error. What comes behind it reaches
only the recovery, and no piece of the image is sent after the request that it answers.
-/
namespace MotionRack.OneWire

open Rule (Governs Kept BrokenAt)

/-! ### The rules -/

/-- The rule for entering the mode: a status of zero in the third data byte. -/
def enableRule : Rule := .status 2 1 [0] enableOutcome

/-- The rule for the size: a word in the first two data bytes that is not zero. -/
def sizeRule : Rule :=
  .reading 2 (Answer.word? 2 · 0) (· ≠ 0) fun _ => .status 2 0 .zeroImageChunk

/-- The rule for a piece of the image. -/
def pieceRule : Rule := .status 2 3 [0] chunkOutcome

/-- The rule for leaving the mode. -/
def disableRule : Rule := .status 2 4 [0, 4] fun status => (disableOutcome status).1

/-- The rules of a session, one for each request. Without a piece size they end with the one for the
size. -/
def rules (data : Octets) : Option Nat → List Rule
  | none => [enableRule, sizeRule]
  | some chunk =>
    enableRule :: sizeRule :: (List.replicate (data.length ⌈/⌉ chunk) pieceRule ++ [disableRule])

/-! ### The exchanges follow them -/

theorem disableOutcome_eq_true_iff (status : UInt8) :
    (disableOutcome status).2 = true ↔ status ∈ [0, 4] := by
  unfold disableOutcome
  split <;> simp_all

/-- How the answer to the last request is read: by the status in its third data byte. -/
theorem disable_accept (slot : UInt8) (data : Octets) :
    (disable slot).accept data = data[2]?.elim (.error (.link (.malformed .replyTooShort)))
      fun status => if status ∈ [0, 4] then .ok (disableOutcome status).1
        else .error (.status 4 status (disableOutcome status).1) := by
  change (Answer.byteAt data 2 >>= _) = _
  rw [Answer.byteAt_eq]
  cases data[2]? with
  | none => rfl
  | some status =>
    exact if_congr (disableOutcome_eq_true_iff status) rfl rfl

theorem governs_disableRule (slot : UInt8) : Governs disableRule (disable slot).discard := by
  refine Rule.governs_status rfl fun data => ?_
  change ((disable slot).accept data).map _ = _
  rw [Answer.expectStatus_eq, disable_accept]
  cases data[2]? with
  | none => rfl
  | some status =>
    simp only [Option.elim]
    split <;> rfl

theorem governs_sizeRule : Governs sizeRule requestSize.discard := by
  refine Rule.governs_reading 2 _ _ _ rfl fun data => ?_
  change (Answer.wordAt 2 data 0 >>= _).map _ = _
  rw [Answer.wordAt_eq (by decide)]
  cases Answer.word? 2 data 0 with
  | none => rfl
  | some size =>
    have hlimit : min size (maxPayload - lead) = 0 ↔ ¬ size ≠ 0 := by
      rw [show maxPayload - lead = 65527 from rfl]
      omega
    change (if min size (maxPayload - lead) = 0 then _ else _ : Except _ _).map _ = _
    simp only [hlimit, Option.elim]
    split_ifs <;> rfl

theorem governs_sendPieces (buffer : Octets) (pieces : List Octets) :
    List.Forall₂ Governs (List.replicate pieces.length pieceRule) (sendPieces buffer pieces) := by
  induction pieces generalizing buffer with
  | nil => exact .nil
  | cons piece rest ih =>
    refine .cons ?_ (ih (fill buffer piece))
    exact Rule.governs_status rfl fun _ => rfl

/-- The requests of a session have the rules of a session, one by one. -/
theorem governs_plan (slot : UInt8) (data : Octets) (chunk? : Option Nat) :
    List.Forall₂ Governs (rules data chunk?) (plan slot data chunk?) := by
  have henable : Governs enableRule (enable slot) := Rule.governs_status rfl fun _ => rfl
  cases chunk? with
  | none => exact .cons henable (.cons governs_sizeRule .nil)
  | some chunk =>
    refine .cons henable (.cons governs_sizeRule ?_)
    have hpieces := governs_sendPieces (buffer slot chunk) (data.pieces chunk)
    rw [Octets.length_pieces] at hpieces
    exact List.rel_append hpieces (.cons (governs_disableRule slot) .nil)

/-! ### What the rules ask of the reply slots -/

theorem answers_status_iff {step : Nat} {granting : List UInt8}
    {meaning : UInt8 → StatusMeaning} {reply : Option Octets} :
    (Rule.status 2 step granting meaning).Answers reply ↔
      ∃ status ∈ granting, status? reply = some status := by
  simp only [Rule.Answers, Rule.status, Rule.reading, status?, Option.bind_eq_some_iff]
  grind

theorem answers_sizeRule_iff {reply : Option Octets} :
    sizeRule.Answers reply ↔ ∃ size, reportedSize? reply = some size ∧ size ≠ 0 := by
  simp only [Rule.Answers, sizeRule, Rule.reading, reportedSize?, Option.bind_eq_some_iff]
  grind

theorem getElem?_rules (data : Octets) (chunk i : Nat) :
    (rules data (some chunk))[2 + i]? =
      if i < data.length ⌈/⌉ chunk then some pieceRule
      else if i = data.length ⌈/⌉ chunk then some disableRule else none := by
  rw [Nat.add_comm]
  change (List.replicate (data.length ⌈/⌉ chunk) pieceRule ++ [disableRule])[i]? = _
  rw [List.getElem?_append, List.length_replicate]
  split
  · next hlt => rw [List.getElem?_replicate, if_pos hlt]
  · next hge =>
    rw [List.getElem?_singleton]
    exact if_congr (by omega) rfl rfl

/-- The rules of a session by the requests that they are for. -/
theorem kept_rules_iff {data : Octets} {chunk : Nat} {b : Bench} :
    Kept (rules data (some chunk)) b ↔
      enableRule.Answers (b.reply 0) ∧ sizeRule.Answers (b.reply 1) ∧
        (∀ i < data.length ⌈/⌉ chunk, pieceRule.Answers (b.reply (2 + i))) ∧
        disableRule.Answers (b.reply (2 + data.length ⌈/⌉ chunk)) := by
  constructor
  · intro h
    refine ⟨h 0 _ rfl, h 1 _ rfl, fun i hi => h (2 + i) _ ?_, h _ _ ?_⟩
    · rw [getElem?_rules, if_pos hi]
    · rw [getElem?_rules, if_neg (Nat.lt_irrefl _), if_pos rfl]
  · rintro ⟨henable, hsize, hpieces, hdisable⟩ i r hr
    match i with
    | 0 =>
      obtain rfl := Option.some.inj hr
      exact henable
    | 1 =>
      obtain rfl := Option.some.inj hr
      exact hsize
    | i + 2 =>
      rw [Nat.add_comm, getElem?_rules] at hr
      rw [Nat.add_comm]
      split at hr
      · next hi =>
        obtain rfl := Option.some.inj hr
        exact hpieces i hi
      · split at hr
        · next hlast =>
          subst hlast
          obtain rfl := Option.some.inj hr
          exact hdisable
        · cases hr

/-- The reply slots that keep the rules of their session: the size among them tells how many there
are. -/
theorem kept_iff {data : Octets} {b : Bench} :
    Kept (rules data (reportedChunk? (b.reply 1))) b ↔
      ∃ size status, status? (b.reply 0) = some 0 ∧ reportedSize? (b.reply 1) = some size ∧
        size ≠ 0 ∧ (∀ i < data.length ⌈/⌉ min size 65527, status? (b.reply (2 + i)) = some 0) ∧
        status? (b.reply (2 + data.length ⌈/⌉ min size 65527)) = some status ∧
        (status = 0 ∨ status = 4) := by
  have henable : ∀ reply, enableRule.Answers reply ↔ status? reply = some 0 := fun reply => by
    simp [enableRule, answers_status_iff]
  have hpiece : ∀ reply, pieceRule.Answers reply ↔ status? reply = some 0 := fun reply => by
    simp [pieceRule, answers_status_iff]
  have hdisable : ∀ reply, disableRule.Answers reply ↔
      ∃ status, status? reply = some status ∧ (status = 0 ∨ status = 4) := fun reply => by
    simp [disableRule, answers_status_iff, or_and_right, and_comm]
  constructor
  · intro h
    -- The rule for the size is among those of the session whether or not there is a size.
    have hsize : sizeRule.Answers (b.reply 1) := by
      refine h 1 sizeRule ?_
      cases reportedChunk? (b.reply 1) <;> rfl
    obtain ⟨size, hreported, hne⟩ := answers_sizeRule_iff.mp hsize
    rw [reportedChunk?_eq hreported (Nat.pos_of_ne_zero hne), kept_rules_iff] at h
    simp only [henable, hpiece, hdisable] at h
    obtain ⟨hfirst, -, hpieces, status, hlast, hgranted⟩ := h
    exact ⟨size, status, hfirst, hreported, hne, hpieces, hlast, hgranted⟩
  · rintro ⟨size, status, hfirst, hreported, hne, hpieces, hlast, hgranted⟩
    rw [reportedChunk?_eq hreported (Nat.pos_of_ne_zero hne), kept_rules_iff]
    simp only [henable, hpiece, hdisable]
    exact ⟨hfirst, answers_sizeRule_iff.mpr ⟨size, hreported, hne⟩, hpieces, status, hlast,
      hgranted⟩

/-! ### How a session ends -/

theorem disable_verdict_iff {slot : UInt8} {reply : Option Octets} {meaning : StatusMeaning} :
    (disable slot).verdict reply = .ok meaning ↔
      ∃ status, status? reply = some status ∧ (status = 0 ∨ status = 4) ∧
        meaning = (disableOutcome status).1 := by
  have haccept : ∀ data, (disable slot).accept data = .ok meaning ↔
      ∃ status, data[2]? = some status ∧ (status = 0 ∨ status = 4) ∧
        meaning = (disableOutcome status).1 := by
    intro data
    rw [disable_accept]
    cases data[2]? with
    | none => exact iff_of_false nofun (by simp)
    | some status =>
      simp only [Option.elim_some, List.mem_cons, List.not_mem_nil, or_false, Option.some.injEq]
      grind
  simp only [Exchange.verdict_eq_ok_iff, haccept, status?, Option.bind_eq_some_iff]
  grind

/-- What a session that goes through reports is read out of its last reply slot. -/
theorem disable_verdict_of_run {cancelled : Bench → Bool} {slot : UInt8} {data : Octets}
    {b last : Bench} {meaning : StatusMeaning} {chunk : Nat}
    (h : run cancelled slot data b = (.ok meaning, last))
    (hchunk : reportedChunk? (b.reply 1) = some chunk) :
    (disable slot).verdict (b.reply (2 + data.length ⌈/⌉ chunk)) = .ok meaning := by
  rw [run] at h
  rcases henable : (enable slot).perform cancelled b with ⟨_ | _, s⟩
  · rw [henable] at h
    cases h
  rw [henable] at h
  obtain ⟨-, rfl⟩ := Exchange.perform_eq_ok henable trivial
  dsimp only at h
  rcases hsize : requestSize.perform cancelled (b.after [(enable slot).request.transfer])
    with ⟨_ | size, s⟩
  · rw [hsize] at h
    cases h
  rw [hsize] at h
  obtain ⟨hverdict, rfl⟩ := Exchange.perform_eq_ok hsize trivial
  rw [requestSize_verdict, Bench.reply_after] at hverdict
  obtain rfl : chunk = size := Option.some.inj (hchunk.symm.trans hverdict)
  dsimp only at h
  rw [Bench.after_after] at h
  rcases himage : Exchange.performAll cancelled (sendImage slot data chunk)
    (b.after ([(enable slot).request.transfer] ++ [requestSize.request.transfer])) with ⟨_ | _, s⟩
  · rw [himage] at h
    cases h
  rw [himage] at h
  obtain ⟨-, rfl⟩ := Exchange.performAll_eq_ok himage
    fun x hx => (sendImage_fits slot data chunk x hx).1
  obtain ⟨hlast, -⟩ := Exchange.perform_eq_ok h trivial
  rw [Bench.after_after, Bench.reply_after,
    transfers_sendImage slot data (reportedChunk?_le hchunk)] at hlast
  have hplace : ([(enable slot).request.transfer] ++ [requestSize.request.transfer] ++
      (data.blocks chunk).map (fragment slot)).length = 2 + data.length ⌈/⌉ chunk := by
    rw [List.length_append, List.length_map, Octets.length_blocks]
    rfl
  rwa [hplace] at hlast

theorem run_of_kept (slot : UInt8) {data : Octets} {b : Bench}
    (h : Kept (rules data (reportedChunk? (b.reply 1))) b) :
    ∃ meaning, (run (fun _ => false) slot data b).1 = .ok meaning := by
  have hall := Rule.performAll_of_kept (governs_plan slot data _) (plan_fits slot data _) h
  rw [← run_eq_performAll] at hall
  have hok := congrArg Prod.fst hall
  cases hrun : (run (fun _ => false) slot data b).1 with
  | error failure =>
    rw [hrun] at hok
    cases hok
  | ok meaning => exact ⟨meaning, rfl⟩

/-- A session ends with the first reply slot that breaks its rule. -/
theorem run_of_brokenAt (slot : UInt8) {data : Octets} {b : Bench} {i : Nat} {e : ProgramError}
    (h : BrokenAt (rules data (reportedChunk? (b.reply 1))) b i e) :
    ∃ step, run (fun _ => false) slot data b = (.error ⟨step, e⟩,
      b.after ((sequence slot data (reportedChunk? (b.reply 1))).take (i + 1))) := by
  obtain ⟨r, -, -, hbroken⟩ :=
    Rule.performAll_of_brokenAt (governs_plan slot data _) (plan_fits slot data _) h
  rw [← run_eq_performAll, Exchange.transfers, List.map_take, ← Exchange.transfers,
    transfers_plan slot data fun _ => reportedChunk?_le] at hbroken
  obtain ⟨hfailed, hline⟩ := Prod.mk.inj hbroken
  refine ⟨r.step, Prod.ext ?_ hline⟩
  cases hrun : (run (fun _ => false) slot data b).1 with
  | error failure =>
    rw [hrun] at hfailed
    exact congrArg _ (Except.error.inj hfailed)
  | ok meaning =>
    rw [hrun] at hfailed
    cases hfailed

/-- The reply slots of a session keep their rules, or one of them is the first that does not. -/
theorem kept_or_brokenAt (slot : UInt8) (data : Octets) (b : Bench) :
    Kept (rules data (reportedChunk? (b.reply 1))) b ∨
      ∃ i e, BrokenAt (rules data (reportedChunk? (b.reply 1))) b i e :=
  Rule.kept_or_brokenAt (governs_plan slot data _) (plan_fits slot data _)

theorem kept_of_run {slot : UInt8} {data : Octets} {b : Bench} {meaning : StatusMeaning}
    (h : (run (fun _ => false) slot data b).1 = .ok meaning) :
    Kept (rules data (reportedChunk? (b.reply 1))) b := by
  rcases kept_or_brokenAt slot data b with hkept | ⟨i, e, hbroken⟩
  · exact hkept
  · obtain ⟨step, hrun⟩ := run_of_brokenAt slot hbroken
    rw [hrun] at h
    cases h

theorem exists_brokenAt_of_run {slot : UInt8} {data : Octets} {b : Bench} {step : Nat}
    {e : ProgramError} (h : (run (fun _ => false) slot data b).1 = .error ⟨step, e⟩) :
    ∃ i, BrokenAt (rules data (reportedChunk? (b.reply 1))) b i e := by
  rcases kept_or_brokenAt slot data b with hkept | ⟨i, e', hbroken⟩
  · obtain ⟨meaning, hok⟩ := run_of_kept slot hkept
    cases hok.symm.trans h
  · obtain ⟨step', hrun⟩ := run_of_brokenAt slot hbroken
    rw [hrun] at h
    obtain ⟨-, rfl⟩ := SessionFailure.mk.inj (Except.error.inj h)
    exact ⟨i, hbroken⟩

/-- What a session that goes through reports is what the status in its last reply slot means. -/
theorem meaning_of_run {slot : UInt8} {data : Octets} {b : Bench} {meaning : StatusMeaning}
    {size : Nat} {status : UInt8} (h : (run (fun _ => false) slot data b).1 = .ok meaning)
    (hreported : reportedSize? (b.reply 1) = some size) (hne : size ≠ 0)
    (hlast : status? (b.reply (2 + data.length ⌈/⌉ min size 65527)) = some status) :
    meaning = (disableOutcome status).1 := by
  have hverdict := disable_verdict_of_run (Prod.ext h rfl)
    (reportedChunk?_eq hreported (Nat.pos_of_ne_zero hne))
  obtain ⟨status', hlast', -, hmeaning⟩ := disable_verdict_iff.mp hverdict
  obtain rfl := Option.some.inj (hlast.symm.trans hlast')
  exact hmeaning

/-- The fragments among the first requests of a session. Two requests come before them. -/
theorem filter_fragment_take_sequence (slot : UInt8) (data : Octets) (chunk? : Option Nat)
    (i : Nat) :
    ((sequence slot data chunk?).take (i + 1)).filter (·.fragment) =
      ((chunk?.elim [] fun chunk => data.blocks chunk).map (fragment slot)).take (i - 1) := by
  cases i with
  | zero => cases chunk? <;> rfl
  | succ i =>
    cases chunk? with
    | none => cases i <;> rfl
    | some chunk =>
      have hpieces : (((data.blocks chunk).map (fragment slot)).take i).filter (·.fragment) =
          ((data.blocks chunk).map (fragment slot)).take i := by
        refine List.filter_eq_self.mpr fun t ht => ?_
        obtain ⟨piece, -, rfl⟩ := List.mem_map.mp (List.mem_of_mem_take ht)
        rfl
      have hlast : ∀ n, ([(modeRequest slot 0).whole].take n).filter (·.fragment) = [] := by
        refine fun n => List.filter_eq_nil_iff.mpr fun t ht => ?_
        obtain rfl := List.mem_singleton.mp (List.mem_of_mem_take ht)
        exact Bool.false_ne_true
      change (((data.blocks chunk).map (fragment slot) ++
        [(modeRequest slot 0).whole]).take i).filter _ = _
      rw [List.take_append, List.filter_append, hpieces, hlast, List.append_nil]
      rfl

/-- A session that fails has sent no fragment behind the request which the failing slot answers. -/
theorem fragments_of_brokenAt {p : Programmer Bench} {slot : UInt8} {data : Octets} {i : Nat}
    {e : ProgramError}
    (h : BrokenAt (rules data (reportedChunk? (p.line.reply 1))) p.line i e) :
    fragmentsBetween p.line (p.program (fun _ => false) slot data).2.line =
      (((reportedChunk? (p.line.reply 1)).elim [] fun chunk => data.blocks chunk).map
        (fragment slot)).take (i - 1) := by
  obtain ⟨step, hrun⟩ := run_of_brokenAt slot h
  obtain ⟨_, _, _, hstep⟩ := run_failed hrun
  have hbounds : 1 ≤ step ∧ step ≤ 4 := by omega
  obtain ⟨more, hsent, hmore⟩ := (recovered_recover slot hbounds _).sent_eq
  rw [Programmer.program, OneWire.program, hrun, ← filter_fragment_take_sequence]
  exact fragmentsBetween_eq hsent hmore

theorem program_eq_ok_iff {cancelled : Bench → Bool} {p : Programmer Bench} {slot : UInt8}
    {data : Octets} {meaning : StatusMeaning} :
    (p.program cancelled slot data).1 = .ok meaning ↔
      (run cancelled slot data p.line).1 = .ok meaning := by
  rw [Programmer.program, OneWire.program]
  rcases run cancelled slot data p.line with ⟨_ | _, _⟩ <;> simp

theorem program_eq_error_iff {cancelled : Bench → Bool} {p : Programmer Bench} {slot : UInt8}
    {data : Octets} {e : ProgramError} :
    (p.program cancelled slot data).1 = .error e ↔
      ∃ step, (run cancelled slot data p.line).1 = .error ⟨step, e⟩ := by
  rw [Programmer.program, OneWire.program]
  rcases run cancelled slot data p.line with ⟨⟨step, e'⟩ | _, _⟩ <;> simp

end MotionRack.OneWire
