import MotionRack.Proofs.Session.OneWireTrace

/-!
# Whether a failed chip session ends programming mode

A device that accepted the enable request stays in programming mode until it confirms a
request to leave it, or the controller is restarted. Recovery takes any frame for a
confirmation. The runs for which it is wrong about that are characterised here exactly.
-/
namespace MotionRack.OneWire

open Exchange (Ends)

/-- A request to leave the mode, in either of its two forms. -/
def IsLeaveRequest (slot : UInt8) (t : Transfer) : Prop :=
  t = (modeRequest slot 0).whole ∨ t = (leaveRequest slot).whole

/-- The status that an answer of the mode requests carries. -/
def status? (reply : Option Octets) : Option UInt8 := (Answer.data? reply).bind (·[2]?)

/-- Whether an answer reports that the mode was left. -/
def ConfirmsLeave (reply : Option Octets) : Prop :=
  ∃ status, status? reply = some status ∧ (status = 0 ∨ status = 4)

/-- The device left the mode between two states of the link: it confirmed a request made
after the first transfer, or the controller was restarted. -/
def ModeEnded (slot : UInt8) (b b' : Bench) : Prop :=
  (∃ made, b'.sent = b.sent ++ made ∧ ∃ exchange ∈ (b.dialogue made).tail,
    IsLeaveRequest slot exchange.1 ∧ ConfirmsLeave exchange.2) ∨
  b.restarts < b'.restarts

/-- The recovery of a session ended with a frame that does not report the mode left. -/
def Misread (cancelled : Bench → Bool) (slot : UInt8) (data : Octets) (b : Bench) : Prop :=
  ∃ step e mid k, run cancelled slot data b = (.error ⟨step, e⟩, mid) ∧
    (step = 2 ∨ step = 3) ∧ k < 10 ∧ (∀ i < k, Answer.data? (mid.reply i) = none) ∧
    (Answer.data? (mid.reply k)).isSome = true ∧ ¬ ConfirmsLeave (mid.reply k)

theorem not_confirmsLeave_of_none {reply : Option Octets} (h : Answer.data? reply = none) :
    ¬ ConfirmsLeave reply := by
  rintro ⟨status, hstatus, _⟩
  rw [status?, h] at hstatus
  cases hstatus

/-- A device that reports status zero has accepted the enable request. -/
theorem enable_verdict {slot : UInt8} {reply : Option Octets} (h : status? reply = some 0) :
    (enable slot).verdict reply = .ok () := by
  obtain ⟨data, hdata, hbyte⟩ := Option.bind_eq_some_iff.mp h
  refine (Exchange.verdict_eq_ok_iff _ _ _).mpr ⟨data, hdata, ?_⟩
  simp [enable, Answer.expectStatus, Answer.byteAt, hbyte, bind, Except.bind]

/-- Such a session does not fail at its first step. -/
theorem step_ne_one {cancelled : Bench → Bool} {slot : UInt8} {data : Octets} {b mid : Bench}
    {step : Nat} {e : ProgramError} (h : run cancelled slot data b = (.error ⟨step, e⟩, mid))
    (henabled : status? (b.reply 0) = some 0) : step ≠ 1 := by
  intro hone
  obtain ⟨n, hends, _⟩ := run_ends cancelled slot data b
  rw [h] at hends
  have hn := (step_of_ends hends).2
  cases hends with
  | @refused i x e hx hacc hv =>
    obtain rfl : i = 0 := by omega
    obtain rfl : enable slot = x := Option.some.inj hx
    rw [enable_verdict henabled] at hv
    cases hv
  | interrupted hx hacc hint hc =>
    rcases plan_getElem? hx with ⟨_, _, hi⟩ | ⟨_, hs, _⟩ | ⟨_, _, hs⟩ | ⟨_, _, hs, _⟩
    · exact Bool.noConfusion (hint.symm.trans hi)
    all_goals omega

/-! ### Requests to leave the mode before recovery -/

/-- Frames of one byte form have one command. -/
theorem command_of_whole_eq {f g : Frame} (h : f.whole = g.whole) :
    Octets.ofNat 2 f.command.toNat = Octets.ofNat 2 g.command.toNat :=
  congrArg (fun t => t.bytes.take 2) h

theorem not_isLeaveRequest_size (slot : UInt8) :
    ¬ IsLeaveRequest slot sizeRequest.whole := by
  have hcommand : Octets.ofNat 2 Command.requestOneWireSize.toNat ≠
      Octets.ofNat 2 Command.setOneWireProgramming.toNat := by
    decide
  rintro (h | h)
  · exact hcommand (command_of_whole_eq h)
  · exact hcommand (command_of_whole_eq h)

theorem not_isLeaveRequest_fragment (slot : UInt8) (piece : Octets) :
    ¬ IsLeaveRequest slot (fragment slot piece) := by
  rintro (h | h) <;> exact Bool.noConfusion (congrArg Transfer.fragment h)

/-- Between the enable request and the last transfer nothing asks to leave the mode. -/
theorem not_isLeaveRequest_of_mem_tail {slot : UInt8} {data : Octets} {chunk? : Option Nat}
    {made : List Transfer} (hpre : made <+: sequence slot data chunk?)
    (hlt : ∀ chunk, chunk? = some chunk → made.length < (sequence slot data chunk?).length) :
    ∀ t ∈ made.tail, ¬ IsLeaveRequest slot t := by
  have hsub : ∃ pieces : List Octets, made <+: opening slot ++ pieces.map (fragment slot) := by
    cases chunk? with
    | none => exact ⟨[], by simpa [sequence] using hpre⟩
    | some chunk =>
      refine ⟨data.blocks chunk, ?_⟩
      have hlen := hlt chunk rfl
      rw [sequence] at hpre hlen
      rw [List.length_append, List.length_singleton] at hlen
      exact List.prefix_of_prefix_length_le hpre (List.prefix_append _ _)
        (Nat.le_of_lt_succ hlen)
  obtain ⟨pieces, rest, hsub⟩ := hsub
  intro t ht
  have hmem : t ∈ (made ++ rest).tail := by
    rw [List.tail_append_of_ne_nil (List.ne_nil_of_mem (List.mem_of_mem_tail ht))]
    exact List.mem_append_left _ ht
  rw [hsub] at hmem
  simp only [opening, List.cons_append, List.nil_append, List.tail_cons, List.mem_cons,
    List.mem_map] at hmem
  rcases hmem with rfl | ⟨piece, _, rfl⟩
  · exact not_isLeaveRequest_size slot
  · exact not_isLeaveRequest_fragment slot piece

/-! ### Requests to leave the mode during recovery -/

theorem mem_dialogue_replicate {b : Bench} {n : Nat} {t : Transfer}
    {exchange : Transfer × Option Octets} :
    exchange ∈ b.dialogue (List.replicate n t) ↔ ∃ i < n, exchange = (t, b.reply i) := by
  induction n generalizing b with
  | zero => simp [Bench.dialogue]
  | succ n ih =>
    rw [List.replicate_succ, Bench.dialogue, List.mem_cons, ih]
    simp only [Bench.reply_after, List.length_singleton]
    constructor
    · rintro (rfl | ⟨i, hi, rfl⟩)
      · exact ⟨0, Nat.zero_lt_succ n, rfl⟩
      · exact ⟨i + 1, by omega, by rw [Nat.add_comm]⟩
    · rintro ⟨i, hi, rfl⟩
      cases i with
      | zero => exact Or.inl rfl
      | succ i => exact Or.inr ⟨i, by omega, by rw [Nat.add_comm]⟩

/-- After a recovery that a frame ended, the mode is left exactly if that frame says so. -/
theorem modeEnded_answered_iff {slot : UInt8} {b : Bench} {made : List Transfer} {k : Nat}
    (hne : made ≠ []) (hmade : ∀ t ∈ made.tail, ¬ IsLeaveRequest slot t)
    (hnone : ∀ i < k, Answer.data? ((b.after made).reply i) = none) :
    ModeEnded slot b ((b.after made).after (List.replicate (k + 1) (leaveRequest slot).whole)) ↔
      ConfirmsLeave ((b.after made).reply k) := by
  rw [Bench.after_after]
  have htail : (b.dialogue (made ++ List.replicate (k + 1) (leaveRequest slot).whole)).tail =
      (b.dialogue made).tail ++
        (b.after made).dialogue (List.replicate (k + 1) (leaveRequest slot).whole) := by
    rw [Bench.dialogue_append]
    exact List.tail_append_of_ne_nil (Bench.dialogue_ne_nil hne)
  constructor
  · rintro (⟨made', hsent, exchange, hmem, hleave, hconf⟩ | hrestart)
    · obtain rfl := List.append_cancel_left hsent
      rw [htail] at hmem
      rcases List.mem_append.mp hmem with hmem | hmem
      · exact absurd hleave (hmade exchange.1 (Bench.mem_tail_of_mem_dialogue hmem))
      · -- The attempts before the last one brought no frame that could confirm anything.
        obtain ⟨i, hi, rfl⟩ := mem_dialogue_replicate.mp hmem
        by_cases hk : i < k
        · exact absurd hconf (not_confirmsLeave_of_none (hnone i hk))
        · obtain rfl : i = k := by omega
          exact hconf
    · exact absurd hrestart (Nat.lt_irrefl _)
  · intro hconf
    refine Or.inl
      ⟨_, rfl, ((leaveRequest slot).whole, (b.after made).reply k), ?_, Or.inr rfl, hconf⟩
    rw [htail]
    exact List.mem_append_right _ (mem_dialogue_replicate.mpr ⟨k, Nat.lt_succ_self k, rfl⟩)

theorem modeEnded_restarted {slot : UInt8} {b : Bench} {made : List Transfer} :
    ModeEnded slot b (b.after made).restarted :=
  Or.inr (Nat.lt_succ_self b.restarts)

/-! ### The exact condition -/

theorem misread_iff {cancelled : Bench → Bool} {slot : UInt8} {data : Octets} {b mid : Bench}
    {step : Nat} {e : ProgramError} (h : run cancelled slot data b = (.error ⟨step, e⟩, mid)) :
    Misread cancelled slot data b ↔
      (step = 2 ∨ step = 3) ∧ ∃ k < 10, (∀ i < k, Answer.data? (mid.reply i) = none) ∧
        (Answer.data? (mid.reply k)).isSome = true ∧ ¬ ConfirmsLeave (mid.reply k) := by
  constructor
  · rintro ⟨step', e', mid', k, hrun, hstep, hk, hnone, hsome, hconf⟩
    rw [h] at hrun
    cases hrun
    exact ⟨hstep, k, hk, hnone, hsome, hconf⟩
  · rintro ⟨hstep, k, hk, hnone, hsome, hconf⟩
    exact ⟨step, e, mid, k, h, hstep, hk, hnone, hsome, hconf⟩

/-- There is one first wait that brings a frame. -/
theorem first_frame_unique {b : Bench} {i k : Nat}
    (hi : ∀ j < i, Answer.data? (b.reply j) = none) (hisome : (Answer.data? (b.reply i)).isSome)
    (hk : ∀ j < k, Answer.data? (b.reply j) = none) (hksome : (Answer.data? (b.reply k)).isSome) :
    i = k := by
  rcases Nat.lt_trichotomy i k with hlt | heq | hgt
  · rw [hk i hlt] at hisome
    cases hisome
  · exact heq
  · rw [hi k hgt] at hksome
    cases hksome

theorem modeEnded_recover_iff {cancelled : Bench → Bool} {slot : UInt8} {data : Octets}
    {b mid : Bench} {step : Nat} {e : ProgramError}
    (h : run cancelled slot data b = (.error ⟨step, e⟩, mid))
    (henabled : status? (b.reply 0) = some 0) :
    ModeEnded slot b (recover slot step mid) ↔ ¬ Misread cancelled slot data b := by
  rw [misread_iff h]
  have hone := step_ne_one h henabled
  obtain ⟨made, hpre, rfl, hstep⟩ := run_failed h
  have hpos : 2 ≤ made.length ∧ 1 ≤ step ∧ step ≤ 4 := by omega
  have hne : made ≠ [] := by
    intro hnil
    rw [hnil] at hpos
    exact absurd hpos.1 (by decide)
  have hrec := recovered_recover slot hpos.2 (b.after made)
  generalize recover slot step (b.after made) = b' at hrec ⊢
  cases hrec with
  | unneeded => exact absurd rfl hone
  | @answered step k hretry hk hnone hsome =>
    have hearly : ∀ chunk, reportedChunk? (b.reply 1) = some chunk →
        made.length < (sequence slot data (reportedChunk? (b.reply 1))).length := by
      intro chunk hchunk
      have hlen := length_sequence slot data chunk
      rw [hchunk] at hstep ⊢
      omega
    rw [modeEnded_answered_iff hne (not_isLeaveRequest_of_mem_tail hpre hearly) hnone]
    constructor
    · rintro hconf ⟨_, i, _, hinone, hisome, hnot⟩
      obtain rfl := first_frame_unique hinone hisome hnone hsome
      exact hnot hconf
    · intro hread
      exact Classical.byContradiction fun hnot => hread ⟨hretry, k, hk, hnone, hsome, hnot⟩
  | unanswered hretry hnone =>
    rw [Bench.after_after]
    refine iff_of_true modeEnded_restarted ?_
    rintro ⟨_, k, hk, _, hsome, _⟩
    rw [hnone k hk] at hsome
    cases hsome
  | restarted =>
    refine iff_of_true modeEnded_restarted ?_
    rintro ⟨hretry, _⟩
    omega

/-- A session that fails after the device accepted the enable request leaves it in
programming mode in one case only: the first frame among the ten waits of the recovery
reports something other than success. -/
theorem mode_ended_iff_not_misread {cancelled : Bench → Bool} {p q : Programmer Bench}
    {slot : UInt8} {data : Octets} {e : ProgramError}
    (h : p.program cancelled slot data = (.error e, q))
    (henabled : status? (p.line.reply 0) = some 0) :
    ModeEnded slot p.line q.line ↔ ¬ Misread cancelled slot data p.line := by
  rw [Programmer.program, OneWire.program] at h
  rcases hrun : run cancelled slot data p.line with ⟨⟨step, e'⟩ | meaning, mid⟩
  · rw [hrun] at h
    obtain rfl : (⟨recover slot step mid, .idle⟩ : Programmer Bench) = q := (Prod.mk.inj h).2
    exact modeEnded_recover_iff hrun henabled
  · rw [hrun] at h
    cases (Prod.mk.inj h).1

/-- A device that accepts the enable request, does not answer the size request, and
reports to recovery that the mode cannot be left. -/
def stuckDevice : Bench where
  replies :=
    [some [0xEE, 0x40, 0x03, 0x00, 0x81, 0x01, 0x01, 0x00, 0x00], none,
      some [0xEE, 0x40, 0x03, 0x00, 0x81, 0x01, 0x01, 0x00, 0x03]]

theorem mode_ended_iff_not_misread_stuckDevice :
    let p : Programmer Bench := { line := stuckDevice }
    ModeEnded 1 p.line (p.program (fun _ => false) 1 [1, 2, 3, 4, 5]).2.line ↔
      ¬ Misread (fun _ => false) 1 [1, 2, 3, 4, 5] p.line :=
  mode_ended_iff_not_misread (e := .timeout 2) rfl rfl

/-- One request to leave the mode is sent to it, which it refuses, and no restart. -/
theorem not_modeEnded_stuckDevice :
    let p : Programmer Bench := { line := stuckDevice }
    (p.program (fun _ => false) 1 [1, 2, 3, 4, 5]).1 = .error (.timeout 2) ∧
      status? (p.line.reply 0) = some 0 ∧
      ¬ ModeEnded 1 p.line (p.program (fun _ => false) 1 [1, 2, 3, 4, 5]).2.line := by
  have hrun : run (fun _ => false) 1 [1, 2, 3, 4, 5] stuckDevice =
      (.error ⟨2, .timeout 2⟩, stuckDevice.after (opening 1)) := rfl
  refine ⟨rfl, rfl, fun hended => ?_⟩
  refine (modeEnded_recover_iff hrun rfl).mp hended ((misread_iff hrun).mpr ?_)
  refine ⟨Or.inl rfl, 0, by decide, fun i hi => absurd hi (Nat.not_lt_zero i), rfl, ?_⟩
  rintro ⟨status, hstatus, hsuccess⟩
  obtain rfl : 3 = status := Option.some.inj hstatus
  exact absurd hsuccess (by decide)

end MotionRack.OneWire
