import MotionRack.Proofs.Sequence
import MotionRack.Proofs.Session.Dialogue

/-!
# Rules for answers

Every request of a session has a rule for its answer: data bytes that grant it, and the error that
any others lead to. The rules of a sequence, each applied to one reply slot, decide how it ends:
either every slot keeps its rule, or the first one that breaks its rule gives the error and is the
last one that was asked for.
-/
namespace MotionRack

/-- The rule for the answer to a request. -/
structure Rule where
  /-- The step of the session that the request belongs to. -/
  step : Nat
  /-- The data bytes that the request may be answered with. -/
  Grants : Octets → Prop
  /-- The error that data bytes lead to with which the request may not be answered. -/
  Faults : Octets → ProgramError → Prop

namespace Rule

open Exchange (Accepted performAll transfers)

/-- Whether a reply slot answers the request as the rule asks. -/
def Answers (r : Rule) (reply : Option Octets) : Prop :=
  ∃ data, Answer.data? reply = some data ∧ r.Grants data

/-- The error that a reply slot leads to which breaks the rule. -/
inductive Fails (r : Rule) : Option Octets → ProgramError → Prop
  | silent : Fails r none (.timeout r.step)
  | undecodable {raw : Octets} {defect : FrameDefect} :
      Frame.decode raw = .error (.malformed defect) →
      Fails r (some raw) (.link (.malformed defect))
  | faulty {raw : Octets} {f : Frame} {e : ProgramError} :
      Frame.decode raw = .ok f → r.Faults f.data e → Fails r (some raw) e

/-- Whether an exchange reads the data bytes of its answer by the rule. -/
structure Governs (r : Rule) (x : Exchange Unit) : Prop where
  step : x.step = r.step
  granted : ∀ data, x.accept data = .ok () ↔ r.Grants data
  faulty : ∀ data e, x.accept data = .error e ↔ r.Faults data e

/-! ### Rules on one value -/

section

variable {α : Type} (step : Nat) (read : Octets → Option α) (Granting : α → Prop)
  (fault : α → ProgramError)

/-- The error that an answer leads to if one value is read out of it: there is none, or it is not
one that grants the request. -/
inductive ReadingFault (data : Octets) : ProgramError → Prop
  | absent : read data = none → ReadingFault data (.link (.malformed .replyTooShort))
  | refused {a : α} : read data = some a → ¬ Granting a → ReadingFault data (fault a)

/-- The rule for an answer out of which one value is read. -/
def reading : Rule where
  step := step
  Grants data := ∃ a, read data = some a ∧ Granting a
  Faults := ReadingFault read Granting fault

/-- An exchange that reads the same value and judges it in the same way is governed by the rule. -/
theorem governs_reading [DecidablePred Granting] {x : Exchange Unit} (hstep : x.step = step)
    (haccept : ∀ data, x.accept data =
      (read data).elim (.error (.link (.malformed .replyTooShort)))
        fun a => if Granting a then .ok () else .error (fault a)) :
    Governs (reading step read Granting fault) x := by
  refine ⟨hstep, fun data => ?_, fun data e => ?_⟩
  · rw [haccept]
    cases hread : read data with
    | none => simp [reading, hread]
    | some a => by_cases ha : Granting a <;> simp [reading, hread, ha]
  · rw [haccept]
    constructor
    · intro h
      cases hread : read data with
      | none =>
        rw [hread] at h
        obtain rfl := Except.error.inj h
        exact .absent hread
      | some a =>
        rw [hread, Option.elim_some] at h
        split at h
        · cases h
        · next ha =>
          obtain rfl := Except.error.inj h
          exact .refused hread ha
    · rintro (hread | ⟨hread, ha⟩)
      · rw [hread]
        rfl
      · rw [hread, Option.elim_some, if_neg ha]

end

/-- The rule for an answer with a status at one place, of which some grant the request. -/
def status (position step : Nat) (granting : List UInt8) (meaning : UInt8 → StatusMeaning) : Rule :=
  reading step (·[position]?) (· ∈ granting) fun status => .status step status (meaning status)

theorem governs_status {position step : Nat} {granting : List UInt8}
    {meaning : UInt8 → StatusMeaning} {x : Exchange Unit} (hstep : x.step = step)
    (haccept : ∀ data, x.accept data = Answer.expectStatus position granting meaning step data) :
    Governs (status position step granting meaning) x := by
  refine governs_reading step _ _ _ hstep fun data => ?_
  rw [haccept, Answer.expectStatus_eq]

/-- Whether the errors of a rule name no other step than that of its request. -/
def NamesOwnStep (r : Rule) : Prop :=
  ∀ data e step, r.Faults data e → e.step? = some step → step = r.step

theorem namesOwnStep_reading {α : Type} {step : Nat} {read : Octets → Option α}
    {Granting : α → Prop} {fault : α → ProgramError} (h : ∀ a, (fault a).step? = some step) :
    (reading step read Granting fault).NamesOwnStep := by
  rintro data e n (- | ⟨-, -⟩) hn
  · cases hn
  · exact (Option.some.inj ((h _).symm.trans hn)).symm

theorem NamesOwnStep.step_eq {r : Rule} (h : r.NamesOwnStep) {reply : Option Octets}
    {e : ProgramError} {step : Nat} (hfails : r.Fails reply e) (hstep : e.step? = some step) :
    step = r.step := by
  cases hfails with
  | silent => exact (Option.some.inj hstep).symm
  | undecodable => cases hstep
  | faulty _ hfault => exact h _ _ _ hfault hstep

namespace Governs

variable {r : Rule} {x : Exchange Unit} {reply : Option Octets}

theorem verdict_eq_ok_iff (h : Governs r x) : x.verdict reply = .ok () ↔ r.Answers reply := by
  rw [Exchange.verdict_eq_ok_iff, Answers]
  exact exists_congr fun data => and_congr_right fun _ => h.granted data

theorem verdict_eq_error_iff (h : Governs r x) {e : ProgramError} :
    x.verdict reply = .error e ↔ r.Fails reply e := by
  cases reply with
  | none =>
    rw [Exchange.verdict, h.step]
    constructor
    · intro he
      obtain rfl := Except.error.inj he
      exact .silent
    · rintro ⟨⟩
      rfl
  | some raw =>
    rw [Exchange.verdict, Answer.ofBytes]
    cases hdecode : Frame.decode raw with
    | error fault =>
      obtain ⟨defect, rfl⟩ := Answer.exists_of_decode_error hdecode
      constructor
      · intro he
        obtain rfl := Except.error.inj he
        exact .undecodable hdecode
      · intro hfails
        cases hfails with
        | undecodable hraw =>
          obtain rfl := LinkError.malformed.inj (Except.error.inj (hdecode.symm.trans hraw))
          rfl
        | faulty hraw => cases hdecode.symm.trans hraw
    | ok f =>
      change x.accept f.data = .error e ↔ _
      rw [h.faulty]
      constructor
      · exact .faulty hdecode
      · intro hfails
        cases hfails with
        | undecodable hraw => cases hdecode.symm.trans hraw
        | faulty hraw hfault =>
          obtain rfl := Except.ok.inj (hdecode.symm.trans hraw)
          exact hfault

end Governs

/-! ### Sequences of rules -/

/-- Whether the reply slots, one for each rule, keep the rules. -/
def Kept (rules : List Rule) (b : Bench) : Prop :=
  ∀ (i : Nat) (r : Rule), rules[i]? = some r → r.Answers (b.reply i)

/-- Whether a reply slot is the first one that breaks its rule, and the error that it leads to. -/
def BrokenAt (rules : List Rule) (b : Bench) (i : Nat) (e : ProgramError) : Prop :=
  Kept (rules.take i) b ∧ ∃ r, rules[i]? = some r ∧ r.Fails (b.reply i) e

section

variable {rules : List Rule} {xs : List (Exchange Unit)} {b : Bench}

theorem accepted_iff_kept (h : List.Forall₂ Governs rules xs) : Accepted b xs ↔ Kept rules b := by
  refine forall_congr' fun i => ?_
  have hplace := rel_getElem? h i
  generalize rules[i]? = r? at hplace
  generalize xs[i]? = x? at hplace
  cases hplace with
  | none => simp
  | some hgoverns => simp [hgoverns.verdict_eq_ok_iff]

variable (h : List.Forall₂ Governs rules xs) (hfit : ∀ x ∈ xs, x.request.Fits)

include h hfit

theorem performAll_of_kept (hkept : Kept rules b) :
    performAll (fun _ => false) xs b = (.ok (), b.after (transfers xs)) := by
  have hok := (Exchange.performAll_eq_ok_iff hfit).mpr ((accepted_iff_kept h).mpr hkept)
  rcases hrun : performAll (fun _ => false) xs b with ⟨outcome, line⟩
  obtain rfl : outcome = .ok () := by rwa [hrun] at hok
  rw [(Exchange.performAll_eq_ok hrun hfit).2]

/-- The first slot that breaks its rule ends a sequence. Its request is the last one, and the step
that failed is that of its rule. -/
theorem performAll_of_brokenAt {i : Nat} {e : ProgramError} (hbroken : BrokenAt rules b i e) :
    ∃ r ∈ rules, r.Fails (b.reply i) e ∧ performAll (fun _ => false) xs b =
      (.error ⟨r.step, e⟩, b.after (transfers (xs.take (i + 1)))) := by
  obtain ⟨hbefore, r, hr, hfails⟩ := hbroken
  refine ⟨r, List.mem_of_getElem? hr, hfails, ?_⟩
  have hplace := rel_getElem? h i
  rw [hr] at hplace
  generalize hx : xs[i]? = x? at hplace
  cases hplace with
  | @some _ x hgoverns =>
    have hacc := (accepted_iff_kept (List.forall₂_take i h)).mpr hbefore
    have hv := hgoverns.verdict_eq_error_iff.mpr hfails
    obtain ⟨n, hends, hline⟩ := Exchange.performAll_ends (fun _ => false) xs hfit b
    generalize performAll (fun _ => false) xs b = result at hends hline ⊢
    obtain ⟨outcome, line⟩ := result
    cases hends with
    | completed hall => cases (hall i x hx).symm.trans hv
    | @refused n y e' hy hacc' hv' =>
      obtain rfl := Exchange.refused_unique hx hacc hv hy hacc' hv'
      obtain rfl : x = y := Option.some.inj (hx.symm.trans hy)
      obtain rfl : e = e' := Except.error.inj (hv.symm.trans hv')
      rw [← hgoverns.step]
      exact Prod.ext rfl hline
    | interrupted _ _ _ hc => cases hc

theorem kept_or_brokenAt : Kept rules b ∨ ∃ i e, BrokenAt rules b i e := by
  obtain ⟨n, hends, -⟩ := Exchange.performAll_ends (fun _ => false) xs hfit b
  generalize (performAll (fun _ => false) xs b).1 = outcome at hends
  cases hends with
  | completed hall => exact Or.inl ((accepted_iff_kept h).mp hall)
  | @refused n x e hx hacc hv =>
    have hplace := rel_getElem? h n
    rw [hx] at hplace
    generalize hr : rules[n]? = r? at hplace
    cases hplace with
    | @some r _ hgoverns =>
      exact Or.inr ⟨n, e, (accepted_iff_kept (List.forall₂_take n h)).mp hacc, r, hr,
        hgoverns.verdict_eq_error_iff.mp hv⟩
  | interrupted _ _ _ hc => cases hc

end
end Rule
end MotionRack
