import MotionRack.Proofs.Octets
import MotionRack.Proofs.Provision.Plan
import MotionRack.Provision.Delivery

/-!
# What a sink is asked to take

A sink of any kind, with a record of every transfer that it was asked to take and of how
that ended. The record changes nothing for the sink. Provisioning asks for the transfers of
the plan in order, stops at the first that is refused, and asks for none if the rack cannot
be compiled.
-/
namespace MotionRack

/-- A transfer that a sink was asked to take, and how that ended. -/
abbrev Attempt := Octets × Except LinkError Unit

/-- A sink with a record of the transfers that it was asked to take. -/
structure Recorder (σ : Type) where
  sink : σ
  attempts : List Attempt := []

instance {σ : Type} [FrameSink σ] : FrameSink (Recorder σ) where
  send bytes r :=
    let (result, sink) := FrameSink.send bytes r.sink
    (result, ⟨sink, r.attempts ++ [(bytes, result)]⟩)

/-- Whether a transfer was taken. -/
def Attempt.isTaken (a : Attempt) : Bool :=
  match a.2 with
  | .ok _ => true
  | .error _ => false

/-- What the sink took, in order. -/
def Recorder.taken {σ : Type} (r : Recorder σ) : List Octets :=
  (r.attempts.filter Attempt.isTaken).map (·.1)

/-- The command that a transfer carries in its first two bytes. -/
def commandOf (bytes : Octets) : CommandId := UInt16.ofNat (Octets.toNat (bytes.take 2))

theorem commandOf_encode (f : Frame) : commandOf f.encode = f.command := by
  have htake : f.encode.take 2 = Octets.ofNat 2 f.command.toNat := rfl
  rw [commandOf, htake, Octets.uint16_ofNat_two]

/-! ### Attempts -/

/-- How a stream of transfers was attempted: all were taken, or the attempts stop right
after the first that was refused. -/
inductive Attempted : List Octets → List Attempt → Except LinkError Unit → Prop
  | all (stream : List Octets) : Attempted stream (stream.map (·, .ok ())) (.ok ())
  | refused (before after : List Octets) (bytes : Octets) (e : LinkError) :
      Attempted (before ++ bytes :: after) (before.map (·, .ok ()) ++ [(bytes, .error e)])
        (.error e)

theorem Attempted.cons {stream : List Octets} {made : List Attempt}
    {result : Except LinkError Unit} (bytes : Octets) (h : Attempted stream made result) :
    Attempted (bytes :: stream) ((bytes, .ok ()) :: made) result := by
  cases h with
  | all => exact .all (bytes :: stream)
  | refused before after last e => exact .refused (bytes :: before) after last e

theorem filter_isTaken_map (stream : List Octets) :
    ((stream.map (·, .ok ())).filter Attempt.isTaken).map (·.1) = stream := by
  induction stream with
  | nil => rfl
  | cons bytes rest ih =>
    rw [List.map_cons, List.filter_cons_of_pos rfl, List.map_cons, ih]

/-- What was taken is a prefix of what was to be sent. -/
theorem Attempted.isPrefix {stream : List Octets} {made : List Attempt}
    {result : Except LinkError Unit} (h : Attempted stream made result) :
    (made.filter Attempt.isTaken).map (·.1) <+: stream := by
  cases h with
  | all =>
    have htaken := filter_isTaken_map stream
    exact ⟨[], by rw [List.append_nil, htaken]⟩
  | refused before after bytes e =>
    rw [List.filter_append, List.filter_cons_of_neg Bool.false_ne_true, List.filter_nil,
      List.append_nil, filter_isTaken_map]
    exact List.prefix_append before _

namespace Provision

variable {σ : Type} [FrameSink σ]

/-- The record leaves the sink and the result alone, and holds the attempts at the frames. -/
theorem sendFrames_recorder (frames : List Frame) (s : σ) (made : List Attempt) :
    ∃ new, sendFrames frames (Recorder.mk s made) =
        ((sendFrames frames s).1, ⟨(sendFrames frames s).2, made ++ new⟩) ∧
      Attempted (frames.map Frame.encode) new (sendFrames frames s).1 := by
  -- For any earlier record, since every frame that is taken adds to it.
  induction frames generalizing s made with
  | nil => exact ⟨[], by rw [List.append_nil]; rfl, .all []⟩
  | cons f rest ih =>
    have hsend : FrameSink.sendFrame f (Recorder.mk s made) =
        ((FrameSink.sendFrame f s).1,
          ⟨(FrameSink.sendFrame f s).2, made ++ [(f.encode, (FrameSink.sendFrame f s).1)]⟩) := rfl
    rw [sendFrames, sendFrames, hsend]
    cases hf : FrameSink.sendFrame f s with
    | mk result s' =>
      cases result with
      | error e => exact ⟨[(f.encode, .error e)], rfl, .refused [] (rest.map Frame.encode) _ e⟩
      | ok _ =>
        obtain ⟨new, hrun, hnew⟩ := ih s' (made ++ [(f.encode, .ok ())])
        rw [List.append_assoc] at hrun
        exact ⟨(f.encode, .ok ()) :: new, hrun, hnew.cons f.encode⟩

theorem sendFrames_append (frames more : List Frame) (s : σ) :
    sendFrames (frames ++ more) s =
      match sendFrames frames s with
      | (.error e, s) => (.error e, s)
      | (.ok (), s) => sendFrames more s := by
  induction frames generalizing s with
  | nil => rfl
  | cons f rest ih =>
    rw [List.cons_append, sendFrames, sendFrames]
    cases FrameSink.sendFrame f s with
    | mk result s' =>
      cases result with
      | error e => rfl
      | ok _ => exact ih s'

/-- Sending stages is sending their frames one after another. -/
theorem sendStages_eq (report : ProvisionReport) (plans : List StagePlan) (s : σ) :
    sendStages report plans s =
      match sendFrames (plans.flatMap (·.frames)) s with
      | (.error e, s) => (.error e, s)
      | (.ok (), s) => (.ok (plans.foldl ProvisionReport.add report), s) := by
  induction plans generalizing report s with
  | nil => rfl
  | cons p rest ih =>
    rw [sendStages, List.flatMap_cons, sendFrames_append]
    cases sendFrames p.frames s with
    | mk result s' =>
      cases result with
      | error e => rfl
      | ok _ => exact ih (report.add p) s'

/-- The report of stages that were all sent. -/
theorem foldl_add (report : ProvisionReport) (plans : List StagePlan) :
    plans.foldl ProvisionReport.add report =
      { stages := report.stages ++ plans.map fun p => ⟨p.stage, p.entities, p.frames.length⟩
        framesSent := report.framesSent + (plans.flatMap (·.frames)).length
        commitsSent := report.commitsSent +
          (plans.flatMap (·.frames)).countP (·.command == Command.commit) } := by
  induction plans generalizing report with
  | nil => simp
  | cons p rest ih =>
    rw [List.foldl_cons, ih]
    simp [ProvisionReport.add, StagePlan.commits, Nat.add_assoc]

/-! ### Provisioning -/

/-- Provisioning with a record of what the sink was asked to take. -/
def recorded (system : RackSystem) (o : ProvisionOptions) (s : σ) :
    Except ConfigError ProvisionReport × Recorder σ :=
  configure system o (Recorder.mk s [])

/-- The transfers of a plan in the order in which they are to be sent. -/
def stream (plans : List StagePlan) : List Octets :=
  (plans.flatMap (·.frames)).map Frame.encode

/-- Provisioning, for every rack, choice of stages and sink: the record leaves result and sink
alone. If the rack cannot be compiled that is the error, and the sink is asked for nothing.
Otherwise the plans are those of the stages in their order; either every transfer was taken,
and the report counts them, or the attempts end with the first one that was refused, and its
error is the result. What was taken is always a prefix of the plan. -/
theorem configure_attempts (system : RackSystem) (o : ProvisionOptions) (s : σ) :
    ((recorded system o s).1, (recorded system o s).2.sink) = configure system o s ∧
    match plan system o with
    | .error e => recorded system o s = (.error e, Recorder.mk s [])
    | .ok plans =>
      plans = ([Stage.cards, .allowedDevices, .customConfigs, .joysticks].filter
        o.enabled).filterMap (stagePlan? system o.persist) ∧
      plans.map (·.stage) = [Stage.cards, .allowedDevices, .customConfigs, .joysticks].filter
        (fun stage => o.enabled stage && declares system stage) ∧
      (recorded system o s).2.taken <+: stream plans ∧
      match (recorded system o s).1 with
      | .ok report =>
        (recorded system o s).2.attempts = (stream plans).map (·, .ok ()) ∧
        report.framesSent = (recorded system o s).2.attempts.length ∧
        report.commitsSent =
          (recorded system o s).2.attempts.countP (commandOf ·.1 == Command.commit) ∧
        report.stages = plans.map fun p => ⟨p.stage, p.entities, p.frames.length⟩
      | .error x => ∃ before bytes after e, stream plans = before ++ bytes :: after ∧
        (recorded system o s).2.attempts = before.map (·, .ok ()) ++ [(bytes, .error e)] ∧
        x = .link e := by
  unfold recorded configure
  cases hplan : plan system o with
  | error e => exact ⟨rfl, rfl⟩
  | ok plans =>
    obtain ⟨hplans, hstages⟩ := planStages_eq_ok hplan
    obtain ⟨new, hrun, hnew⟩ := sendFrames_recorder (plans.flatMap (·.frames)) s []
    rw [List.nil_append] at hrun
    simp only [sendStages_eq, hrun]
    cases hsent : sendFrames (plans.flatMap (·.frames)) s with
    | mk result s' =>
      rw [hsent] at hnew
      have hprefix := hnew.isPrefix
      cases result with
      | error e =>
        refine ⟨rfl, hplans, hstages, hprefix, ?_⟩
        generalize hstream : (plans.flatMap (·.frames)).map Frame.encode = transfers at hnew
        cases hnew with
        | refused before after bytes =>
          exact ⟨before, bytes, after, e, hstream, rfl, rfl⟩
      | ok _ =>
        refine ⟨rfl, hplans, hstages, hprefix, ?_⟩
        obtain rfl : new = (stream plans).map (·, .ok ()) := by
          generalize hstream : (plans.flatMap (·.frames)).map Frame.encode = transfers at hnew
          cases hnew with
          | all => rw [stream, hstream]
        refine ⟨rfl, ?_, ?_, ?_⟩
        · rw [foldl_add]
          simp [stream]
        · rw [foldl_add]
          simp [stream, List.countP_map, Function.comp_def, commandOf_encode]
        · rw [foldl_add]
          rfl

end Provision
end MotionRack
