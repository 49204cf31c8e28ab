import MotionRack.Proofs.Provision.Stagewise
import MotionRack.Proofs.Provision.Wire

/-!
# Commits of a plan

Whether parameters are to be kept adds commits to a plan and changes nothing else. Only devices
and joysticks have any. A device has one commit behind its frames for every command and channel
of theirs, and a port one for each of its two tables.
-/
namespace MotionRack

/-! ### Stages -/

/-- What a frame of a stage is about: parameters of channel 0 of the slot. -/
theorem StageParameters.IsFrameOf.target {slot : UInt16} {f : Frame} (h : IsFrameOf slot f) :
    f.command ≠ Command.commit ∧ f.command ≠ Command.setShutterParams ∧
      f.destination = slotAddress slot ∧ f.channel = 0 := by
  obtain ⟨command, size, hmem, payload, _, rfl⟩ := h
  have hcommands : ∀ entry ∈ frameSizes,
      entry.1 ≠ Command.commit ∧ entry.1 ≠ Command.setShutterParams := by decide
  obtain ⟨hcommit, hshutter⟩ := hcommands (command, size) hmem
  exact ⟨hcommit, hshutter, rfl, if_neg hshutter⟩

/-! ### Devices -/

namespace CustomConfig.ReadFor

variable {slot : UInt16} {d : CustomConfig}

theorem strip_compile (h : d.ReadFor slot) (persist : Bool) :
    Commit.strip (d.compile persist) = d.compile false := by
  cases d with
  | stage s => exact Commit.strip_append_commits (fun f hf => (h.2 f hf).target.1) persist
  | flipper g =>
    simp only [compile, FlipperGroup.compile, Commit.strip_flatMap]
    congr 1
    funext s
    exact Commit.strip_append_commits s.plain_frames persist

theorem paired_compile (h : d.ReadFor slot) : Throughout Frame.Paired (d.compile true) := by
  cases d with
  | stage s =>
    obtain ⟨rfl, hframes⟩ := h
    exact Commit.paired_append (fun f hf => (hframes f hf).target.1)
      fun f hf => (hframes f hf).target.2.2
  | flipper g =>
    refine Throughout.flatMap Frame.Paired.mono fun s _ => ?_
    exact Commit.paired_append s.plain_frames fun f hf => (ShutterChannel.target_of_mem_frames hf).2

/-- No commit is sent twice for a device, unless it is a group in which its channel is declared
twice. -/
theorem count_compile_le_one (h : d.ReadFor slot) {node : Address} {channel : UInt16}
    {command : CommandId}
    (honce : command = Command.setShutterParams → ∀ g, d = flipper g →
      (g.shutters.map (·.channel)).count channel ≤ 1) :
    (d.compile true).count (.commit node channel command) ≤ 1 := by
  cases d with
  | stage s =>
    exact Commit.count_append_le_one (fun f hf => (h.2 f hf).target.1) (Frame.command_commit ..)
  | flipper g =>
    have hmem : ∀ s ∈ g.shutters, Frame.commit node channel command ∈ s.compile true →
        s.channel = channel ∧ command = Command.setShutterParams := by
      intro s _ hs
      obtain ⟨-, hchannel, f, hf, hcommand⟩ := Commit.mem_append_commits s.plain_frames hs
      exact ⟨hchannel.symm, hcommand ▸ (ShutterChannel.target_of_mem_frames hf).1⟩
    by_cases hcommand : command = Command.setShutterParams
    · have hlone : ∀ s ∈ g.shutters,
          (s.compile true).count (.commit node channel command) ≤ 1 :=
        fun s _ => Commit.count_append_le_one s.plain_frames (Frame.command_commit ..)
      have hchannels := count_flatMap_le_count_map hlone fun s hs hcommit =>
        (hmem s hs hcommit).1
      exact Nat.le_trans hchannels (honce hcommand g rfl)
    · have hnone : Frame.commit node channel command ∉ g.shutters.flatMap (·.compile true) := by
        rw [List.mem_flatMap]
        rintro ⟨s, hs, hcommit⟩
        exact hcommand (hmem s hs hcommit).2
      rw [compile, FlipperGroup.compile, List.count_eq_zero.mpr hnone]
      exact Nat.zero_le 1

end CustomConfig.ReadFor

/-! ### Cards -/

namespace Settings

/-- Whether the channel of a frame is declared once at most in the group of shutters that the
frame goes to. -/
def DeclaredOnce (x : Settings) (f : Frame) : Prop :=
  ∀ c ∈ x.cards, ∀ g, c.custom = some (.flipper g) → f.destination = slotAddress c.slot →
    (g.shutters.map (·.channel)).count f.channel ≤ 1

namespace Sound

variable {x : Settings}

theorem strip_compileCustoms (h : x.Sound) (persist : Bool) :
    Commit.strip (x.compileCustoms persist) = x.compileCustoms false := by
  rw [compileCustoms, Commit.strip_flatMap, compileCustoms]
  refine List.flatMap_congr fun d hd => ?_
  obtain ⟨c, hc, hcustom⟩ := List.mem_filterMap.mp hd
  exact ((h c hc).readFor d hcustom).strip_compile persist

theorem paired_compileCustoms (h : x.Sound) : Throughout Frame.Paired (x.compileCustoms true) := by
  refine Throughout.flatMap Frame.Paired.mono fun d hd => ?_
  obtain ⟨c, hc, hcustom⟩ := List.mem_filterMap.mp hd
  exact ((h c hc).readFor d hcustom).paired_compile

/-- No commit is sent twice, unless its channel is declared twice. -/
theorem count_compileCustoms_le_one (h : x.Sound)
    (hslots : x.cards.Pairwise fun c d => c.slot ≠ d.slot) {f : Frame}
    (hf : f ∈ x.compileCustoms true)
    (honce : f.command = Command.setShutterParams → x.DeclaredOnce f) :
    (x.compileCustoms true).count f.ownCommit ≤ 1 := by
  obtain ⟨c, hc, howns⟩ := exists_owner hf
  have hnode : f.destination = slotAddress c.slot := ((h c hc).carries_of_owns howns).destination
  obtain ⟨d, hd, _⟩ := howns
  have hcustom : c.custom = some d := hd
  -- Only the device behind that card can send a commit to its slot.
  have hkept : (x.compileCustoms true).count f.ownCommit =
      ((x.compileCustoms true).filter (·.destination = slotAddress c.slot)).count f.ownCommit := by
    rw [List.count_filter]
    exact decide_eq_true hnode
  rw [hkept, h.filter_compileCustoms hslots hc, Card.frames, hcustom]
  simp only [Option.toList_some, List.flatMap_singleton]
  exact ((h c hc).readFor d hd).count_compile_le_one fun hcommand g hg =>
    honce hcommand c hc g (hg ▸ hcustom) hnode

/-- A commit stands behind a frame whose parameters it keeps, any other frame before its own commit,
of which there is one unless its channel is declared twice. -/
theorem places_compileCustoms (h : x.Sound)
    (hslots : x.cards.Pairwise fun c d => c.slot ≠ d.slot) {before after : List Frame} {f : Frame}
    (hsplit : x.compileCustoms true = before ++ f :: after) :
    (f.command = Command.commit →
      ∃ g ∈ before, g.command ≠ Command.commit ∧ f = g.ownCommit) ∧
    (f.command ≠ Command.commit → f.ownCommit ∈ after ∧
      ((f.command = Command.setShutterParams → x.DeclaredOnce f) →
        after.count f.ownCommit = 1)) := by
  have hpaired := h.paired_compileCustoms before f after hsplit
  have hf : f ∈ x.compileCustoms true := by simp [hsplit]
  unfold Frame.Paired at hpaired
  refine ⟨fun hcommit => ?_, fun hplain => ?_⟩
  · rwa [if_pos hcommit] at hpaired
  · rw [if_neg hplain] at hpaired
    refine ⟨hpaired, fun honce => ?_⟩
    have hle := h.count_compileCustoms_le_one hslots hf honce
    rw [hsplit] at hle
    exact count_after_eq_one hpaired hle

end Sound
end Settings

theorem Commit.plain_of_carries {commands : List CommandId} {node : Address}
    {frames : List Frame} (h : ∀ f ∈ frames, f.Carries commands node)
    (hnone : Command.commit ∉ commands) : Plain frames :=
  fun f hf hcommit => hnone (hcommit ▸ (h f hf).command)

/-! ### Joysticks -/

namespace JoystickPort

/-- The commits of a port: one for the table of its inputs, one for that of its outputs. -/
def commits (p : JoystickPort) : List Frame :=
  [.commit .motherboard p.index.toUInt16 Command.setJoystickMapIn,
   .commit .motherboard p.index.toUInt16 Command.setJoystickMapOut]

theorem plain_frames (p : JoystickPort) : Commit.Plain p.frames := by
  refine List.forall_mem_append.mpr ⟨?_, ?_⟩ <;> rw [List.forall_mem_map] <;> intro m _ <;>
    rw [Frame.command_carrying] <;> decide

theorem compile_true (p : JoystickPort) : p.compile true = p.frames ++ p.commits := rfl

theorem strip_compile (p : JoystickPort) (persist : Bool) :
    Commit.strip (p.compile persist) = p.frames := by
  cases persist with
  | false => exact Commit.strip_eq_self p.plain_frames
  | true =>
    have hcommits : Commit.strip p.commits = [] := by simp [Commit.strip, commits]
    rw [compile_true, Commit.strip_append, Commit.strip_eq_self p.plain_frames, hcommits,
      List.append_nil]

/-- The commits of a port are about its own tables. -/
theorem index_of_commit {p : JoystickPort} {channel : UInt16} {command : CommandId}
    (h : Frame.commit .motherboard channel command ∈ p.compile true) :
    channel = p.index.toUInt16 := by
  rw [compile_true, List.mem_append] at h
  rcases h with h | h
  · exact absurd rfl (p.plain_frames _ h)
  · rw [commits, List.mem_cons, List.mem_singleton, Frame.commit_inj, Frame.commit_inj] at h
    exact h.elim (·.2.1) (·.2.1)

end JoystickPort

namespace Joysticks

theorem strip_compile (j : Joysticks) (persist : Bool) :
    Commit.strip (j.compile persist) = j.compile false := by
  simp only [compile, Commit.strip_flatMap, JoystickPort.strip_compile]
  rfl

/-- No other port sends commits for the tables of a port. -/
theorem compile_eq_around {j : Joysticks} (h : j.ports.Pairwise fun p q => p.index ≠ q.index)
    {p : JoystickPort} (hp : p ∈ j.ports) :
    ∃ before after, j.compile true = before ++ (p.frames ++ p.commits) ++ after ∧
      ∀ f ∈ before ++ after, ∀ command, f ≠ .commit .motherboard p.index.toUInt16 command := by
  obtain ⟨front, back, hports⟩ := List.append_of_mem hp
  rw [hports] at h
  obtain ⟨-, hback, hfront⟩ := List.pairwise_append.mp h
  have hother : ∀ q : JoystickPort, q.index ≠ p.index → ∀ f ∈ q.compile true, ∀ command,
      f ≠ .commit .motherboard p.index.toUInt16 command := by
    rintro q hindex f hf command rfl
    have hchannel := JoystickPort.index_of_commit hf
    exact hindex (UInt8.toUInt16_inj.mp hchannel).symm
  refine ⟨front.flatMap (·.compile true), back.flatMap (·.compile true), ?_, ?_⟩
  · rw [compile, hports, List.flatMap_append, List.flatMap_cons, JoystickPort.compile_true,
      List.append_assoc _ (p.frames ++ p.commits)]
  · refine List.forall_mem_append.mpr ⟨fun f hf => ?_, fun f hf => ?_⟩
    · obtain ⟨q, hq, hf⟩ := List.mem_flatMap.mp hf
      exact hother q (hfront q hq p List.mem_cons_self) f hf
    · obtain ⟨q, hq, hf⟩ := List.mem_flatMap.mp hf
      exact hother q ((List.pairwise_cons.mp hback).1 q hq).symm f hf

end Joysticks

/-! ### Plans -/

namespace StagePlan

/-- The plan of a stage without its commits. -/
def withoutCommits (p : StagePlan) : StagePlan := { p with frames := Commit.strip p.frames }

/-- A stage is compiled without commits as with them, and the commits left out. -/
theorem compile_false {s : RackSystem} (h : s.Sound) (stage : Stage) :
    compile s false stage = Option.map withoutCommits <$> compile s true stage := by
  cases stage with
  | cards =>
    unfold compile
    cases hsection : s.settings with
    | none => rfl
    | some x =>
      cases hframes : x.compile with
      | error e => simp [hframes]
      | ok frames =>
        have hplain := Commit.plain_of_carries (Settings.carries_compile hframes) (by decide)
        simp [hframes, withoutCommits, Commit.strip_eq_self hplain]
  | allowedDevices =>
    unfold compile
    cases hsection : s.allowedDevices with
    | none => rfl
    | some x =>
      cases hframes : x.compile with
      | error e => simp [hframes]
      | ok frames =>
        have hplain := Commit.plain_of_carries (AllowedDevices.carries_compile hframes) (by decide)
        simp [hframes, withoutCommits, Commit.strip_eq_self hplain]
  | customConfigs =>
    unfold compile
    cases hsection : s.settings with
    | none => rfl
    | some x => simp [withoutCommits, (h.settings x hsection).strip_compileCustoms]
  | joysticks =>
    unfold compile
    cases hsection : s.joysticks with
    | none => rfl
    | some j => simp [withoutCommits, j.strip_compile]

end StagePlan

namespace ProvisionOptions

/-- The same stages, with commits or without. -/
def keeping (o : ProvisionOptions) (persist : Bool) : ProvisionOptions :=
  { o with persist := persist }

theorem enabled_keeping (o : ProvisionOptions) (persist : Bool) (stage : Stage) :
    (o.keeping persist).enabled stage = o.enabled stage := by
  cases stage <;> rfl

end ProvisionOptions

namespace Provision

theorem planStages_false {s : RackSystem} (h : s.Sound) (o : ProvisionOptions)
    (stages : List Stage) :
    planStages s (o.keeping false) stages =
      List.map StagePlan.withoutCommits <$> planStages s (o.keeping true) stages := by
  induction stages with
  | nil => rfl
  | cons stage rest ih =>
    have hcompile : StagePlan.compile s (o.keeping false).persist stage =
        Option.map StagePlan.withoutCommits <$>
          StagePlan.compile s (o.keeping true).persist stage :=
      StagePlan.compile_false h stage
    simp only [planStages, ProvisionOptions.enabled_keeping, ih, hcompile]
    by_cases henabled : o.enabled stage = true
    · rw [if_pos henabled, if_pos henabled]
      cases StagePlan.compile s (o.keeping true).persist stage with
      | error e => rfl
      | ok found =>
        cases planStages s (o.keeping true) rest with
        | error e => rfl
        | ok others => cases found <;> rfl
    · rw [if_neg henabled, if_neg henabled]

/-- Commits are additions to a plan in their places, for every rack that was read and every choice
of stages. Without them a plan is the same otherwise, and it fails for the same reasons. The stages
of the cards and of the allow lists never have any. In the stage of the devices every commit stands
behind a frame whose parameters it keeps, and every other frame before its own commit, of which
there is one only unless the frame is for a shutter whose channel is declared twice in its group. In
the stage of the joysticks the frames of each port are followed by its two commits, and no other
commit is for the tables of the port. -/
theorem plan_commits {root : Element} {system : RackSystem}
    (h : RackSystem.ofElement root = .ok system) (o : ProvisionOptions) :
    plan system (o.keeping false) =
      List.map StagePlan.withoutCommits <$> plan system (o.keeping true) ∧
    (∀ plans, plan system (o.keeping false) = .ok plans →
      ∀ p ∈ plans, Commit.Plain p.frames) ∧
    ∀ plans, plan system (o.keeping true) = .ok plans → ∀ p ∈ plans,
      (p.stage = .cards ∨ p.stage = .allowedDevices → Commit.Plain p.frames) ∧
      (p.stage = .customConfigs → ∃ x, system.settings = some x ∧
        ∀ before f after, p.frames = before ++ f :: after →
          (f.command = Command.commit →
            ∃ g ∈ before, g.command ≠ Command.commit ∧ f = g.ownCommit) ∧
          (f.command ≠ Command.commit → f.ownCommit ∈ after ∧
            ((f.command = Command.setShutterParams → x.DeclaredOnce f) →
              after.count f.ownCommit = 1))) ∧
      (p.stage = .joysticks → ∃ j, system.joysticks = some j ∧
        p.frames = (j.ports.flatMap fun q => q.frames ++ q.commits) ∧
        ∀ q ∈ j.ports, Commit.Plain q.frames ∧
          ∃ before after, p.frames = before ++ (q.frames ++ q.commits) ++ after ∧
            ∀ f ∈ before ++ after, ∀ command,
              f ≠ .commit .motherboard q.index.toUInt16 command) := by
  have hsound := RackSystem.sound_of_ofElement h
  have hfalse := planStages_false hsound o Stage.order
  refine ⟨hfalse, fun plans hplan p hp => ?_, fun plans hplan p hp => ?_⟩
  · rw [plan, hfalse] at hplan
    obtain ⟨kept, _, rfl⟩ := map_eq_ok.mp hplan
    obtain ⟨q, _, rfl⟩ := List.mem_map.mp hp
    exact Commit.plain_strip q.frames
  · obtain ⟨-, hcompile⟩ := compile_of_mem_plan hplan hp
    obtain ⟨hsettings, -, hjoysticks⟩ := RackSystem.sections_of_ofElement h
    generalize hstage : p.stage = stage at hcompile ⊢
    generalize hfound : some p = found at hcompile
    cases StagePlan.made_of_compile hcompile with
    | absent => cases hfound
    | cards _ hframes =>
      obtain rfl := Option.some.inj hfound
      have hcarries := Settings.carries_compile hframes
      exact ⟨fun _ => Commit.plain_of_carries hcarries (by decide), fun h => absurd h (by decide),
        fun h => absurd h (by decide)⟩
    | allowedDevices _ hframes =>
      obtain rfl := Option.some.inj hfound
      have hcarries := AllowedDevices.carries_compile hframes
      exact ⟨fun _ => Commit.plain_of_carries hcarries (by decide), fun h => absurd h (by decide),
        fun h => absurd h (by decide)⟩
    | customConfigs hsection =>
      obtain rfl := Option.some.inj hfound
      obtain ⟨e, _, hread⟩ := mapM_option_eq_ok hsettings hsection
      obtain ⟨-, hslots⟩ := Settings.cards_of_ofElement hread
      refine ⟨fun h => absurd h (by decide),
        fun _ => ⟨_, hsection, fun before f after hsplit => ?_⟩, fun h => absurd h (by decide)⟩
      exact (hsound.settings _ hsection).places_compileCustoms hslots hsplit
    | joysticks hsection =>
      obtain rfl := Option.some.inj hfound
      obtain ⟨e, _, hread⟩ := mapM_option_eq_ok hjoysticks hsection
      have hports := Joysticks.pairwise_index_of_ofElement hread
      refine ⟨fun h => absurd h (by decide), fun h => absurd h (by decide),
        fun _ => ⟨_, hsection, rfl, fun q hq => ?_⟩⟩
      exact ⟨q.plain_frames, Joysticks.compile_eq_around hports hq⟩

theorem plan_commits_equipped :
    ∃ system plans, RackSystem.ofElement equippedRoot = .ok system ∧
      plan system (ProvisionOptions.keeping {} true) = .ok plans ∧
      plans.map (fun p => (p.frames.length, p.commits)) = [(4, 0), (2, 0), (8, 4), (4, 2)] ∧
      plan system (ProvisionOptions.keeping {} false) =
        .ok (plans.map StagePlan.withoutCommits) := by
  obtain ⟨system, plans, hread, hplan, hcounts⟩ := plan_equipped
  obtain ⟨hwithout, -, -⟩ := plan_commits hread {}
  have hkept : plan system (ProvisionOptions.keeping {} true) = .ok plans := hplan
  rw [hkept] at hwithout
  exact ⟨system, plans, hread, hkept, hcounts, hwithout⟩

end Provision
end MotionRack
