import Mathlib.Algebra.Ring.Nat
import MotionRack.Console.Program
import MotionRack.Proofs.Console.Listing
import MotionRack.Proofs.Provision.Delivery
import MotionRack.Proofs.Provision.Stagewise
import MotionRack.Proofs.Session.Dialogue

/-!
# The dry run

Compiling a system file lists what provisioning it would send. The two commands read the same
file and make the same plan; a bench link takes whatever it is given, so provisioning fails only
where compiling fails.
-/
namespace MotionRack.Console

/-- What a command line asks for, if it is that of a task. -/
def asked? (args : List String) : Option Task :=
  match invocation commands args with
  | .run command a => task? command a
  | _ => none

theorem run_of_asked {args : List String} {task : Task} (h : asked? args = some task)
    (read : FileReader) : run read args = perform read task := by
  unfold asked? at h
  split at h
  · next command a hinvocation =>
    rw [run, hinvocation]
    simp only [h]
  · cases h

theorem exitCode_ofResult (r : Except Failure String) :
    (Outcome.ofResult r).exitCode = 0 ↔ ∃ output, r = .ok output := by
  cases r with
  | ok output => exact iff_of_true rfl ⟨output, rfl⟩
  | error f =>
    refine iff_of_false (Nat.succ_ne_zero 0) ?_
    rintro ⟨output, h⟩
    cases h

theorem link_ofResult (r : Except Failure String) : (Outcome.ofResult r).link = none := by
  cases r <;> rfl

/-! ### The bench link -/

theorem sendFrames_bench (frames : List Frame) (b : Bench) :
    Provision.sendFrames frames b =
      (.ok (), { b with sent := b.sent ++ frames.map Frame.whole }) := by
  induction frames generalizing b with
  | nil => simp [Provision.sendFrames]
  | cons f rest ih =>
    have hsend : FrameSink.sendFrame f b = (.ok (), b.record false f.encode) := rfl
    rw [Provision.sendFrames, hsend]
    simp only [ih, Bench.record, List.append_assoc, List.map_cons]
    rfl

/-- Whether a link is asked for that needs neither a port nor a profile. -/
def LinkChoice.OnBench (choice : LinkChoice) : Prop :=
  choice.backend = .bench ∧ choice.profile = none

theorem openLink_onBench {choice : LinkChoice} (h : choice.OnBench) (read : FileReader) :
    ∃ name, openLink read choice = .ok { name := name } := by
  rw [openLink, profileOf, h.1, h.2]
  exact ⟨_, rfl⟩

/-- What provisioning reports and what it hands to a bench link. -/
theorem provisionSystem_bench {system : RackSystem} {only : List Stage} {persist : Bool}
    {plans : List StagePlan} (h : Provision.plan system (optionsFor only persist) = .ok plans)
    (b : Bench) :
    provisionSystem system only persist b =
      (.ok (plans.foldl ProvisionReport.add {}),
        { b with sent := b.sent ++ (planRows plans).map (·.frame.whole) }) := by
  have hrows : (planRows plans).map (·.frame.whole) =
      (plans.flatMap (·.frames)).map Frame.whole := by
    rw [planRows, List.map_flatMap, List.map_flatMap]
    simp only [List.map_map]
    rfl
  rw [provisionSystem, Provision.configure, h]
  simp only [Provision.sendStages_eq, sendFrames_bench, hrows]
  rfl

/-! ### The plan -/

/-- Naming stages leaves those plans that are of one of them. -/
theorem plan_optionsFor {system : RackSystem} {persist : Bool} {only : List Stage}
    {plans : List StagePlan} (h : Provision.plan system (optionsFor [] persist) = .ok plans)
    (hne : only ≠ []) :
    Provision.plan system (optionsFor only persist) =
      .ok (plans.filter fun p => only.contains p.stage) := by
  have honly : only.isEmpty = false := by simpa using hne
  have henabled : ∀ stage, (optionsFor only persist).enabled stage =
      ((optionsFor [] persist).enabled stage && only.contains stage) := by
    intro stage
    rw [optionsFor, honly]
    cases stage <;> rfl
  have hpersist : (optionsFor only persist).persist = (optionsFor [] persist).persist := rfl
  exact Provision.planStages_restricted hpersist henabled h

theorem planRows_filter (plans : List StagePlan) (keep : Stage → Bool) :
    planRows (plans.filter fun p => keep p.stage) =
      (planRows plans).filter fun r => r.stage.any keep := by
  induction plans with
  | nil => rfl
  | cons p plans ih =>
    have hcons : planRows (p :: plans) =
        p.frames.map (FrameRow.mk (some p.stage)) ++ planRows plans := List.flatMap_cons
    rw [List.filter_cons, hcons, List.filter_append, ← ih]
    cases hkeep : keep p.stage with
    | true =>
      have hkept : (p.frames.map (FrameRow.mk (some p.stage))).filter (fun r => r.stage.any keep) =
          p.frames.map (FrameRow.mk (some p.stage)) := by
        simp [List.filter_eq_self, hkeep]
      rw [if_pos rfl, hkept]
      exact List.flatMap_cons
    | false =>
      have hdropped : (p.frames.map (FrameRow.mk (some p.stage))).filter
          (fun r => r.stage.any keep) = [] := by
        simp [List.filter_eq_nil_iff, hkeep]
      rw [if_neg Bool.false_ne_true, hdropped, List.nil_append]

/-- What compiling counts for a stage. -/
def plannedLine (p : StagePlan) : String :=
  s!"# {p.stage.name}: {p.entities} entities, {p.frames.length} frames ({p.commits} persist)\n"

/-- What provisioning counts for a stage. -/
def sentLine (p : StagePlan) : String :=
  s!"{p.stage.name}: {p.entities} entities, {p.frames.length} frames\n"

/-- What provisioning counts in all: the sums over the stages. -/
def totalLine (plans : List StagePlan) : String :=
  let frames := (plans.map (·.frames.length)).sum
  let commits := (plans.map (·.commits)).sum
  s!"sent {frames} frames ({commits} persist)\n"

/-- The report of a plan that was sent tells the counts that the listing of the plan tells. -/
theorem reportListing_foldl (plans : List StagePlan) :
    reportListing (plans.foldl ProvisionReport.add {}) =
      String.join (plans.map sentLine) ++ totalLine plans := by
  rw [Provision.foldl_add, reportListing, List.length_flatMap, List.countP_flatMap]
  simp only [List.nil_append, Nat.zero_add, List.map_map]
  rfl

/-! ### The two commands -/

variable {read : FileReader} {file : String} {json persist : Bool} {choice : LinkChoice}
  {only : List Stage}

theorem compile_eq_ok_iff {output : String} :
    compile read file json persist = .ok output ↔
      ∃ system plans, loadSystem read file = .ok system ∧
        Provision.plan system (optionsFor [] persist) = .ok plans ∧
        planListing json plans = output := by
  simp only [compile, compileSystem, bind_eq_ok, mapError_eq_ok, pure_eq_ok]
  constructor
  · rintro ⟨system, hsystem, plans, hplans, houtput⟩
    exact ⟨system, plans, hsystem, hplans, houtput⟩
  · rintro ⟨system, plans, hsystem, hplans, houtput⟩
    exact ⟨system, hsystem, plans, hplans, houtput⟩

/-- Once the file is loaded and the link is open, the run is the session over that link. -/
theorem provision_loaded (h : choice.OnBench) (metrics : Bool) {system : RackSystem}
    (hsystem : loadSystem read file = .ok system) :
    ∃ name, provision read file choice only persist metrics =
      .ofSession ((provisionSystem system only persist { name := name }).1.map
          (provisionListing metrics),
        (provisionSystem system only persist { name := name }).2) := by
  obtain ⟨name, hlink⟩ := openLink_onBench h read
  refine ⟨name, ?_⟩
  rw [provision, hsystem]
  change overLink read choice _ = _
  rw [overLink, hlink]
  rfl

/-- A rack that can be planned is reported, and its frames are what the link has received. -/
theorem provision_planned (h : choice.OnBench) (metrics : Bool) {system : RackSystem}
    {plans : List StagePlan} (hsystem : loadSystem read file = .ok system)
    (hplans : Provision.plan system (optionsFor only persist) = .ok plans) :
    ∃ name, provision read file choice only persist metrics =
      { output := provisionListing metrics (plans.foldl ProvisionReport.add {})
        link := some { name := name, sent := (planRows plans).map (·.frame.whole) } } := by
  obtain ⟨name, hrun⟩ := provision_loaded h metrics hsystem
  refine ⟨name, ?_⟩
  rw [hrun, provisionSystem_bench hplans]
  rfl

theorem exitCode_provision (h : choice.OnBench) (metrics : Bool) :
    (provision read file choice only persist metrics).exitCode = 0 ↔
      ∃ system plans, loadSystem read file = .ok system ∧
        Provision.plan system (optionsFor only persist) = .ok plans := by
  constructor
  · intro hcode
    cases hsystem : loadSystem read file with
    | error f =>
      rw [provision, hsystem] at hcode
      cases hcode
    | ok system =>
      cases hplans : Provision.plan system (optionsFor only persist) with
      | error e =>
        obtain ⟨name, hrun⟩ := provision_loaded h metrics hsystem
        rw [hrun, provisionSystem, Provision.configure, hplans] at hcode
        cases hcode
      | ok plans => exact ⟨system, plans, rfl, hplans⟩
  · rintro ⟨system, plans, hsystem, hplans⟩
    obtain ⟨name, hrun⟩ := provision_planned h metrics hsystem hplans
    rw [hrun]
    rfl

/-- The dry run tells the truth, for every set of files and with or without commits: compiling opens
no link, and ends well exactly if provisioning on a bench link does. What it lists, read back byte
for byte, is then what the link of the provisioning run has received when that run ends, in order.
Both commands print the same counts of entities and frames for every stage, and the totals that
provisioning prints are the sums of the counts that compiling prints. With stages named, the link of
the run receives those of the listed frames that are of a named stage. -/
theorem dry_run_faithful (read : FileReader) {dry live : List String} {file : String}
    {json persist metrics : Bool} {choice : LinkChoice}
    (hdry : asked? dry = some (.compile file json persist))
    (hlive : asked? live = some (.provision file choice [] persist metrics))
    (hbench : choice.OnBench) :
    (run read dry).link = none ∧
    ((run read dry).exitCode = 0 ↔ (run read live).exitCode = 0) ∧
    ((run read dry).exitCode = 0 →
      ∃ (plans : List StagePlan) (link : Bench) (counters : String),
        (run read dry).output =
          (if json then frameJson (planRows plans)
          else frameLines (planRows plans) ++ String.join (plans.map plannedLine)) ∧
        (run read live).output =
          String.join (plans.map sentLine) ++ totalLine plans ++ counters ∧
        (metrics = false → counters = "") ∧
        (run read live).link = some link ∧
        link.sent = (planRows plans).map (·.frame.whole) ∧
        listedFrames? json (run read dry).output = some (link.sent.map (·.bytes)) ∧
        ∀ (part : List String) (choice' : LinkChoice) (only : List Stage) (metrics' : Bool),
          asked? part = some (.provision file choice' only persist metrics') → only ≠ [] →
          choice'.OnBench →
          (run read part).exitCode = 0 ∧
          ∃ link', (run read part).link = some link' ∧
            link'.sent = ((planRows plans).filter fun r => r.stage.any only.contains).map
              (·.frame.whole)) := by
  have hcompile : (run read dry).exitCode = 0 ↔
      ∃ output, compile read file json persist = .ok output := by
    rw [run_of_asked hdry]
    exact exitCode_ofResult _
  refine ⟨?_, ?_, fun hok => ?_⟩
  · rw [run_of_asked hdry]
    exact link_ofResult _
  · rw [hcompile, run_of_asked hlive, perform, exitCode_provision hbench]
    simp only [compile_eq_ok_iff]
    constructor
    · rintro ⟨_, system, plans, hsystem, hplans, -⟩
      exact ⟨system, plans, hsystem, hplans⟩
    · rintro ⟨system, plans, hsystem, hplans⟩
      exact ⟨_, system, plans, hsystem, hplans, rfl⟩
  · obtain ⟨output, houtput⟩ := hcompile.mp hok
    obtain ⟨system, plans, hsystem, hplans, rfl⟩ := compile_eq_ok_iff.mp houtput
    have hlisted : (run read dry).output = planListing json plans := by
      rw [run_of_asked hdry, perform, houtput]
      rfl
    obtain ⟨name, hprovision⟩ := provision_planned hbench metrics hsystem hplans
    have hrun : run read live = _ := (run_of_asked hlive read).trans hprovision
    -- One plan answers for all of them: its listing, its report and what the link was handed.
    refine ⟨plans, _, if metrics then
      (({} : Metrics).record (plans.foldl ProvisionReport.add {})).render else "",
      hlisted, ?_, ?_, congrArg Outcome.link hrun, rfl, ?_, ?_⟩
    · rw [hrun, ← reportListing_foldl]
      rfl
    · rintro rfl
      rfl
    · rw [hlisted, listedFrames?_planListing, List.map_map]
      rfl
    · intro part choice' only metrics' hpart hne hbench'
      obtain ⟨name', hpartial⟩ :=
        provision_planned hbench' metrics' hsystem (plan_optionsFor hplans hne)
      have hrun' : run read part = _ := (run_of_asked hpart read).trans hpartial
      refine ⟨?_, _, congrArg Outcome.link hrun', ?_⟩
      · rw [hrun']
        rfl
      · rw [planRows_filter]

/-- A file that describes a rack with a card and a device lock. -/
def twoSectionFile : FileReader := fun path =>
  if path = "rack.xml" then
    .ok ("<System><AllowedDevices><DeviceLock slot=\"2\" enabled=\"true\" sn=\"0x0102\"/>" ++
      "</AllowedDevices><Settings><Card slot=\"3\" type=\"5\"/></Settings></System>").toUTF8
  else .error .noSuchFile

/-- The link receives the frames of the card and then that of the lock, which is what compiling
lists. Where only the allowed devices are asked for, it receives that of the lock. -/
theorem dry_run_faithful_twoSectionFile :
    let dry := ["compile", "rack.xml"]
    let live := ["provision", "--port", "bench", "rack.xml"]
    let part := ["provision", "--port", "bench", "--only", "allowed-devices", "rack.xml"]
    let card : List Transfer :=
      [⟨false, [0x04, 0x40, 4, 0, 0x91, 0x01, 2, 0, 5, 0]⟩,
        ⟨false, [0xF5, 0x40, 3, 0, 0x91, 0x01, 2, 0, 1]⟩]
    let lock : List Transfer :=
      [⟨false, [0x08, 0x40, 10, 0, 0x91, 0x01, 1, 0, 0x02, 0x01, 0, 0, 0, 0, 0, 0]⟩]
    (run twoSectionFile dry).exitCode = 0 ∧ (run twoSectionFile live).exitCode = 0 ∧
      (∃ link, (run twoSectionFile live).link = some link ∧ link.sent = card ++ lock ∧
        listedFrames? false (run twoSectionFile dry).output = some (link.sent.map (·.bytes))) ∧
      ∃ link, (run twoSectionFile part).link = some link ∧ link.sent = lock := by
  intro dry live part card lock
  have hdry : asked? dry = some (.compile "rack.xml" false true) := rfl
  have hlive : asked? live =
      some (.provision "rack.xml" { port := some "bench" } [] true false) := rfl
  have hpart : asked? part =
      some (.provision "rack.xml" { port := some "bench" } [.allowedDevices] true false) := rfl
  have hok : (run twoSectionFile dry).exitCode = 0 := by decide +kernel
  have hall : (run twoSectionFile live).link.map (·.sent) = some (card ++ lock) := by
    decide +kernel
  have hsome : (run twoSectionFile part).link.map (·.sent) = some lock := by decide +kernel
  obtain ⟨-, hiff, hfaithful⟩ := dry_run_faithful twoSectionFile hdry hlive ⟨rfl, rfl⟩
  obtain ⟨_, link, _, -, -, -, hlink, -, hlisted, honly⟩ := hfaithful hok
  obtain ⟨-, link', hlink', -⟩ := honly part _ _ _ hpart (List.cons_ne_nil _ _) ⟨rfl, rfl⟩
  rw [hlink] at hall
  rw [hlink'] at hsome
  exact ⟨hok, hiff.mp hok, ⟨link, hlink, Option.some.inj hall, hlisted⟩,
    link', hlink', Option.some.inj hsome⟩

end MotionRack.Console
