import MotionRack.Proofs.Success
import MotionRack.Provision.Plan

/-!
# What a plan is made of

A stage has a plan exactly if the rack has its section, and its frames are those of that
section. The plans of a rack are those of its stages, in order; a stage that cannot be
compiled leaves no plan at all.
-/
namespace MotionRack

/-- Whether a rack has the section that a stage is about. -/
def Provision.declares (s : RackSystem) : Stage → Bool
  | .cards => s.settings.isSome
  | .allowedDevices => s.allowedDevices.isSome
  | .customConfigs => s.settings.isSome
  | .joysticks => s.joysticks.isSome

namespace StagePlan

/-- The ways in which a stage can be compiled. -/
inductive Made (s : RackSystem) (persist : Bool) : Stage → Option StagePlan → Prop
  | absent {stage : Stage} (h : Provision.declares s stage = false) : Made s persist stage none
  | cards {x : Settings} {frames : List Frame} (hsection : s.settings = some x)
      (hframes : x.compile = .ok frames) :
      Made s persist .cards (some ⟨.cards, x.cards.length, frames⟩)
  | allowedDevices {x : AllowedDevices} {frames : List Frame}
      (hsection : s.allowedDevices = some x) (hframes : x.compile = .ok frames) :
      Made s persist .allowedDevices
        (some ⟨.allowedDevices, x.devices.length + x.locks.length, frames⟩)
  | customConfigs {x : Settings} (hsection : s.settings = some x) :
      Made s persist .customConfigs
        (some ⟨.customConfigs, x.customs.length, x.compileCustoms persist⟩)
  | joysticks {x : Joysticks} (hsection : s.joysticks = some x) :
      Made s persist .joysticks (some ⟨.joysticks, x.ports.length, x.compile persist⟩)

theorem made_of_compile {s : RackSystem} {persist : Bool} {stage : Stage}
    {found : Option StagePlan} (h : compile s persist stage = .ok found) :
    Made s persist stage found := by
  unfold compile at h
  cases stage with
  | cards =>
    dsimp only at h
    split at h
    next x hsection =>
      obtain ⟨frames, hframes, h⟩ := bind_eq_ok.mp h
      obtain rfl := pure_eq_ok.mp h
      exact .cards hsection hframes
    next hsection =>
      cases h
      exact .absent (by rw [Provision.declares, hsection]; rfl)
  | allowedDevices =>
    dsimp only at h
    split at h
    next x hsection =>
      obtain ⟨frames, hframes, h⟩ := bind_eq_ok.mp h
      obtain rfl := pure_eq_ok.mp h
      exact .allowedDevices hsection hframes
    next hsection =>
      cases h
      exact .absent (by rw [Provision.declares, hsection]; rfl)
  | customConfigs =>
    dsimp only at h
    split at h
    next x hsection =>
      cases h
      exact .customConfigs hsection
    next hsection =>
      cases h
      exact .absent (by rw [Provision.declares, hsection]; rfl)
  | joysticks =>
    dsimp only at h
    split at h
    next x hsection =>
      cases h
      exact .joysticks hsection
    next hsection =>
      cases h
      exact .absent (by rw [Provision.declares, hsection]; rfl)

end StagePlan

namespace Provision

/-- The plan of a stage, if the rack has the section and it can be compiled. -/
def stagePlan? (s : RackSystem) (persist : Bool) (stage : Stage) : Option StagePlan :=
  (StagePlan.compile s persist stage).toOption.join

/-- A stage that can be compiled has a plan, which is its own, exactly if the section is there. -/
theorem compile_eq_ok {s : RackSystem} {persist : Bool} {stage : Stage} {found : Option StagePlan}
    (h : StagePlan.compile s persist stage = .ok found) :
    found.map (·.stage) = if declares s stage then some stage else none := by
  cases StagePlan.made_of_compile h with
  | absent habsent => rw [habsent]; rfl
  | cards hsection _ => rw [declares, hsection]; rfl
  | allowedDevices hsection _ => rw [declares, hsection]; rfl
  | customConfigs hsection => rw [declares, hsection]; rfl
  | joysticks hsection => rw [declares, hsection]; rfl

theorem stage_of_stagePlan? {s : RackSystem} {persist : Bool} {stage : Stage} {p : StagePlan}
    (h : stagePlan? s persist stage = some p) :
    StagePlan.compile s persist stage = .ok (some p) ∧ p.stage = stage := by
  rw [stagePlan?] at h
  cases hfound : StagePlan.compile s persist stage with
  | error e =>
    rw [hfound] at h
    cases h
  | ok found =>
    rw [hfound] at h
    obtain rfl : found = some p := h
    have hstage := compile_eq_ok hfound
    split at hstage
    · exact ⟨rfl, Option.some.inj hstage⟩
    · cases hstage

theorem planStages_cons_eq_ok {s : RackSystem} {o : ProvisionOptions} {stage : Stage}
    {rest : List Stage} {plans : List StagePlan} :
    planStages s o (stage :: rest) = .ok plans ↔
      if o.enabled stage then
        ∃ found, StagePlan.compile s o.persist stage = .ok found ∧
          ∃ others, planStages s o rest = .ok others ∧ found.toList ++ others = plans
      else planStages s o rest = .ok plans := by
  rw [planStages]
  split <;> simp only [bind_eq_ok, pure_eq_ok]

/-- The plans are those of the stages that are to be provisioned, in order. -/
theorem planStages_eq_ok {s : RackSystem} {o : ProvisionOptions} {stages : List Stage}
    {plans : List StagePlan} (h : planStages s o stages = .ok plans) :
    plans = (stages.filter o.enabled).filterMap (stagePlan? s o.persist) ∧
      plans.map (·.stage) = stages.filter fun stage => o.enabled stage && declares s stage := by
  induction stages generalizing plans with
  | nil =>
    obtain rfl : [] = plans := Except.ok.inj h
    exact ⟨rfl, rfl⟩
  | cons stage rest ih =>
    rw [planStages_cons_eq_ok] at h
    rw [List.filter_cons, List.filter_cons]
    by_cases henabled : o.enabled stage = true
    · rw [if_pos henabled] at h ⊢
      obtain ⟨found, hfound, others, hothers, rfl⟩ := h
      obtain ⟨hplans, hstages⟩ := ih hothers
      have hplan : stagePlan? s o.persist stage = found := by
        rw [stagePlan?, hfound]
        rfl
      have hstage := compile_eq_ok hfound
      rw [henabled, Bool.true_and, List.filterMap_cons, hplan, List.map_append, hstages, ← hplans]
      cases found with
      | none =>
        cases hdeclares : declares s stage with
        | false => exact ⟨rfl, rfl⟩
        | true => rw [hdeclares] at hstage; cases hstage
      | some p =>
        cases hdeclares : declares s stage with
        | false => rw [hdeclares] at hstage; cases hstage
        | true =>
          rw [hdeclares] at hstage
          obtain rfl : p.stage = stage := Option.some.inj hstage
          exact ⟨rfl, rfl⟩
    · rw [if_neg henabled] at h ⊢
      rw [Bool.not_eq_true] at henabled
      rw [henabled, Bool.false_and, if_neg Bool.false_ne_true]
      exact ih h

/-- Every plan of a rack is that of a stage that is to be provisioned. -/
theorem compile_of_mem_plan {s : RackSystem} {o : ProvisionOptions} {plans : List StagePlan}
    (h : plan s o = .ok plans) {p : StagePlan} (hp : p ∈ plans) :
    o.enabled p.stage = true ∧ StagePlan.compile s o.persist p.stage = .ok (some p) := by
  rw [(planStages_eq_ok h).1] at hp
  obtain ⟨stage, hstage, hplan⟩ := List.mem_filterMap.mp hp
  obtain ⟨hcompile, rfl⟩ := stage_of_stagePlan? hplan
  exact ⟨(List.mem_filter.mp hstage).2, hcompile⟩

section

variable {s : RackSystem} {o : ProvisionOptions}

theorem exists_planStages {stages : List Stage}
    (h : ∀ stage ∈ stages, o.enabled stage = true →
      ∃ found, StagePlan.compile s o.persist stage = .ok found) :
    ∃ plans, planStages s o stages = .ok plans := by
  induction stages with
  | nil => exact ⟨[], rfl⟩
  | cons stage rest ih =>
    obtain ⟨hstage, hrest⟩ := List.forall_mem_cons.mp h
    obtain ⟨others, hothers⟩ := ih hrest
    rw [planStages, hothers]
    split
    next henabled =>
      obtain ⟨found, hfound⟩ := hstage henabled
      rw [hfound]
      exact ⟨_, rfl⟩
    next => exact ⟨others, rfl⟩

/-- If one stage only cannot be compiled, and it is to be provisioned, its error is the result. -/
theorem planStages_eq_error {stages : List Stage} {failing : Stage} {e : ConfigError}
    (hmem : failing ∈ stages) (henabled : o.enabled failing = true)
    (hfails : StagePlan.compile s o.persist failing = .error e)
    (hothers : ∀ stage, stage ≠ failing →
      ∃ found, StagePlan.compile s o.persist stage = .ok found) :
    planStages s o stages = .error e := by
  induction stages with
  | nil => cases hmem
  | cons stage rest ih =>
    rw [planStages]
    by_cases hstage : stage = failing
    · rw [hstage, if_pos henabled, hfails]
      rfl
    · -- Any other stage adds a plan or is passed over, and the error comes from behind it.
      have hrest := ih ((List.mem_cons.mp hmem).resolve_left (Ne.symm hstage))
      obtain ⟨found, hfound⟩ := hothers stage hstage
      rw [hrest, hfound]
      split <;> rfl

end

end Provision
end MotionRack
