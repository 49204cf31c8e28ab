import MotionRack.Proofs.Provision.Plan

/-!
# One stage at a time

A plan is put together from the plans of its stages alone. Whether it can be made, what it
holds and why it fails is settled stage by stage; a stage that is not to be provisioned has
no say in any of it.
-/
namespace MotionRack

namespace ProvisionOptions

/-- Only one stage, with commits as before. -/
def alone (o : ProvisionOptions) (stage : Stage) : ProvisionOptions :=
  { only [stage] with persist := o.persist }

/-- All but one stage. -/
def without (o : ProvisionOptions) : Stage → ProvisionOptions
  | .cards => { o with cards := false }
  | .allowedDevices => { o with allowedDevices := false }
  | .customConfigs => { o with customConfigs := false }
  | .joysticks => { o with joysticks := false }

theorem enabled_without (o : ProvisionOptions) (off stage : Stage) :
    (o.without off).enabled stage = (o.enabled stage && decide (stage ≠ off)) := by
  cases off <;> cases stage <;> simp [without, enabled]

theorem persist_without (o : ProvisionOptions) (off : Stage) :
    (o.without off).persist = o.persist := by
  cases off <;> rfl

end ProvisionOptions

namespace Provision

theorem mem_order (stage : Stage) : stage ∈ Stage.order := by
  cases stage <;> decide

/-- The plan of one stage alone: that of the stage, if its section is there. -/
theorem plan_alone (s : RackSystem) (o : ProvisionOptions) (stage : Stage) :
    plan s (o.alone stage) = Option.toList <$> StagePlan.compile s o.persist stage := by
  have hplan : plan s (o.alone stage) = (do
      let found ← StagePlan.compile s o.persist stage
      return found.toList ++ []) := by
    cases stage <;> rfl
  rw [hplan]
  cases StagePlan.compile s o.persist stage with
  | error e => rfl
  | ok found => exact congrArg Except.ok (List.append_nil found.toList)

/-- The plans of stages are those of each stage alone, one after the other. -/
theorem planStages_eq_mapM (s : RackSystem) (o : ProvisionOptions) (stages : List Stage) :
    planStages s o stages =
      List.flatten <$> (stages.filter o.enabled).mapM fun stage => plan s (o.alone stage) := by
  induction stages with
  | nil => rfl
  | cons stage rest ih =>
    rw [planStages, List.filter_cons]
    by_cases henabled : o.enabled stage = true
    · rw [if_pos henabled, if_pos henabled, List.mapM_cons, plan_alone, ih]
      cases StagePlan.compile s o.persist stage with
      | error e => rfl
      | ok found =>
        cases (rest.filter o.enabled).mapM fun stage => plan s (o.alone stage) with
        | error e => rfl
        | ok owns => rfl
    · rw [if_neg henabled, if_neg henabled, ih]

/-- Stages that are switched off take their plans out and leave the others as they are. -/
theorem planStages_restricted {s : RackSystem} {o o' : ProvisionOptions} {keep : Stage → Bool}
    (hpersist : o'.persist = o.persist)
    (henabled' : ∀ stage, o'.enabled stage = (o.enabled stage && keep stage)) {stages : List Stage}
    {plans : List StagePlan} (h : planStages s o stages = .ok plans) :
    planStages s o' stages = .ok (plans.filter fun p => keep p.stage) := by
  induction stages generalizing plans with
  | nil =>
    obtain rfl : [] = plans := Except.ok.inj h
    rfl
  | cons stage rest ih =>
    rw [planStages_cons_eq_ok] at h
    rw [planStages_cons_eq_ok, henabled', hpersist]
    by_cases henabled : o.enabled stage = true
    · rw [if_pos henabled] at h
      obtain ⟨found, hfound, others, hothers, rfl⟩ := h
      have hown : ∀ p ∈ found.toList, p.stage = stage := by
        intro p hp
        obtain rfl : found = some p := Option.mem_toList.mp hp
        have hplan : stagePlan? s o.persist stage = some p := by
          rw [stagePlan?, hfound]
          rfl
        exact (stage_of_stagePlan? hplan).2
      rw [List.filter_append, henabled, Bool.true_and]
      cases hkeep : keep stage with
      | false =>
        have hdropped : found.toList.filter (fun p => keep p.stage) = [] := by
          rw [List.filter_eq_nil_iff]
          intro p hp
          rw [hown p hp, hkeep]
          exact Bool.false_ne_true
        rw [hdropped, List.nil_append]
        simpa using ih hothers
      | true =>
        have hkept : found.toList.filter (fun p => keep p.stage) = found.toList := by
          rw [List.filter_eq_self]
          intro p hp
          rw [hown p hp, hkeep]
        rw [if_pos rfl, hkept]
        exact ⟨found, hfound, _, ih hothers, rfl⟩
    · rw [if_neg henabled] at h
      simpa [henabled] using ih h

/-- Switching a stage off takes its plan out and leaves the others as they are. -/
theorem planStages_without {s : RackSystem} {o : ProvisionOptions} {stages : List Stage}
    {plans : List StagePlan} (h : planStages s o stages = .ok plans) (off : Stage) :
    planStages s (o.without off) stages = .ok (plans.filter fun p => p.stage ≠ off) :=
  planStages_restricted (ProvisionOptions.persist_without o off)
    (ProvisionOptions.enabled_without o off) h

/-- Stages are independent, for every rack and choice of stages. A plan can be made exactly if
that of each chosen stage alone can be, with or without commits as before, and it is made of
these, in the order of the stages. It fails with the error of the first chosen stage that fails
alone, so a stage that is not chosen never stands in the way. Switching a stage off takes out its
plan and nothing else. -/
theorem plan_stagewise (s : RackSystem) (o : ProvisionOptions) :
    ((∃ plans, plan s o = .ok plans) ↔
      ∀ stage, o.enabled stage = true → ∃ own, plan s (o.alone stage) = .ok own) ∧
    plan s o =
      List.flatten <$> (Stage.order.filter o.enabled).mapM (fun stage => plan s (o.alone stage)) ∧
    (∀ e, plan s o = .error e ↔
      ∃ before stage after, Stage.order.filter o.enabled = before ++ stage :: after ∧
        (∀ t ∈ before, ∃ own, plan s (o.alone t) = .ok own) ∧
        plan s (o.alone stage) = .error e) ∧
    ∀ plans off, plan s o = .ok plans →
      plan s (o.without off) = .ok (plans.filter fun p => p.stage ≠ off) := by
  have hparts := planStages_eq_mapM s o Stage.order
  refine ⟨?_, hparts, fun e => ?_, fun plans off h => planStages_without h off⟩
  · rw [plan, hparts]
    simp only [map_eq_ok]
    constructor
    · rintro ⟨_, owns, howns, _⟩ stage henabled
      have hmem : stage ∈ Stage.order.filter o.enabled :=
        List.mem_filter.mpr ⟨mem_order stage, henabled⟩
      exact exists_mapM_iff.mp ⟨owns, howns⟩ stage hmem
    · intro h
      obtain ⟨owns, howns⟩ := exists_mapM_iff.mpr fun stage hstage =>
        h stage (List.mem_filter.mp hstage).2
      exact ⟨owns.flatten, owns, howns, rfl⟩
  · rw [← mapM_eq_error_iff, plan, hparts]
    cases (Stage.order.filter o.enabled).mapM fun stage => plan s (o.alone stage) with
    | ok owns => exact iff_of_false nofun nofun
    | error e' => simp [Functor.map, Except.map]

end Provision
end MotionRack
