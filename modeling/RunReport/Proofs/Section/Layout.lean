import Mathlib.Data.List.Pairwise
import RunReport.Section.Basic

/-!
# Layouts without clashes

A layout is accepted exactly when no section has the key of the table that lists
the runs and any two sections are apart: they share neither a key nor a file.
-/

namespace RunReport

/-- Two plans that share neither a key nor a file. -/
def SectionPlan.Apart (one other : SectionPlan) : Prop :=
  one.dataRef ≠ other.dataRef ∧ one.targetFile ≠ other.targetFile

namespace Layout

/-- No earlier plan has a member of the plan exactly when all have others. -/
theorem holder?_eq_none_iff {earlier : List SectionPlan} {member : SectionPlan → String}
    {plan : SectionPlan} :
    holder? earlier member plan = none ↔ ∀ other ∈ earlier, member other ≠ member plan := by
  simp [holder?, List.find?_eq_none]

/-- A plan may follow earlier ones exactly when it does not take the reserved
key and is apart from each of them. -/
theorem clash?_eq_none_iff {earlier : List SectionPlan} {plan : SectionPlan} :
    clash? earlier plan = none ↔
      plan.dataRef ≠ manifestKey ∧ ∀ other ∈ earlier, other.Apart plan := by
  unfold clash?
  by_cases reserved : plan.dataRef = manifestKey
  · simp [reserved]
  · rw [if_neg reserved]
    have keys : holder? earlier (·.dataRef) plan = none ↔ _ := holder?_eq_none_iff
    have files : holder? earlier (·.targetFile) plan = none ↔ _ := holder?_eq_none_iff
    cases held : holder? earlier (·.dataRef) plan with
    | some first =>
      have taken : ¬ ∀ other ∈ earlier, other.dataRef ≠ plan.dataRef := by
        rw [← keys, held]
        exact Option.some_ne_none _
      refine iff_of_false (Option.some_ne_none _) fun ⟨_, apart⟩ => taken fun other hother => ?_
      exact (apart other hother).1
    | none =>
      have free := keys.1 held
      rw [Option.map_eq_none_iff, files]
      constructor
      · intro apart
        exact ⟨reserved, fun other hother => ⟨free other hother, apart other hother⟩⟩
      · rintro ⟨_, apart⟩ other hother
        exact (apart other hother).2

/-- Plans may follow earlier ones exactly when none takes the reserved key, any
two of them are apart, and each is apart from the earlier ones. -/
theorem checkAfter_eq_ok_iff {earlier plans : List SectionPlan} :
    checkAfter earlier plans = .ok () ↔ (∀ plan ∈ plans, plan.dataRef ≠ manifestKey) ∧
      plans.Pairwise SectionPlan.Apart ∧ ∀ plan ∈ plans, ∀ other ∈ earlier, other.Apart plan := by
  induction plans generalizing earlier with
  | nil => simp [checkAfter]
  | cons plan rest ih =>
    have follows : checkAfter earlier (plan :: rest) = .ok () ↔
        clash? earlier plan = none ∧ checkAfter (earlier ++ [plan]) rest = .ok () := by
      rw [checkAfter]
      cases clash? earlier plan with
      | some failure => simp
      | none => simp
    rw [follows, clash?_eq_none_iff, ih, List.pairwise_cons, List.forall_mem_cons,
      List.forall_mem_cons]
    constructor
    · rintro ⟨⟨here, before⟩, later, apart, between⟩
      refine ⟨⟨here, later⟩, ⟨fun next hnext => ?_, apart⟩, before,
        fun next hnext other hother => ?_⟩
      · exact between next hnext plan (by simp)
      · exact between next hnext other (List.mem_append_left _ hother)
    · rintro ⟨⟨here, later⟩, ⟨ahead, apart⟩, before, between⟩
      refine ⟨⟨here, before⟩, later, apart, fun next hnext other hother => ?_⟩
      rcases List.mem_append.1 hother with hother | hother
      · exact between next hnext other hother
      · exact List.mem_singleton.1 hother ▸ ahead next hnext

/-- A layout is accepted exactly when no section takes the reserved key and any
two sections are apart. -/
theorem check_eq_ok_iff {plans : List SectionPlan} :
    check plans = .ok () ↔ (∀ plan ∈ plans, plan.dataRef ≠ manifestKey) ∧
      plans.Pairwise SectionPlan.Apart := by
  rw [check, checkAfter_eq_ok_iff]
  simp

/-- The keys of an accepted layout are distinct. -/
theorem nodup_keys_of_check {plans : List SectionPlan} (accepted : check plans = .ok ()) :
    (plans.map (·.dataRef)).Nodup :=
  List.pairwise_map.2 ((check_eq_ok_iff.1 accepted).2.imp And.left)

/-- The files of an accepted layout are distinct. -/
theorem nodup_files_of_check {plans : List SectionPlan} (accepted : check plans = .ok ()) :
    (plans.map (·.targetFile)).Nodup :=
  List.pairwise_map.2 ((check_eq_ok_iff.1 accepted).2.imp And.right)

end Layout

end RunReport
