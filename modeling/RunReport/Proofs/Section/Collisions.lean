import RunReport.Proofs.Section.Layout
import RunReport.Proofs.Traversal

/-!
# Why a layout is refused

A layout is refused for the first section that has the reserved key or collides with
one before it. The sections before it are free of collisions, so its key is that of one
of them at most, and so is its file. The refusal names what is shared and the title of
the one section that has it.
-/

namespace RunReport.Layout

/-- No section has the reserved key, and no two sections share a key or a file. -/
structure CollisionFree (plans : List SectionPlan) : Prop where
  /-- No section has the key of the table that lists the runs. -/
  unreserved : "manifest" ∉ plans.map (·.dataRef)
  /-- The keys are distinct. -/
  keys : (plans.map (·.dataRef)).Nodup
  /-- The files are distinct. -/
  files : (plans.map (·.targetFile)).Nodup

/-- Of all plans the holder alone has the given value as its member. -/
def HeldOnlyBy (plans : List SectionPlan) (member : SectionPlan → String) (value : String)
    (holder : SectionPlan) : Prop :=
  ∃ before after, plans = before ++ holder :: after ∧ member holder = value ∧
    ∀ other ∈ before ++ after, member other ≠ value

/-- How a plan collides with those before it, and what is said of it: the reserved key
comes before a key that is shared, and a key before a file. -/
inductive Collides (earlier : List SectionPlan) (plan : SectionPlan) : Failure → Prop
  /-- The plan has the reserved key. -/
  | reserved (taken : plan.dataRef = "manifest") : Collides earlier plan
      (.sectionCollision "data_ref" plan.dataRef "the run manifest")
  /-- The plan has the key of an earlier one. -/
  | key {holder : SectionPlan} (allowed : plan.dataRef ≠ "manifest")
      (held : HeldOnlyBy earlier (·.dataRef) plan.dataRef holder) : Collides earlier plan
      (.sectionCollision "data_ref" plan.dataRef ("section '" ++ holder.title ++ "'"))
  /-- The plan has a key of its own, and the file of an earlier one. -/
  | file {holder : SectionPlan} (allowed : plan.dataRef ≠ "manifest")
      (fresh : plan.dataRef ∉ earlier.map (·.dataRef))
      (held : HeldOnlyBy earlier (·.targetFile) plan.targetFile holder) : Collides earlier plan
      (.sectionCollision "target_file" plan.targetFile ("section '" ++ holder.title ++ "'"))

variable {earlier plans : List SectionPlan} {member : SectionPlan → String}
  {plan holder : SectionPlan} {failure : Failure}

/-- A layout is accepted exactly when it is free of collisions. -/
theorem check_eq_ok_iff_collisionFree : check plans = .ok () ↔ CollisionFree plans := by
  constructor
  · intro accepted
    have allowed := (check_eq_ok_iff.1 accepted).1
    refine ⟨fun taken => ?_, nodup_keys_of_check accepted, nodup_files_of_check accepted⟩
    obtain ⟨plan, listed, reserved⟩ := List.mem_map.1 taken
    exact allowed plan listed reserved
  · intro free
    refine check_eq_ok_iff.2 ⟨fun plan listed reserved => ?_, ?_⟩
    · exact free.unreserved (List.mem_map.2 ⟨plan, listed, reserved⟩)
    · exact (List.pairwise_map.1 free.keys).and (List.pairwise_map.1 free.files)

/-- The first plan with a member of a value is the only one if the members are distinct. -/
theorem holder?_eq_some_iff (distinct : (earlier.map member).Nodup) :
    holder? earlier member plan = some holder ↔
      HeldOnlyBy earlier member (member plan) holder := by
  unfold holder? HeldOnlyBy
  rw [List.find?_eq_some_iff_append]
  simp only [decide_eq_true_eq, Bool.not_eq_true', decide_eq_false_iff_not, List.forall_mem_append]
  constructor
  · rintro ⟨same, before, after, rfl, others⟩
    refine ⟨before, after, rfl, same, others, fun other listed repeated => ?_⟩
    have apart := (List.nodup_cons.1 (List.nodup_append.1 (List.map_append ▸ distinct)).2.1).1
    exact apart (List.mem_map.2 ⟨other, listed, repeated.trans same.symm⟩)
  · rintro ⟨before, after, rfl, same, others, _⟩
    exact ⟨same, before, after, rfl, others⟩

/-- A plan may not follow others that are free of collisions exactly when it collides with
them, and for the reason that comes first. -/
theorem clash?_eq_some_iff (free : CollisionFree earlier) :
    clash? earlier plan = some failure ↔ Collides earlier plan failure := by
  have keys : ∀ {holder}, holder? earlier (·.dataRef) plan = some holder ↔ _ :=
    holder?_eq_some_iff free.keys
  have files : ∀ {holder}, holder? earlier (·.targetFile) plan = some holder ↔ _ :=
    holder?_eq_some_iff free.files
  have fresh : holder? earlier (·.dataRef) plan = none ↔
      plan.dataRef ∉ earlier.map (·.dataRef) := by
    rw [holder?_eq_none_iff]
    simp
  constructor
  · intro clash
    unfold clash? at clash
    split at clash
    · rename_i taken
      exact Option.some.inj clash ▸ .reserved taken
    · rename_i allowed
      split at clash
      · rename_i found
        exact Option.some.inj clash ▸ .key allowed (keys.1 found)
      · rename_i missing
        obtain ⟨holder, found, rfl⟩ := Option.map_eq_some_iff.1 clash
        exact .file allowed (fresh.1 missing) (files.1 found)
  · intro collides
    unfold clash? manifestKey
    cases collides with
    | reserved taken => rw [if_pos taken]
    | key allowed held => rw [if_neg allowed, keys.2 held]
    | file allowed unshared held =>
      rw [if_neg allowed, fresh.2 unshared, files.2 held]
      rfl

/-- The plans passed so far with one more, if it may follow them. -/
def advance (earlier : List SectionPlan) (plan : SectionPlan) : Except Failure (List SectionPlan) :=
  match clash? earlier plan with
  | some failure => .error failure
  | none => .ok (earlier ++ [plan])

/-- Plans are checked by passing one after the other. -/
theorem checkAfter_eq_foldlM :
    checkAfter earlier plans = (plans.foldlM advance earlier).map fun _ => () := by
  induction plans generalizing earlier with
  | nil => rfl
  | cons plan rest ih =>
    rw [checkAfter, List.foldlM_cons, advance]
    cases clash? earlier plan with
    | some failure => rfl
    | none => exact ih

/-- A plan that may not follow those passed is refused for its clash. -/
theorem advance_eq_error_iff : advance earlier plan = .error failure ↔
    clash? earlier plan = some failure := by
  unfold advance
  cases clash? earlier plan with
  | some found => simp
  | none => simp

/-- What has been passed are the plans before the present one. -/
theorem passed_of_foldlM_advance {passed : List SectionPlan}
    (advanced : plans.foldlM advance earlier = .ok passed) : passed = earlier ++ plans := by
  induction plans generalizing earlier with
  | nil => simpa using (Except.ok.inj advanced).symm
  | cons plan rest ih =>
    rw [List.foldlM_cons] at advanced
    obtain ⟨next, step, later⟩ := Traversal.bind_eq_ok_iff.1 advanced
    unfold advance at step
    split at step
    · cases step
    · obtain rfl := Except.ok.inj step
      simpa using ih later

/-- Plans that follow others are refused for the first one that may not follow those
before it. -/
theorem checkAfter_eq_error_iff :
    checkAfter earlier plans = .error failure ↔ ∃ before plan after,
      plans = before ++ plan :: after ∧ checkAfter earlier before = .ok () ∧
        clash? (earlier ++ before) plan = some failure := by
  simp only [checkAfter_eq_foldlM, Traversal.map_eq_error_iff, Traversal.foldlM_eq_error_iff,
    Traversal.map_eq_ok_iff, advance_eq_error_iff]
  constructor
  · rintro ⟨before, plan, after, passed, split, advanced, clash⟩
    obtain rfl := passed_of_foldlM_advance advanced
    exact ⟨before, plan, after, split, ⟨_, advanced, trivial⟩, clash⟩
  · rintro ⟨before, plan, after, split, ⟨passed, advanced, _⟩, clash⟩
    obtain rfl := passed_of_foldlM_advance advanced
    exact ⟨before, plan, after, _, split, advanced, clash⟩

/-- A layout is accepted exactly when no section has the reserved key and the keys and
files are distinct. Otherwise it is refused for its first section that is reserved or
shares something with an earlier one, and the earlier one is named that has it. -/
theorem check_outcome (plans : List SectionPlan) :
    (check plans = .ok () ↔ CollisionFree plans) ∧
    ∀ failure, check plans = .error failure ↔ ∃ earlier plan later,
      plans = earlier ++ plan :: later ∧ CollisionFree earlier ∧
        Collides earlier plan failure := by
  refine ⟨check_eq_ok_iff_collisionFree, fun failure => ?_⟩
  rw [check, checkAfter_eq_error_iff]
  refine exists_congr fun earlier => exists_congr fun plan => exists_congr fun later =>
    and_congr_right fun _ => ?_
  rw [List.nil_append, ← check_eq_ok_iff_collisionFree, check]
  exact and_congr_right fun passed => clash?_eq_some_iff (check_eq_ok_iff_collisionFree.1 passed)

example : check [standardSummary, { standardSummary with title := "Again" },
    SectionPlan.ofKey "Runs" "manifest" .summary .none] =
      .error (.sectionCollision "data_ref" "summary" "section 'Run summary'") := rfl

end RunReport.Layout
