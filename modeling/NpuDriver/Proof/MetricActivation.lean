import NpuDriver.Library.Runs
import NpuDriver.Library.UniqueList
import NpuDriver.LevelZero.Metric

/-! The flags of the metric groups and the list of activated groups over all calls. -/

namespace NpuDriver

open Library ZeResult

namespace MetricContext

/-- The bookkeeping: a group of the device is flagged when it is listed, the domains of the list are
distinct, and every entry has a group of the device under its own domain. -/
structure Valid (context : MetricContext) : Prop where
  flag : ∀ metricGroup ∈ context.metricGroups, context.isActivated metricGroup = true ↔
    metricGroup ∈ context.activatedMetricGroups.map ActivatedMetricGroup.metricGroup
  domains : (context.activatedMetricGroups.map ActivatedMetricGroup.domain).Nodup
  own : ∀ entry ∈ context.activatedMetricGroups,
    entry.metricGroup ∈ context.metricGroups ∧ entry.domain = context.domain entry.metricGroup

/-- Distinct domains belong to distinct groups. -/
theorem Valid.groups {context : MetricContext} (valid : context.Valid) :
    (context.activatedMetricGroups.map ActivatedMetricGroup.metricGroup).Nodup := by
  have domains : context.activatedMetricGroups.map ActivatedMetricGroup.domain =
      (context.activatedMetricGroups.map ActivatedMetricGroup.metricGroup).map context.domain := by
    rw [List.map_map]
    apply List.map_congr_left
    intro entry member
    exact (valid.own entry member).2
  apply List.Nodup.of_map context.domain
  rw [← domains]
  exact valid.domains

theorem clearFlags_eq (vpuFd : Int) (entries : List ActivatedMetricGroup) (isActivated : Nat → Bool)
    (metricGroup : Nat) :
    clearFlags vpuFd entries isActivated metricGroup = true ↔
      isActivated metricGroup = true ∧
        ∀ entry ∈ entries, entry.vpuFd = vpuFd → entry.metricGroup ≠ metricGroup := by
  induction entries generalizing isActivated with
  | nil => simp [clearFlags]
  | cons entry rest ih =>
    rw [clearFlags, ih, List.forall_mem_cons]
    by_cases owned : entry.vpuFd = vpuFd
    · rw [if_pos owned]
      by_cases same : metricGroup = entry.metricGroup
      · simp [same, owned]
      · simp [Function.update_of_ne same, owned, Ne.symm same]
    · simp [owned]

theorem Valid.deactivate {context : MetricContext} (valid : context.Valid) (vpuFd : Int) :
    (context.deactivateMetricGroups vpuFd).Valid := by
  constructor
  · intro metricGroup available
    rw [deactivateMetricGroups]
    simp only
    rw [clearFlags_eq, valid.flag metricGroup available]
    constructor
    · rintro ⟨listed, others⟩
      obtain ⟨entry, member, rfl⟩ := List.mem_map.mp listed
      refine List.mem_map.mpr ⟨entry, List.mem_filter.mpr ⟨member, ?_⟩, rfl⟩
      have foreign : entry.vpuFd ≠ vpuFd := fun owned => others entry member owned rfl
      simpa using foreign
    · intro kept
      obtain ⟨entry, left, rfl⟩ := List.mem_map.mp kept
      obtain ⟨member, foreign⟩ := List.mem_filter.mp left
      refine ⟨List.mem_map.mpr ⟨entry, member, rfl⟩, ?_⟩
      intro other listed owned same
      have unique := List.inj_on_of_nodup_map valid.groups listed member same
      rw [unique] at owned
      simp [owned] at foreign
  · exact valid.domains.sublist (List.filter_sublist.map _)
  · intro entry left
    exact valid.own entry (List.mem_filter.mp left).1

/-- A group can be activated when it is one of the device's and its domain is free. -/
def Free (context : MetricContext) (metricGroup : Nat) : Prop :=
  metricGroup ∈ context.metricGroups ∧
    ∀ entry ∈ context.activatedMetricGroups, entry.domain ≠ context.domain metricGroup

/-- A free group is activated, any other one is refused and nothing changes. -/
theorem activateMetricGroup_cases {context : MetricContext} (valid : context.Valid) (vpuFd : Int)
    (metricGroup : Nat) :
    (context.Free metricGroup ∧ context.activateMetricGroup vpuFd metricGroup =
      (true, { context with
        isActivated := Function.update context.isActivated metricGroup true
        activatedMetricGroups :=
          context.activatedMetricGroups ++ [⟨context.domain metricGroup, metricGroup, vpuFd⟩] })) ∨
    (¬ context.Free metricGroup ∧ context.activateMetricGroup vpuFd metricGroup = (false, context)) := by
  rw [activateMetricGroup]
  by_cases available : metricGroup ∈ context.metricGroups
  · rw [if_neg (not_not.mpr available)]
    by_cases active : context.isActivated metricGroup = true
    · rw [if_pos active]
      right
      refine ⟨?_, rfl⟩
      rintro ⟨-, free⟩
      obtain ⟨entry, member, same⟩ := List.mem_map.mp ((valid.flag metricGroup available).mp active)
      exact free entry member (same ▸ (valid.own entry member).2)
    · rw [if_neg active]
      cases found : context.activatedMetricGroups.find? (fun entry => entry.domain = context.domain metricGroup) with
      | none =>
        left
        refine ⟨⟨available, ?_⟩, rfl⟩
        simpa using List.find?_eq_none.mp found
      | some entry =>
        right
        have member := List.mem_of_find?_eq_some found
        have domain : entry.domain = context.domain metricGroup := by simpa using List.find?_some found
        have other : entry.metricGroup ≠ metricGroup := by
          intro same
          exact active ((valid.flag metricGroup available).mpr (List.mem_map.mpr ⟨entry, member, same⟩))
        refine ⟨fun free => free.2 entry member domain, ?_⟩
        simp [other]
  · rw [if_pos available]
    exact .inr ⟨fun free => available free.1, rfl⟩

/-- A context after the group has been activated in it. -/
def activated (context : MetricContext) (vpuFd : Int) (metricGroup : Nat) : MetricContext :=
  (context.activateMetricGroup vpuFd metricGroup).2

theorem Valid.activated {context : MetricContext} (valid : context.Valid) (vpuFd : Int) (metricGroup : Nat) :
    (context.activated vpuFd metricGroup).Valid := by
  rw [MetricContext.activated]
  rcases activateMetricGroup_cases valid vpuFd metricGroup with ⟨⟨available, free⟩, result⟩ | ⟨-, result⟩
  · rw [result]
    constructor
    · intro other listed
      simp only [List.map_append, List.map_cons, List.map_nil, List.mem_append, List.mem_singleton]
      by_cases same : other = metricGroup
      · simp [same]
      · rw [Function.update_of_ne same, valid.flag other listed]
        simp [same]
    · simp only [List.map_append, List.map_cons, List.map_nil]
      apply List.Nodup.append valid.domains (List.nodup_singleton _)
      intro domain listed own
      obtain ⟨entry, member, rfl⟩ := List.mem_map.mp listed
      exact free entry member (List.mem_singleton.mp own)
    · intro entry member
      rcases List.mem_append.mp member with former | new
      · exact valid.own entry former
      · rw [List.mem_singleton.mp new]
        exact ⟨available, rfl⟩
  · rw [result]
    exact valid

theorem activated_metricGroups {context : MetricContext} (valid : context.Valid) (vpuFd : Int) (metricGroup : Nat) :
    (context.activated vpuFd metricGroup).metricGroups = context.metricGroups ∧
      (context.activated vpuFd metricGroup).domain = context.domain := by
  rw [activated]
  rcases activateMetricGroup_cases valid vpuFd metricGroup with ⟨-, result⟩ | ⟨-, result⟩ <;>
    rw [result] <;> exact ⟨rfl, rfl⟩

/-- After an activation of one group, another one is free if it was free and is of another domain. -/
theorem activated_free {context : MetricContext} (valid : context.Valid) (vpuFd : Int) {metricGroup : Nat}
    (free : context.Free metricGroup) (other : Nat) :
    (context.activated vpuFd metricGroup).Free other ↔
      context.Free other ∧ context.domain metricGroup ≠ context.domain other := by
  rcases activateMetricGroup_cases valid vpuFd metricGroup with ⟨-, result⟩ | ⟨refused, -⟩
  · rw [activated, result]
    simp only [Free, List.forall_mem_append, List.forall_mem_singleton, and_assoc]
  · exact absurd free refused

/-- A group that was activated or refused is not free afterwards. -/
theorem activated_self {context : MetricContext} (valid : context.Valid) (vpuFd : Int) (metricGroup : Nat) :
    ¬ (context.activated vpuFd metricGroup).Free metricGroup := by
  by_cases free : context.Free metricGroup
  · rw [activated_free valid vpuFd free]
    simp
  · rcases activateMetricGroup_cases valid vpuFd metricGroup with ⟨possible, -⟩ | ⟨-, result⟩
    · exact absurd possible free
    · rw [activated, result]
      exact free

/-- What is not free stays so. -/
theorem activated_kept {context : MetricContext} (valid : context.Valid) (vpuFd : Int) (metricGroup : Nat)
    {other : Nat} (taken : ¬ context.Free other) : ¬ (context.activated vpuFd metricGroup).Free other := by
  by_cases free : context.Free metricGroup
  · rw [activated_free valid vpuFd free]
    exact fun possible => taken possible.1
  · rcases activateMetricGroup_cases valid vpuFd metricGroup with ⟨possible, -⟩ | ⟨-, result⟩
    · exact absurd possible free
    · rw [activated, result]
      exact taken

theorem activateEach_cons (context : MetricContext) (vpuFd : Int) (metricGroup : Nat) (rest : List Nat) :
    activateEach vpuFd context (metricGroup :: rest) =
      ((context.activateMetricGroup vpuFd metricGroup).1 &&
        (activateEach vpuFd (context.activated vpuFd metricGroup) rest).1,
        (activateEach vpuFd (context.activated vpuFd metricGroup) rest).2) := rfl

theorem Valid.activateEach {context : MetricContext} (valid : context.Valid) (vpuFd : Int) (groups : List Nat) :
    (activateEach vpuFd context groups).2.Valid := by
  induction groups generalizing context with
  | nil => exact valid
  | cons metricGroup rest ih => exact ih (valid.activated vpuFd metricGroup)

/-- The entries of other file descriptors are left alone. -/
theorem activateEach_others {context : MetricContext} (valid : context.Valid) (vpuFd : Int) (groups : List Nat) :
    (activateEach vpuFd context groups).2.activatedMetricGroups.filter (fun entry => entry.vpuFd ≠ vpuFd) =
      context.activatedMetricGroups.filter fun entry => entry.vpuFd ≠ vpuFd := by
  induction groups generalizing context with
  | nil => rfl
  | cons metricGroup rest ih =>
    rw [activateEach_cons]
    simp only
    rw [ih (valid.activated vpuFd metricGroup), activated]
    rcases activateMetricGroup_cases valid vpuFd metricGroup with ⟨-, result⟩ | ⟨-, result⟩
    · rw [result]
      simp
    · rw [result]

/-- A group that is not free may be dropped from the array as far as the effect goes. -/
theorem activateEach_drop {context : MetricContext} (valid : context.Valid) (vpuFd : Int) {metricGroup : Nat}
    (taken : ¬ context.Free metricGroup) (groups : List Nat) :
    (activateEach vpuFd context groups).2 =
      (activateEach vpuFd context (groups.filter fun other => !other == metricGroup)).2 := by
  induction groups generalizing context with
  | nil => rfl
  | cons first rest ih =>
    have later := ih (valid.activated vpuFd first) (activated_kept valid vpuFd first taken)
    rw [activateEach_cons]
    simp only
    by_cases same : first = metricGroup
    · subst same
      rcases activateMetricGroup_cases valid vpuFd first with ⟨possible, -⟩ | ⟨-, result⟩
      · exact absurd possible taken
      · rw [later, activated, result]
        simp
    · rw [later, List.filter_cons_of_pos (by simpa using same), activateEach_cons]

/-- The effect of a call does not depend on repetitions in its array. -/
theorem activateEach_eraseDups {context : MetricContext} (valid : context.Valid) (vpuFd : Int) (groups : List Nat) :
    (activateEach vpuFd context groups).2 = (activateEach vpuFd context groups.eraseDups).2 := by
  induction length : groups.length using Nat.strongRecOn generalizing groups context with
  | ind size ih =>
    cases groups with
    | nil => rfl
    | cons metricGroup rest =>
      rw [List.eraseDups_cons, activateEach_cons, activateEach_cons]
      simp only
      rw [activateEach_drop (valid.activated vpuFd metricGroup) vpuFd (activated_self valid vpuFd metricGroup) rest]
      apply ih _ _ (valid.activated vpuFd metricGroup) _ rfl
      rw [← length, List.length_cons]
      exact Nat.lt_succ_of_le (List.length_filter_le ..)

/-- All groups are activated when each of them is free and their domains are distinct. -/
theorem activateEach_success {context : MetricContext} (valid : context.Valid) (vpuFd : Int) (groups : List Nat) :
    (activateEach vpuFd context groups).1 = true ↔
      (∀ metricGroup ∈ groups, context.Free metricGroup) ∧ (groups.map context.domain).Nodup := by
  induction groups generalizing context with
  | nil => simp [MetricContext.activateEach]
  | cons metricGroup rest ih =>
    rw [activateEach_cons, Bool.and_eq_true, ih (valid.activated vpuFd metricGroup),
      (activated_metricGroups valid vpuFd metricGroup).2]
    rcases activateMetricGroup_cases valid vpuFd metricGroup with ⟨free, result⟩ | ⟨taken, result⟩
    · simp only [result, activated_free valid vpuFd free, List.forall_mem_cons, List.map_cons, List.nodup_cons,
        List.mem_map, not_exists, not_and]
      constructor
      · rintro ⟨-, apart, distinct⟩
        exact ⟨⟨free, fun other member => (apart other member).1⟩,
          fun other member same => (apart other member).2 same.symm, distinct⟩
      · rintro ⟨⟨-, each⟩, apart, distinct⟩
        exact ⟨trivial, fun other member => ⟨each other member, fun same => apart other member same.symm⟩, distinct⟩
    · simp [result, taken]

/-- Why no call can activate all of these groups: one of them is none of the device's, or its domain is
held through another file descriptor or needed by another one of them. -/
def Obstructed (context : MetricContext) (vpuFd : Int) (groups : List Nat) : Prop :=
  ∃ metricGroup ∈ groups, metricGroup ∉ context.metricGroups ∨
    (∃ entry ∈ context.activatedMetricGroups, entry.vpuFd ≠ vpuFd ∧ entry.domain = context.domain metricGroup) ∨
    ∃ other ∈ groups, other ≠ metricGroup ∧ context.domain other = context.domain metricGroup

theorem deactivate_free (context : MetricContext) (vpuFd : Int) (metricGroup : Nat) :
    (context.deactivateMetricGroups vpuFd).Free metricGroup ↔ metricGroup ∈ context.metricGroups ∧
      ∀ entry ∈ context.activatedMetricGroups, entry.vpuFd ≠ vpuFd → entry.domain ≠ context.domain metricGroup := by
  simp only [Free, deactivateMetricGroups, List.mem_filter, decide_eq_true_eq, and_imp]

/-- A call whose array has no repetitions fails exactly when it is obstructed. -/
theorem activateEach_obstructed {context : MetricContext} (valid : context.Valid) (vpuFd : Int) {groups : List Nat}
    (distinct : groups.Nodup) :
    (activateEach vpuFd (context.deactivateMetricGroups vpuFd) groups).1 = false ↔ context.Obstructed vpuFd groups := by
  rw [← Bool.not_eq_true, activateEach_success (valid.deactivate vpuFd)]
  simp only [deactivate_free]
  constructor
  · intro failed
    by_contra free
    simp only [Obstructed, not_exists, not_and, not_or, not_not] at free
    refine failed ⟨fun metricGroup member => ⟨(free metricGroup member).1, ?_⟩, ?_⟩
    · exact fun entry listed foreign same => (free metricGroup member).2.1 entry listed foreign same
    · apply List.Nodup.map_on _ distinct
      intro first member second other same
      by_contra different
      exact (free second other).2.2 first member different same
  · rintro ⟨metricGroup, member, missing | ⟨entry, listed, foreign, same⟩ | ⟨other, listed, different, same⟩⟩ ⟨free, apart⟩
    · exact missing (free metricGroup member).1
    · exact (free metricGroup member).2 entry listed foreign same
    · exact different (List.inj_on_of_nodup_map apart listed member same)

/-- An array with a repetition gets the result of the one without it only when that is an error anyway. -/
theorem activateEach_repeated {context : MetricContext} (valid : context.Valid) (vpuFd : Int) (groups : List Nat) :
    activateEach vpuFd (context.deactivateMetricGroups vpuFd) groups =
        activateEach vpuFd (context.deactivateMetricGroups vpuFd) groups.eraseDups ↔
      groups.Nodup ∨ context.Obstructed vpuFd groups := by
  have single := activateEach_obstructed valid vpuFd (eraseDups_nodup groups)
  have same : context.Obstructed vpuFd groups.eraseDups ↔ context.Obstructed vpuFd groups := by
    simp only [Obstructed, List.mem_eraseDups]
  rw [same] at single
  constructor
  · intro equal
    by_contra other
    obtain ⟨repeated, clear⟩ := not_or.mp other
    have success : (activateEach vpuFd (context.deactivateMetricGroups vpuFd) groups).1 = true := by
      rw [equal, ← Bool.not_eq_false]
      exact fun failed => clear (single.mp failed)
    exact repeated (((activateEach_success (valid.deactivate vpuFd) vpuFd groups).mp success).2.of_map _)
  · rintro (distinct | obstructed)
    · rw [eraseDups_of_nodup distinct]
    · apply Prod.ext
      · have failed : (activateEach vpuFd (context.deactivateMetricGroups vpuFd) groups).1 = false := by
          rw [← Bool.not_eq_true]
          intro success
          have whole := (activateEach_success (valid.deactivate vpuFd) vpuFd groups).mp success
          exact Bool.false_ne_true
            ((activateEach_obstructed valid vpuFd (whole.2.of_map _)).mpr obstructed ▸ success)
        rw [failed, single.mpr obstructed]
      · exact activateEach_eraseDups (valid.deactivate vpuFd) vpuFd groups

end MetricContext

theorem MetricCall.run_valid (context : MetricContext) (call : MetricCall) (valid : context.Valid) :
    (call.run context).Valid := by
  rw [MetricCall.run, MetricContext.activateMetricGroups]
  split
  · exact valid
  · split
    · exact valid
    · exact (valid.deactivate call.vpuFd).activateEach call.vpuFd _

/-- In every state that calls from any contexts lead to, a group of the device is flagged as active exactly
when it is listed, groups and domains are listed at most once, and a call leaves the entries of other file
descriptors alone; it has the result and the effect of the call without repetitions exactly when there are
none or when it fails also without them. -/
theorem activation_bookkeeping {start : MetricContext} (none_listed : start.activatedMetricGroups = [])
    (none_active : ∀ metricGroup ∈ start.metricGroups, start.isActivated metricGroup = false)
    (calls : List MetricCall) :
    let context := runFrom MetricCall.run start calls
    (∀ metricGroup ∈ context.metricGroups, context.isActivated metricGroup = true ↔
      metricGroup ∈ context.activatedMetricGroups.map ActivatedMetricGroup.metricGroup) ∧
    (context.activatedMetricGroups.map ActivatedMetricGroup.metricGroup).Nodup ∧
    (context.activatedMetricGroups.map ActivatedMetricGroup.domain).Nodup ∧
    (∀ call : MetricCall, (call.run context).activatedMetricGroups.filter (fun entry => entry.vpuFd ≠ call.vpuFd) =
      context.activatedMetricGroups.filter fun entry => entry.vpuFd ≠ call.vpuFd) ∧
    ∀ vpuFd groups,
      (context.activateMetricGroups vpuFd groups.length (some groups) =
          context.activateMetricGroups vpuFd groups.eraseDups.length (some groups.eraseDups) ↔
        groups.Nodup ∨ context.metricsLoaded = false ∨ context.Obstructed vpuFd groups) := by
  intro context
  have initial : start.Valid := by
    refine ⟨fun metricGroup available => ?_, ?_, ?_⟩
    · simp [none_active metricGroup available, none_listed]
    · simp [none_listed]
    · simp [none_listed]
  have valid : context.Valid := run_invariant MetricCall.run_valid initial calls
  refine ⟨valid.flag, valid.groups, valid.domains, fun call => ?_, fun vpuFd groups => ?_⟩
  · rw [MetricCall.run, MetricContext.activateMetricGroups]
    split
    · rfl
    · split
      · rfl
      · rw [MetricContext.activateEach_others (valid.deactivate call.vpuFd)]
        simp [MetricContext.deactivateMetricGroups]
  · by_cases loaded : context.metricsLoaded = true
    · have results : ∀ first second : Bool × MetricContext,
          ((if first.1 then ZE_RESULT_SUCCESS else ZE_RESULT_ERROR_INVALID_ARGUMENT, first.2) =
            (if second.1 then ZE_RESULT_SUCCESS else ZE_RESULT_ERROR_INVALID_ARGUMENT, second.2)) ↔
          first = second := by
        rintro ⟨first, _⟩ ⟨second, _⟩
        cases first <;> cases second <;> simp
      simp only [MetricContext.activateMetricGroups, loaded, Bool.not_true, Bool.false_eq_true, ↓reduceIte,
        reduceCtorEq, and_false, Option.getD_some, List.take_length, false_or, results]
      exact MetricContext.activateEach_repeated valid vpuFd groups
    · simp [MetricContext.activateMetricGroups, loaded]

/-- A device with three metric groups in two domains. -/
def sampleMetrics : MetricContext where
  metricsLoaded := true
  metricGroups := [1, 2, 3]
  domain := fun metricGroup => if metricGroup = 3 then 1 else 0
  isActivated := fun _ => false
  activatedMetricGroups := []

theorem activation_bookkeeping_sample :
    let context := runFrom MetricCall.run sampleMetrics [⟨7, 2, some [1, 3]⟩, ⟨8, 1, some [2]⟩]
    context.isActivated 3 = true ∧ 3 ∈ context.activatedMetricGroups.map ActivatedMetricGroup.metricGroup := by
  intro context
  have active : context.isActivated 3 = true := by decide
  have bookkeeping := @activation_bookkeeping sampleMetrics rfl (by decide)
    [⟨7, 2, some [1, 3]⟩, ⟨8, 1, some [2]⟩]
  exact ⟨active, (bookkeeping.1 3 (by decide)).mp active⟩

/-- A group that is named twice is activated, and yet the call fails. -/
theorem repeated_group_refused :
    (sampleMetrics.activateMetricGroups 7 2 (some [1, 1])).1 = ZE_RESULT_ERROR_INVALID_ARGUMENT ∧
      (sampleMetrics.activateMetricGroups 7 1 (some [1])).1 = ZE_RESULT_SUCCESS ∧
      (sampleMetrics.activateMetricGroups 7 2 (some [1, 1])).2.activatedMetricGroups = [⟨0, 1, 7⟩] := by
  decide

end NpuDriver
