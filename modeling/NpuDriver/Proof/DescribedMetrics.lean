import NpuDriver.Library.LinkedRecords
import NpuDriver.Device.MetricDescriptors
import Mathlib.Data.List.Forall2

/-! When the metric groups of a device are what the descriptors in the kernel's reply say. -/

namespace NpuDriver.VPUDevice

open Library MetricGroup

/-- What is behind a descriptor for one of its strings. -/
def stringAt (buffer : List UInt8) (position stringSize : Nat) : List UInt8 :=
  if stringSize ≠ 0 then (buffer.drop position).takeWhile (· ≠ 0) else []

/-- Strings of these sizes, one behind the other, end inside the buffer. -/
def Terminated (buffer : List UInt8) : Nat → List Nat → Prop
  | _, [] => True
  | position, stringSize :: rest =>
    (stringSize ≠ 0 → 0 ∈ buffer.drop position) ∧ Terminated buffer (position + stringSize) rest

instance decidableTerminated (buffer : List UInt8) :
    (position : Nat) → (stringSizes : List Nat) → Decidable (Terminated buffer position stringSizes)
  | _, [] => inferInstanceAs (Decidable True)
  | position, stringSize :: rest =>
    have := decidableTerminated buffer (position + stringSize) rest
    inferInstanceAs (Decidable ((_ → _) ∧ _))

theorem readString_eq_ok {buffer result : List UInt8} {position stringSize : Nat} :
    readString buffer position stringSize = .ok result ↔
      (stringSize ≠ 0 → 0 ∈ buffer.drop position) ∧ stringAt buffer position stringSize = result := by
  unfold readString stringAt
  by_cases absent : stringSize = 0
  · simp [absent]
  · simp only [if_pos absent, readTerminated_eq_ok]
    simp [absent]

/-! Counters. -/

def counterLink (buffer : List UInt8) (position : Nat) : Nat :=
  (MetricCounterDescriptor.view buffer position).nextMetricCounterInfoOffset

def counterStrings (buffer : List UInt8) (position : Nat) : List Nat :=
  let counterDesc := MetricCounterDescriptor.view buffer position
  [counterDesc.nameStringSize, counterDesc.descriptionStringSize, counterDesc.componentStringSize,
    counterDesc.unitsStringSize]

/-- The counter that the descriptor at a position describes. -/
def counterAt (buffer : List UInt8) (position : Nat) : CounterInfo :=
  let counterDesc := MetricCounterDescriptor.view buffer position
  let strings := position + MetricCounterDescriptor.size
  let description := strings + counterDesc.nameStringSize
  let component := description + counterDesc.descriptionStringSize
  let units := component + counterDesc.componentStringSize
  { tier := counterDesc.tier
    metricType := counterDesc.metricType
    valueType := counterDesc.metricValueType
    metricName := stringAt buffer strings counterDesc.nameStringSize
    component := stringAt buffer component counterDesc.componentStringSize
    metricDescription := stringAt buffer description counterDesc.descriptionStringSize
    units := stringAt buffer units counterDesc.unitsStringSize }

/-- What is read for a counter is inside the buffer. -/
def CounterReadable (buffer : List UInt8) (position : Nat) : Prop :=
  position + MetricCounterDescriptor.readSize ≤ buffer.length ∧
    Terminated buffer (position + MetricCounterDescriptor.size) (counterStrings buffer position)

theorem readCounterInfo_eq_ok {buffer : List UInt8} {position : Nat} {info : CounterInfo} :
    readCounterInfo buffer position = .ok info ↔ CounterReadable buffer position ∧ counterAt buffer position = info := by
  simp only [readCounterInfo, bind_eq_ok, readWithin_eq_ok, readString_eq_ok, CounterReadable, counterStrings, counterAt,
    Terminated]
  constructor
  · rintro ⟨_, ⟨inside, rfl⟩, _, ⟨name, rfl⟩, _, ⟨description, rfl⟩, _, ⟨component, rfl⟩, _, ⟨units, rfl⟩, same⟩
    exact ⟨⟨inside, name, description, component, units, trivial⟩, Except.ok.inj same⟩
  · rintro ⟨⟨inside, name, description, component, units, -⟩, rfl⟩
    exact ⟨_, ⟨inside, rfl⟩, _, ⟨name, rfl⟩, _, ⟨description, rfl⟩, _, ⟨component, rfl⟩, _, ⟨units, rfl⟩, rfl⟩

theorem readCounters_eq_ok {buffer : List UInt8} {left position : Nat} {counterInfo result : List CounterInfo} :
    readCounters buffer left position counterInfo = .ok result ↔
      (∀ counter ∈ linked (counterLink buffer) left position, CounterReadable buffer counter) ∧
        counterInfo ++ (linked (counterLink buffer) left position).map (counterAt buffer) = result := by
  induction left generalizing position counterInfo with
  | zero => simp [readCounters]
  | succ left ih =>
    simp only [readCounters, bind_eq_ok, readCounterInfo_eq_ok, linked_succ, List.forall_mem_cons, List.map_cons]
    constructor
    · rintro ⟨_, ⟨readable, rfl⟩, later⟩
      obtain ⟨rest, rfl⟩ := ih.mp later
      exact ⟨⟨readable, rest⟩, by simp [counterLink]⟩
    · rintro ⟨⟨readable, rest⟩, rfl⟩
      exact ⟨_, ⟨readable, rfl⟩, ih.mpr ⟨rest, by simp [counterLink]⟩⟩

/-! Groups. -/

def groupLink (buffer : List UInt8) (position : Nat) : Nat :=
  (MetricGroupDescriptor.view buffer position).nextMetricGroupInfoOffset

def groupStrings (buffer : List UInt8) (position : Nat) : List Nat :=
  let groupDesc := MetricGroupDescriptor.view buffer position
  [groupDesc.nameStringSize, groupDesc.descriptionStringSize]

/-- Where the counters of a group begin. -/
def firstCounter (buffer : List UInt8) (position : Nat) : Nat :=
  position + (MetricGroupDescriptor.view buffer position).nextMetricCounterInfoOffset

/-- The positions at which the counters of a group are found. -/
def counterChain (buffer : List UInt8) (position : Nat) : List Nat :=
  linked (counterLink buffer) (MetricGroupDescriptor.view buffer position).numCounters (firstCounter buffer position)

/-- The group that the descriptor at a position describes, given its counters. -/
def groupAt (buffer : List UInt8) (position : Nat) (counterInfo : List CounterInfo) : GroupInfo :=
  let groupDesc := MetricGroupDescriptor.view buffer position
  let strings := position + MetricGroupDescriptor.size
  { groupIndex := groupDesc.groupId
    metricGroupName := stringAt buffer strings groupDesc.nameStringSize
    metricGroupDescription :=
      stringAt buffer (strings + groupDesc.nameStringSize) groupDesc.descriptionStringSize
    domain := groupDesc.domain
    metricCount := groupDesc.numCounters
    samplingType := groupDesc.samplingType
    counterInfo := counterInfo }

/-- What the loop builds for a group. -/
def parsedGroup (buffer : List UInt8) (position : Nat) : GroupInfo :=
  groupAt buffer position ((counterChain buffer position).map (counterAt buffer))

/-- What is read for a group and its counters is inside the buffer. -/
def GroupReadable (buffer : List UInt8) (position : Nat) : Prop :=
  position + MetricGroupDescriptor.readSize ≤ buffer.length ∧
    Terminated buffer (position + MetricGroupDescriptor.size) (groupStrings buffer position) ∧
    ∀ counter ∈ counterChain buffer position, CounterReadable buffer counter

theorem readGroupInfo_eq_ok {buffer : List UInt8} {position : Nat} {info : GroupInfo} :
    readGroupInfo buffer position = .ok info ↔ GroupReadable buffer position ∧ parsedGroup buffer position = info := by
  simp only [readGroupInfo, bind_eq_ok, readWithin_eq_ok, readString_eq_ok, readCounters_eq_ok, GroupReadable,
    groupStrings, parsedGroup, groupAt, Terminated]
  constructor
  · rintro ⟨_, ⟨inside, rfl⟩, _, ⟨name, rfl⟩, _, ⟨description, rfl⟩, _, ⟨counters, rfl⟩, same⟩
    exact ⟨⟨inside, ⟨name, description, trivial⟩, counters⟩, Except.ok.inj same⟩
  · rintro ⟨⟨inside, ⟨name, description, -⟩, counters⟩, rfl⟩
    exact ⟨_, ⟨inside, rfl⟩, _, ⟨name, rfl⟩, _, ⟨description, rfl⟩, _, ⟨counters, rfl⟩, rfl⟩

theorem readGroups_readable {buffer : List UInt8} {position : Nat} (readable : GroupReadable buffer position)
    (groupsInfo : List GroupInfo) :
    readGroups buffer position groupsInfo =
      if groupLink buffer position ≠ 0 then
        readGroups buffer (position + groupLink buffer position) (groupsInfo ++ [parsedGroup buffer position])
      else .ok (groupsInfo ++ [parsedGroup buffer position]) := by
  have parsed := readGroupInfo_eq_ok.mpr ⟨readable, rfl⟩
  rw [readGroups]
  split
  · rename_i failed
    rw [parsed] at failed
    cases failed
  · rename_i groupInfo same
    rw [parsed] at same
    cases same
    rfl

/-- The loop over the groups comes to an end exactly where the chain of groups does and all of them are readable. -/
theorem readGroups_eq_ok {buffer : List UInt8} {position : Nat} {groupsInfo result : List GroupInfo} :
    readGroups buffer position groupsInfo = .ok result ↔
      ∃ count, EndsAfter (groupLink buffer) count position ∧
        (∀ group ∈ linked (groupLink buffer) (count + 1) position, GroupReadable buffer group) ∧
        groupsInfo ++ (linked (groupLink buffer) (count + 1) position).map (parsedGroup buffer) = result := by
  constructor
  · intro read
    fun_induction readGroups buffer position groupsInfo with
    | case1 position groupsInfo fault failed => cases read
    | case2 position groupsInfo groupInfo parsed more ih =>
      obtain ⟨readable, rfl⟩ := readGroupInfo_eq_ok.mp parsed
      obtain ⟨count, ends, rest, rfl⟩ := ih read
      refine ⟨count + 1, .further more ends, ?_, ?_⟩
      · rw [linked_succ, List.forall_mem_cons]
        exact ⟨readable, rest⟩
      · rw [linked_succ, List.map_cons, List.append_assoc]
        rfl
    | case3 position groupsInfo groupInfo parsed last =>
      obtain ⟨readable, rfl⟩ := readGroupInfo_eq_ok.mp parsed
      cases read
      exact ⟨0, .here (not_not.mp last), by simpa using readable, by simp⟩
  · rintro ⟨count, ends, readable, rfl⟩
    induction ends generalizing groupsInfo with
    | here last =>
      rw [linked_succ, List.forall_mem_cons] at readable
      rw [readGroups_readable readable.1, if_neg (not_not.mpr last)]
      simp
    | further leads later ih =>
      rw [linked_succ, List.forall_mem_cons] at readable
      rw [readGroups_readable readable.1, if_pos leads, ih readable.2]
      simp

/-! What the result is meant to be. -/

/-- A counter that is what a whole descriptor of the buffer says. -/
structure DescribesCounter (buffer : List UInt8) (position : Nat) (info : CounterInfo) : Prop where
  inside : position + MetricCounterDescriptor.size ≤ buffer.length
  same : info = counterAt buffer position

/-- A group that is what a whole descriptor of the buffer says, with one counter for each of the descriptors
that follow one another from the first. -/
structure DescribesGroup (buffer : List UInt8) (position : Nat) (info : GroupInfo) : Prop where
  inside : position + MetricGroupDescriptor.size ≤ buffer.length
  same : info = groupAt buffer position info.counterInfo
  counters : List.Forall₂ (DescribesCounter buffer) (counterChain buffer position) info.counterInfo
  distinct : (counterChain buffer position).Nodup

/-- Groups that are those of the descriptors that follow one another from the start of the buffer. -/
structure DescribesGroups (buffer : List UInt8) (groups : List GroupInfo) : Prop where
  inOrder : List.Forall₂ (DescribesGroup buffer) (linked (groupLink buffer) groups.length 0) groups
  distinct : (linked (groupLink buffer) groups.length 0).Nodup

/-- The call returns after reads inside of the buffer, and when it has not failed the groups of the device are
followed by those of the buffer. -/
def SetsUpGroups (replies : MetricInfoReplies) (groupsInfo : List GroupInfo) : Prop :=
  ∃ success groups, initializeMetricGroups replies groupsInfo = .ok (success, groups) ∧
    (success = true → ∃ metricGroupsInfoSize copied added,
      replies.dataSize = some metricGroupsInfoSize ∧ replies.copied = some copied ∧ groups = groupsInfo ++ added ∧
        DescribesGroups (metricGroupsInfo metricGroupsInfoSize copied) added)

/-! What that takes of the reply. -/

structure CounterFits (buffer : List UInt8) (position : Nat) : Prop where
  inside : position + MetricCounterDescriptor.size ≤ buffer.length
  strings : Terminated buffer (position + MetricCounterDescriptor.size) (counterStrings buffer position)

structure GroupFits (buffer : List UInt8) (position : Nat) : Prop where
  inside : position + MetricGroupDescriptor.size ≤ buffer.length
  strings : Terminated buffer (position + MetricGroupDescriptor.size) (groupStrings buffer position)
  counters : ∀ counter ∈ counterChain buffer position, CounterFits buffer counter
  unbroken : Unbroken (counterLink buffer) (MetricGroupDescriptor.view buffer position).numCounters
    (firstCounter buffer position)

/-- The descriptors of the groups lead to a last one, and all of them fit. -/
def WellFormed (buffer : List UInt8) : Prop :=
  ∃ count, EndsAfter (groupLink buffer) count 0 ∧
    ∀ group ∈ linked (groupLink buffer) (count + 1) 0, GroupFits buffer group

/-- There is no buffer, or it can be allocated and is well-formed. -/
def RepliesFit (replies : MetricInfoReplies) : Prop :=
  match replies.dataSize with
  | none => True
  | some metricGroupsInfoSize =>
    metricGroupsInfoSize = 0 ∨ metricGroupsInfoSize ≤ replies.capacity ∧
      ∀ copied, replies.copied = some copied → WellFormed (metricGroupsInfo metricGroupsInfoSize copied)

theorem counterFits_iff {buffer : List UInt8} {position : Nat} :
    CounterFits buffer position ↔
      CounterReadable buffer position ∧ DescribesCounter buffer position (counterAt buffer position) := by
  constructor
  · rintro ⟨inside, strings⟩
    refine ⟨⟨?_, strings⟩, inside, rfl⟩
    simp only [MetricCounterDescriptor.size, MetricCounterDescriptor.readSize] at inside ⊢
    omega
  · rintro ⟨⟨-, strings⟩, inside, -⟩
    exact ⟨inside, strings⟩

theorem groupFits_iff {buffer : List UInt8} {position : Nat} :
    GroupFits buffer position ↔
      GroupReadable buffer position ∧ DescribesGroup buffer position (parsedGroup buffer position) := by
  have described : List.Forall₂ (DescribesCounter buffer) (counterChain buffer position)
        (parsedGroup buffer position).counterInfo ↔
      ∀ counter ∈ counterChain buffer position, DescribesCounter buffer counter (counterAt buffer counter) := by
    rw [parsedGroup, groupAt, List.forall₂_map_right_iff, List.forall₂_same]
  constructor
  · rintro ⟨inside, strings, counters, unbroken⟩
    constructor
    · refine ⟨?_, strings, fun counter member => (counterFits_iff.mp (counters counter member)).1⟩
      simp only [MetricGroupDescriptor.size, MetricGroupDescriptor.readSize] at inside ⊢
      omega
    · constructor
      case inside => exact inside
      case same => rfl
      case counters => exact described.mpr fun counter member => (counterFits_iff.mp (counters counter member)).2
      case distinct => exact linked_nodup_iff.mpr unbroken
  · rintro ⟨⟨-, strings, readable⟩, whole⟩
    constructor
    case inside => exact whole.inside
    case strings => exact strings
    case counters =>
      intro counter member
      exact counterFits_iff.mpr ⟨readable counter member, described.mp whole.counters counter member⟩
    case unbroken => exact linked_nodup_iff.mp whole.distinct

/-- The groups that are read are those of the descriptors exactly when the buffer is well-formed. -/
theorem readGroups_describes_iff {buffer : List UInt8} {groupsInfo : List GroupInfo} :
    (∃ added, readGroups buffer 0 groupsInfo = .ok (groupsInfo ++ added) ∧ DescribesGroups buffer added) ↔
      WellFormed buffer := by
  have described (count : Nat) : List.Forall₂ (DescribesGroup buffer) (linked (groupLink buffer) count 0)
        ((linked (groupLink buffer) count 0).map (parsedGroup buffer)) ↔
      ∀ group ∈ linked (groupLink buffer) count 0, DescribesGroup buffer group (parsedGroup buffer group) := by
    rw [List.forall₂_map_right_iff, List.forall₂_same]
  constructor
  · rintro ⟨added, read, inOrder, -⟩
    obtain ⟨count, ends, readable, same⟩ := readGroups_eq_ok.mp read
    obtain rfl := List.append_cancel_left same
    rw [List.length_map, linked_length, described] at inOrder
    exact ⟨count, ends, fun group member => groupFits_iff.mpr ⟨readable group member, inOrder group member⟩⟩
  · rintro ⟨count, ends, fits⟩
    refine ⟨_, readGroups_eq_ok.mpr ⟨count, ends, fun group member => (groupFits_iff.mp (fits group member)).1, rfl⟩, ?_⟩
    constructor
    · rw [List.length_map, linked_length, described]
      exact fun group member => (groupFits_iff.mp (fits group member)).2
    · rw [List.length_map, linked_length, linked_nodup_iff]
      exact ends.unbroken

theorem initializeMetricGroups_filled {replies : MetricInfoReplies} {groupsInfo : List GroupInfo}
    {metricGroupsInfoSize : Nat} {copied : List UInt8} (sized : replies.dataSize = some metricGroupsInfoSize)
    (nonempty : metricGroupsInfoSize ≠ 0) (allocated : metricGroupsInfoSize ≤ replies.capacity)
    (filled : replies.copied = some copied) :
    initializeMetricGroups replies groupsInfo =
      (readGroups (metricGroupsInfo metricGroupsInfoSize copied) 0 groupsInfo).map fun groups => (true, groups) := by
  simp only [initializeMetricGroups, sized, if_neg nonempty, if_neg (Nat.not_lt.mpr allocated), filled]
  cases readGroups (metricGroupsInfo metricGroupsInfoSize copied) 0 groupsInfo <;> rfl

/-- For a buffer, the call does what it is meant to exactly when the descriptors are read as they are meant. -/
theorem setsUpGroups_filled {replies : MetricInfoReplies} {groupsInfo : List GroupInfo} {metricGroupsInfoSize : Nat}
    {copied : List UInt8} (sized : replies.dataSize = some metricGroupsInfoSize) (nonempty : metricGroupsInfoSize ≠ 0)
    (allocated : metricGroupsInfoSize ≤ replies.capacity) (filled : replies.copied = some copied) :
    SetsUpGroups replies groupsInfo ↔ WellFormed (metricGroupsInfo metricGroupsInfoSize copied) := by
  rw [← @readGroups_describes_iff _ groupsInfo, SetsUpGroups,
    initializeMetricGroups_filled sized nonempty allocated filled]
  constructor
  · rintro ⟨success, groups, returned, described⟩
    generalize read : readGroups (metricGroupsInfo metricGroupsInfoSize copied) 0 groupsInfo = outcome at returned
    cases outcome with
    | error => cases returned
    | ok parsed =>
      cases returned
      obtain ⟨size, bytes, added, sameSize, sameBytes, rfl, whole⟩ := described rfl
      cases sized.symm.trans sameSize
      cases filled.symm.trans sameBytes
      exact ⟨added, rfl, whole⟩
  · rintro ⟨added, read, whole⟩
    rw [read]
    exact ⟨true, groupsInfo ++ added, rfl, fun _ => ⟨_, copied, added, sized, filled, rfl, whole⟩⟩

/-- The setup of the metric groups is as it is meant to be exactly when the reply is. -/
theorem groups_set_up_iff (replies : MetricInfoReplies) (groupsInfo : List GroupInfo) :
    SetsUpGroups replies groupsInfo ↔ RepliesFit replies := by
  have fails (failed : initializeMetricGroups replies groupsInfo = .ok (false, groupsInfo)) :
      SetsUpGroups replies groupsInfo := ⟨false, groupsInfo, failed, nofun⟩
  unfold RepliesFit
  cases sized : replies.dataSize with
  | none => exact iff_of_true (fails (by simp [initializeMetricGroups, sized])) trivial
  | some metricGroupsInfoSize =>
    by_cases empty : metricGroupsInfoSize = 0
    · exact iff_of_true (fails (by simp [initializeMetricGroups, sized, empty])) (.inl empty)
    · by_cases allocated : metricGroupsInfoSize ≤ replies.capacity
      · cases filled : replies.copied with
        | none =>
          have failed : initializeMetricGroups replies groupsInfo = .ok (false, groupsInfo) := by
            simp [initializeMetricGroups, sized, empty, Nat.not_lt.mpr allocated, filled]
          exact iff_of_true (fails failed) (.inr ⟨allocated, nofun⟩)
        | some copied =>
          rw [setsUpGroups_filled sized empty allocated filled]
          simp [empty, allocated]
      · have thrown : initializeMetricGroups replies groupsInfo = .error .thrown := by
          simp [initializeMetricGroups, sized, empty, Nat.not_le.mp allocated]
        constructor
        · rintro ⟨success, groups, returned, -⟩
          rw [thrown] at returned
          cases returned
        · rintro (none | ⟨fits, -⟩)
          · exact absurd none empty
          · exact absurd fits allocated

instance (buffer : List UInt8) (position : Nat) : Decidable (CounterFits buffer position) :=
  decidable_of_iff (_ ∧ _) ⟨fun fits => ⟨fits.1, fits.2⟩, fun fits => ⟨fits.inside, fits.strings⟩⟩

instance (buffer : List UInt8) (position : Nat) : Decidable (GroupFits buffer position) :=
  have : Decidable (Unbroken (counterLink buffer) (MetricGroupDescriptor.view buffer position).numCounters
    (firstCounter buffer position)) := inferInstanceAs (Decidable (∀ _ ∈ _, _))
  decidable_of_iff (_ ∧ _ ∧ _ ∧ _) ⟨fun fits => ⟨fits.1, fits.2.1, fits.2.2.1, fits.2.2.2⟩,
    fun fits => ⟨fits.inside, fits.strings, fits.counters, fits.unbroken⟩⟩

theorem WellFormed.first {buffer : List UInt8} (wellFormed : WellFormed buffer) : GroupFits buffer 0 := by
  obtain ⟨count, -, fits⟩ := wellFormed
  exact fits 0 (by simp)

/-- A reply of words of four bytes. -/
def wordsReply (words : List Nat) : MetricInfoReplies where
  dataSize := some (words.flatMap (littleEndian 4)).length
  capacity := 2 ^ 63 - 1
  copied := some (words.flatMap (littleEndian 4))

/-- A group called NOC that says how many counters it has; one is there. -/
def groupWords (numCounters : Nat) : List Nat :=
  [0, 44, 3, numCounters, 8, 1, 4, 0, 2, 0] ++ [0x434f4e] ++ [0, 0, 8, 0, 0, 1, 0, 0, 0, 0, 0, 0]

theorem wordsReply_setsUp {words : List Nat} (nonempty : (words.flatMap (littleEndian 4)).length ≠ 0)
    (allocated : (words.flatMap (littleEndian 4)).length ≤ 2 ^ 63 - 1) :
    SetsUpGroups (wordsReply words) [] ↔ WellFormed (words.flatMap (littleEndian 4)) := by
  rw [@setsUpGroups_filled (wordsReply words) [] _ _ rfl nonempty allocated rfl, metricGroupsInfo_all]

/-- When the reply ends in front of the counter, that is read behind the buffer, and where a second one is
said to follow, the only one is taken for it again. -/
theorem group_read_outside :
    ¬ SetsUpGroups (wordsReply ((groupWords 1).take 11)) [] ∧ ¬ SetsUpGroups (wordsReply (groupWords 2)) [] := by
  rw [wordsReply_setsUp (by decide) (by decide), wordsReply_setsUp (by decide) (by decide)]
  constructor
  · intro wellFormed
    exact absurd wellFormed.first (by decide +kernel)
  · intro wellFormed
    exact absurd wellFormed.first (by decide +kernel)

end NpuDriver.VPUDevice
