import NpuDriver.Library.Runs
import NpuDriver.LevelZero.MetricStreamer

/-! Metric streamers as byte streams, over any kernel that does as its interface says. -/

namespace NpuDriver

open Library ZeResult List

variable {κ ε : Type}

/-- What the description of the interface says of the calls. `ready` is what waits in the session of a mask, if there
is one, and `reports` what the device collects for a mask. A mask stands for one session, a read copies from the front,
and between two calls data may be lost. -/
structure MetricIoctls.Documented (ioctls : MetricIoctls κ ε) (ready : κ → BitVec 64 → Option (List UInt8))
    (reports : ε → BitVec 64 → List UInt8) : Prop where
  started : ∀ kernel mask samplingPeriod readPeriodSamples sampleSize next,
    ioctls.metricStreamerStart kernel mask samplingPeriod readPeriodSamples = (.started sampleSize, next) →
      ready kernel mask = none ∧ ready next = Function.update (ready kernel) mask (some [])
  refused : ∀ kernel mask samplingPeriod readPeriodSamples noMemory next,
    ioctls.metricStreamerStart kernel mask samplingPeriod readPeriodSamples = (.failed noMemory, next) →
      ready next = ready kernel
  stopped : ∀ kernel mask stopped next, ioctls.metricStreamerStop kernel mask = (stopped, next) →
    ready next = Function.update (ready kernel) mask none ∨ stopped = false ∧ ready next = ready kernel
  asked : ∀ kernel mask size bytes next, ioctls.metricStreamerGetData kernel mask 0 = (some (size, bytes), next) →
    ∃ data, ready kernel mask = some data ∧ size = data.length ∧ bytes = [] ∧ ready next = ready kernel
  copied : ∀ kernel mask bufferSize size bytes next, bufferSize ≠ 0 →
    ioctls.metricStreamerGetData kernel mask bufferSize = (some (size, bytes), next) →
      ∃ left, ready kernel mask = some (bytes ++ left) ∧ size = bytes.length ∧ size ≤ bufferSize ∧
        ready next = Function.update (ready kernel) mask (some left)
  failed : ∀ kernel mask bufferSize next, ioctls.metricStreamerGetData kernel mask bufferSize = (none, next) →
    ready next = ready kernel
  elapsed : ∀ kernel event mask left, ready (ioctls.elapse kernel event) mask = some left →
    left <+ (ready kernel mask).getD [] ++ reports event mask

/-- What is seen of a streamer: its group, the size of its samples, the size that its caller was told last, all that
the device collected for it since it was opened, and what its caller was handed. -/
structure ReportStream where
  groupIndex : Nat
  sampleSize : Nat
  known : Nat
  collected : List UInt8
  handed : List UInt8
deriving DecidableEq, Repr

namespace ReportStream

def collect (reports : BitVec 64 → List UInt8) (stream : ReportStream) : ReportStream :=
  { stream with collected := stream.collected ++ reports (groupMask stream.groupIndex) }

/-- What a read answers when `data` is ready. The kernel may fail, and it may copy less than it is asked for. -/
def Reads (stream : ReportStream) (data : Option (List UInt8)) (maxReportCount size : Nat) (pRawData : Bool)
    (answer : StreamerAnswer) : Prop :=
  let requested := if size = 0 then 0 else readSize maxReportCount stream.sampleSize stream.known size
  if size ≠ 0 ∧ pRawData = false then answer = .data ZE_RESULT_SUCCESS requested []
  else
    answer = .data ZE_RESULT_ERROR_UNKNOWN requested [] ∨
      ∃ bytes, data = some bytes ∧
        if requested = 0 then answer = .data ZE_RESULT_SUCCESS bytes.length []
        else
          ∃ count, count ≤ requested ∧ count ≤ bytes.length ∧
            answer = .data ZE_RESULT_SUCCESS count (bytes.take count)

end ReportStream

/-- The streams by the order of their opening, and the stream and size that an event waits for. -/
structure StreamTable where
  streams : List (Option ReportStream)
  watched : Nat → Option (Nat × Nat)

namespace StreamTable

def empty : StreamTable := ⟨[], fun _ => none⟩

/-- What a call and its answer show. -/
def observe (reports : ε → BitVec 64 → List UInt8) (table : StreamTable) : StreamerCall ε → StreamerAnswer → StreamTable
  | .metricStreamerOpen _ _ (some desc) _ _ _ groupIndex event, .opened sampleSize =>
    { streams := table.streams ++ [some ⟨groupIndex, sampleSize, 0, [], []⟩]
      watched :=
        trackedWith table.watched event desc.notifyEveryNReports (groupIndex, sampleSize * desc.notifyEveryNReports) }
  | .close streamer, .result _ => { table with streams := table.streams.set streamer none }
  | .readData streamer _ (some size) _, .data .ZE_RESULT_SUCCESS told written =>
    { table with
      streams :=
        table.streams.set streamer ((live table.streams streamer).map fun stream =>
          { stream with
            known := if size = 0 then told else stream.known
            handed := stream.handed ++ written }) }
  | .elapse event, _ => { table with streams := table.streams.map (Option.map (ReportStream.collect (reports event))) }
  | _, _ => table

end StreamTable

theorem groupMask_getLsbD (groupIndex : Nat) {bit : Nat} (small : bit < 64) :
    (groupMask groupIndex).getLsbD bit = decide (bit = groupIndex) := by
  rw [groupMask, BitVec.getLsbD_shiftLeft]
  simp only [small, decide_true, Bool.true_and, BitVec.getLsbD_one]
  by_cases below : bit < groupIndex
  · simp [below]
    omega
  · simp [below]
    omega

theorem groupMask_inj {groupIndex other : Nat} (small : groupIndex < 64)
    (same : groupMask groupIndex = groupMask other) : groupIndex = other := by
  have bit := groupMask_getLsbD other small
  rw [← same, groupMask_getLsbD groupIndex small] at bit
  simpa using bit

theorem groupMask_ne_zero {groupIndex : Nat} (small : groupIndex < 64) : groupMask groupIndex ≠ 0 := by
  intro zero
  have bit := groupMask_getLsbD groupIndex small
  rw [zero] at bit
  simp at bit

/-- Up to this index the widened `int` is the mask that the other calls use. -/
theorem startMask_eq {groupIndex : Nat} (small : groupIndex ≤ 30) : startMask groupIndex = groupMask groupIndex := by
  have all : ∀ index : Fin 31, startMask index = groupMask index := by decide
  exact all ⟨groupIndex, Nat.lt_succ_of_le small⟩

/-- The highest bit of the `int` is its sign. -/
example : startMask 31 ≠ groupMask 31 := by decide

/-- Two such tables stay in step. -/
theorem trackedWith_map {α β : Type} (change : α → β) {left : Nat → Option β} {right : Nat → Option α}
    (same : ∀ event, left event = (right event).map change) (event : Option Nat) (notifyEveryNReports : Nat) (data : α)
    (other : Nat) :
    trackedWith left event notifyEveryNReports (change data) other =
      (trackedWith right event notifyEveryNReports data other).map change := by
  cases event with
  | none => exact same other
  | some event =>
    unfold trackedWith
    by_cases silent : notifyEveryNReports = 0
    · simp only [silent, ↓reduceIte, same]
    · by_cases own : other = event
      · simp [silent, own]
      · simp [silent, own, same]

theorem trackedWith_some {α : Type} {tracked : Nat → Option α} {event : Option Nat} {notifyEveryNReports : Nat}
    {data entry : α} {other : Nat} (found : trackedWith tracked event notifyEveryNReports data other = some entry) :
    entry = data ∨ tracked other = some entry := by
  cases event with
  | none => exact .inr found
  | some event =>
    unfold trackedWith at found
    by_cases silent : notifyEveryNReports = 0
    · exact .inr (by simpa [silent] using found)
    · by_cases own : other = event
      · exact .inl (by simpa [silent, own, eq_comm] using found)
      · exact .inr (by simpa [silent, own] using found)

/-- What waits in the sessions of the kernel, by their masks. -/
abbrev MetricSessions : Type := BitVec 64 → Option (List UInt8)

namespace MetricSessions

/-- No session gets more. -/
def Within (after before : MetricSessions) : Prop := ∀ mask, (after mask).getD [] <+ (before mask).getD []

variable {sessions others : MetricSessions}

theorem Within.of_eq (same : others = sessions) : Within others sessions := fun _ => same ▸ Sublist.refl _

theorem Within.of_update {mask : BitVec 64} {session : Option (List UInt8)}
    (changed : others = Function.update sessions mask session) (less : session.getD [] <+ (sessions mask).getD []) :
    Within others sessions := by
  intro other
  rw [changed]
  by_cases same : other = mask
  · rw [same, Function.update_self]
    exact less
  · rw [Function.update_of_ne same]

end MetricSessions

/-- A streamer is what is seen of it, and its session holds what is left of the reports. -/
structure StreamFollows (sessions : MetricSessions) (object : MetricStreamer) (stream : ReportStream) : Prop where
  group : object.groupIndex = stream.groupIndex
  sample : object.sampleSize = stream.sampleSize
  known : object.actualBufferSize = stream.known
  small : stream.groupIndex ≤ 30
  order : stream.handed ++ (sessions (groupMask stream.groupIndex)).getD [] <+ stream.collected

theorem StreamFollows.within {sessions others : MetricSessions} {object : MetricStreamer} {stream : ReportStream}
    (follows : StreamFollows sessions object stream) (less : others.Within sessions) :
    StreamFollows others object stream :=
  { follows with order := ((Sublist.refl _).append (less _)).trans follows.order }

/-- Each stream has a session of its own, with all that its caller was not yet handed. -/
structure StreamsWhole (sessions : MetricSessions) (streams : List (Option ReportStream)) : Prop where
  apart : ∀ first second left right, live streams first = some left → live streams second = some right →
    left.groupIndex = right.groupIndex → first = second
  complete : ∀ streamer stream, live streams streamer = some stream →
    ∃ data, sessions (groupMask stream.groupIndex) = some data ∧ stream.handed ++ data = stream.collected

namespace StreamsWhole

variable {sessions others : MetricSessions} {streams : List (Option ReportStream)} {stream : ReportStream}

theorem nil (sessions : MetricSessions) : StreamsWhole sessions [] := by
  refine ⟨?_, ?_⟩
  · intro first second left right absent
    cases absent
  · intro streamer stream absent
    cases absent

/-- A stream opens whose mask had no session. -/
theorem append (whole : StreamsWhole sessions streams) (groupIndex sampleSize : Nat)
    (free : sessions (groupMask groupIndex) = none) :
    StreamsWhole (Function.update sessions (groupMask groupIndex) (some []))
      (streams ++ [some ⟨groupIndex, sampleSize, 0, [], []⟩]) := by
  have other : ∀ streamer stream, live streams streamer = some stream →
      groupMask stream.groupIndex ≠ groupMask groupIndex := by
    intro streamer stream found same
    obtain ⟨data, session, -⟩ := whole.complete streamer stream found
    rw [same, free] at session
    cases session
  refine ⟨?_, ?_⟩
  · intro first second left right found found' same
    rw [live_append] at found found'
    split at found
    · rename_i new
      split at found'
      · rename_i new'
        rw [new, new']
      · cases found
        exact absurd (congrArg groupMask same.symm) (other second right found')
    · split at found'
      · cases found'
        exact absurd (congrArg groupMask same) (other first left found)
      · exact whole.apart first second left right found found' same
  · intro streamer stream found
    rw [live_append] at found
    split at found
    · cases found
      exact ⟨[], Function.update_self _ _ _, rfl⟩
    · rw [Function.update_of_ne (other streamer stream found)]
      exact whole.complete streamer stream found

/-- A stream changes with its session, or ends, and the other sessions stay as they are. -/
theorem replace (whole : StreamsWhole sessions streams)
    (small : ∀ streamer stream, live streams streamer = some stream → stream.groupIndex ≤ 30) {streamer : Nat}
    (present : live streams streamer = some stream) {partner : Option ReportStream}
    (own : ∀ changed, partner = some changed → changed.groupIndex = stream.groupIndex ∧
      ∃ data, others (groupMask stream.groupIndex) = some data ∧ changed.handed ++ data = changed.collected)
    (same : ∀ mask, mask ≠ groupMask stream.groupIndex → others mask = sessions mask) :
    StreamsWhole others (streams.set streamer partner) := by
  refine ⟨?_, ?_⟩
  · -- the stream keeps its group, so that it is still apart from the others
    intro first second left right found found' groups
    rw [live_set (live_lt present)] at found found'
    split at found
    · rename_i self
      split at found'
      · rename_i self'
        rw [self, self']
      · rw [self]
        exact whole.apart streamer second stream right present found' ((own left found).1 ▸ groups)
    · split at found'
      · rename_i self'
        rw [self']
        exact whole.apart first streamer left stream found present ((own right found').1 ▸ groups)
      · exact whole.apart first second left right found found' groups
  · intro other member found
    rw [live_set (live_lt present)] at found
    split at found
    · obtain ⟨group, data⟩ := own member found
      rw [group]
      exact data
    · rename_i different
      rw [same]
      · exact whole.complete other member found
      · intro masks
        have below := small other member found
        have group : member.groupIndex = stream.groupIndex := groupMask_inj (by omega) masks
        exact different (whole.apart other streamer member stream found present group)

/-- The device collects reports, and all of them wait. -/
theorem collect (whole : StreamsWhole sessions streams) (reports : BitVec 64 → List UInt8)
    (kept : ∀ mask data, sessions mask = some data → others mask = some (data ++ reports mask)) :
    StreamsWhole others (streams.map (Option.map (ReportStream.collect reports))) := by
  refine ⟨?_, ?_⟩
  · intro first second left right found found' same
    rw [live_map] at found found'
    obtain ⟨before, present, rfl⟩ := Option.map_eq_some_iff.mp found
    obtain ⟨before', present', rfl⟩ := Option.map_eq_some_iff.mp found'
    exact whole.apart first second before before' present present' same
  · intro streamer stream found
    rw [live_map] at found
    obtain ⟨before, present, rfl⟩ := Option.map_eq_some_iff.mp found
    obtain ⟨data, session, whole⟩ := whole.complete streamer before present
    refine ⟨data ++ reports (groupMask before.groupIndex), kept _ _ session, ?_⟩
    simp only [ReportStream.collect]
    rw [← List.append_assoc, whole]

end StreamsWhole

namespace StreamerSystem

variable {ioctls : MetricIoctls κ ε} {ready : κ → MetricSessions} {reports : ε → BitVec 64 → List UInt8}
variable {system : StreamerSystem κ} {table : StreamTable} {object : MetricStreamer} {stream : ReportStream}

structure Stands (ready : κ → MetricSessions) (system : StreamerSystem κ) (table : StreamTable) : Prop where
  streams : TablesRelated (StreamFollows (ready system.kernel)) system.streamers table.streams
  tracked : ∀ event, system.tracked event = (table.watched event).map fun entry => (groupMask entry.1, entry.2)
  watched : ∀ event entry, table.watched event = some entry → entry.1 ≤ 30

theorem Stands.new (kernel : κ) : Stands ready (new kernel) .empty := by
  refine ⟨.nil _, fun _ => rfl, ?_⟩
  intro event entry absent
  cases absent

theorem Stands.small (stands : Stands ready system table) (streamer : Nat) (stream : ReportStream)
    (present : live table.streams streamer = some stream) : stream.groupIndex ≤ 30 := by
  obtain ⟨object, -, follows⟩ := stands.streams.partner present
  exact follows.small

/-- What a call through the driver does to the streamers and to what is seen of them. -/
inductive Turn (ready : κ → MetricSessions) (system : StreamerSystem κ) (table : StreamTable) :
    StreamerSystem κ → StreamTable → Prop
  | quiet {kernel : κ} (same : ready kernel = ready system.kernel) :
      Turn ready system table { system with kernel := kernel } table
  | opened {kernel : κ} (groupIndex sampleSize : Nat) (event : Option Nat) (notifyEveryNReports : Nat)
      (small : groupIndex ≤ 30) (free : ready system.kernel (groupMask groupIndex) = none)
      (fresh : ready kernel = Function.update (ready system.kernel) (groupMask groupIndex) (some [])) :
      Turn ready system table
        ⟨kernel, system.streamers ++ [some ⟨groupIndex, sampleSize, 0⟩],
          trackedWith system.tracked event notifyEveryNReports (groupMask groupIndex, sampleSize * notifyEveryNReports)⟩
        ⟨table.streams ++ [some ⟨groupIndex, sampleSize, 0, [], []⟩],
          trackedWith table.watched event notifyEveryNReports (groupIndex, sampleSize * notifyEveryNReports)⟩
  | closed {kernel : κ} {streamer : Nat} {stream : ReportStream} (present : live table.streams streamer = some stream)
      (stopped : ready kernel = Function.update (ready system.kernel) (groupMask stream.groupIndex) none ∨
        ready kernel = ready system.kernel) :
      Turn ready system table { system with kernel := kernel, streamers := system.streamers.set streamer none }
        { table with streams := table.streams.set streamer none }
  | told {kernel : κ} {streamer : Nat} {object : MetricStreamer} {stream : ReportStream}
      (found : live system.streamers streamer = some object) (present : live table.streams streamer = some stream)
      (same : ready kernel = ready system.kernel) (size : Nat) :
      Turn ready system table
        { system with
          kernel := kernel
          streamers := system.streamers.set streamer (some { object with actualBufferSize := size }) }
        { table with streams := table.streams.set streamer (some { stream with known := size }) }
  | copied {kernel : κ} {streamer : Nat} {stream : ReportStream} {bytes left : List UInt8}
      (present : live table.streams streamer = some stream)
      (waiting : ready system.kernel (groupMask stream.groupIndex) = some (bytes ++ left))
      (taken : ready kernel = Function.update (ready system.kernel) (groupMask stream.groupIndex) (some left)) :
      Turn ready system table { system with kernel := kernel }
        { table with streams := table.streams.set streamer (some { stream with handed := stream.handed ++ bytes }) }

/-- The sessions get less, and a streamer changes or ends together with what is seen of it. -/
theorem Stands.replace (stands : Stands ready system table) {streamer : Nat} {kernel : κ}
    (below : streamer < system.streamers.length) (less : (ready kernel).Within (ready system.kernel))
    {entry : Option MetricStreamer} {partner : Option ReportStream}
    (partners : Option.Rel (StreamFollows (ready kernel)) entry partner) :
    Stands ready { system with kernel := kernel, streamers := system.streamers.set streamer entry }
      { table with streams := table.streams.set streamer partner } :=
  ⟨stands.streams.replace below partners fun _ _ _ _ _ follows => follows.within less, stands.tracked, stands.watched⟩

theorem Stands.turn (stands : Stands ready system table) {next : StreamerSystem κ} {seen : StreamTable}
    (turn : Turn ready system table next seen) : Stands ready next seen := by
  cases turn with
  | quiet same =>
    have kept := stands.streams.mono fun _ _ _ _ follows => follows.within (.of_eq same)
    exact ⟨kept, stands.tracked, stands.watched⟩
  | opened groupIndex sampleSize event notifyEveryNReports small free fresh =>
    have less := MetricSessions.Within.of_update fresh (nil_sublist _)
    refine ⟨?_, ?_, ?_⟩
    · apply (stands.streams.mono fun _ _ _ _ follows => follows.within less).append
      refine ⟨rfl, rfl, rfl, small, ?_⟩
      dsimp only
      rw [fresh, Function.update_self]
      exact Sublist.refl _
    · exact trackedWith_map (fun entry => (groupMask entry.1, entry.2)) stands.tracked event notifyEveryNReports
        (groupIndex, sampleSize * notifyEveryNReports)
    · intro other entry found
      rcases trackedWith_some found with new | old
      · rw [new]
        exact small
      · exact stands.watched other entry old
  | closed present stopped =>
    obtain ⟨object, found, -⟩ := stands.streams.partner present
    apply stands.replace (live_lt found) _ .none
    rcases stopped with gone | same
    · exact .of_update gone (nil_sublist _)
    · exact .of_eq same
  | told found present same size =>
    obtain ⟨stream, partner, follows⟩ := stands.streams.found found
    rw [present] at partner
    cases partner
    apply stands.replace (live_lt found) (.of_eq same)
    exact .some ⟨follows.group, follows.sample, rfl, follows.small, by rw [same]; exact follows.order⟩
  | @copied kernel streamer stream bytes left present waiting taken =>
    obtain ⟨object, found, follows⟩ := stands.streams.partner present
    have less : (ready kernel).Within (ready system.kernel) := by
      apply MetricSessions.Within.of_update taken
      rw [waiting]
      exact sublist_append_right _ _
    have order := follows.order
    rw [waiting, Option.getD_some, ← List.append_assoc] at order
    have partners : StreamFollows (ready kernel) object { stream with handed := stream.handed ++ bytes } := by
      refine ⟨follows.group, follows.sample, follows.known, follows.small, ?_⟩
      dsimp only
      rw [taken, Function.update_self]
      exact order
    have moved := stands.replace (live_lt found) less (.some partners)
    rw [set_live found] at moved
    exact moved

/-- A call by itself loses nothing, and takes nothing from the sessions of others. -/
theorem whole_turn (whole : StreamsWhole (ready system.kernel) table.streams) (stands : Stands ready system table)
    {next : StreamerSystem κ} {seen : StreamTable} (turn : Turn ready system table next seen) :
    StreamsWhole (ready next.kernel) seen.streams := by
  cases turn with
  | quiet same =>
    dsimp only
    rw [same]
    exact whole
  | opened groupIndex sampleSize event notifyEveryNReports small free fresh =>
    dsimp only
    rw [fresh]
    exact whole.append _ sampleSize free
  | closed present stopped =>
    apply whole.replace stands.small present
    · intro changed absent
      cases absent
    · intro mask other
      rcases stopped with gone | same
      · dsimp only
        rw [gone, Function.update_of_ne other]
      · exact congrFun same mask
  | told found present same size =>
    apply whole.replace stands.small present
    · intro changed new
      cases new
      dsimp only
      rw [same]
      exact ⟨rfl, whole.complete _ _ present⟩
    · intro mask _
      exact congrFun same mask
  | copied present waiting taken =>
    apply whole.replace stands.small present
    · intro changed new
      cases new
      obtain ⟨data, session, complete⟩ := whole.complete _ _ present
      rw [waiting, Option.some.injEq] at session
      refine ⟨rfl, _, by rw [taken, Function.update_self], ?_⟩
      dsimp only
      rw [List.append_assoc, session, complete]
    · intro mask other
      rw [taken, Function.update_of_ne other]

/-- A call, with what it and its answer show. -/
def observed (ioctls : MetricIoctls κ ε) (reports : ε → BitVec 64 → List UInt8) (seen : StreamerSystem κ × StreamTable)
    (call : StreamerCall ε) : StreamerSystem κ × StreamTable :=
  match step ioctls seen.1 call with
  | (answer, next) => (next, seen.2.observe reports call answer)

/-- The group fits into the `int` that `metricStreamerStart` is called with. -/
def Permitted (_ : StreamerSystem κ × StreamTable) : StreamerCall ε → Prop
  | .metricStreamerOpen _ _ _ _ _ _ groupIndex _ => groupIndex ≤ 30
  | _ => True

instance instDecidablePermitted (seen : StreamerSystem κ × StreamTable) :
    (call : StreamerCall ε) → Decidable (Permitted seen call)
  | .metricStreamerOpen _ _ _ _ _ _ groupIndex _ => inferInstanceAs (Decidable (groupIndex ≤ 30))
  | .close _ | .readData .. | .trackMetricData _ | .elapse _ => instDecidableTrue

theorem checkStreamerDesc_ok {hDevice hMetricGroup phMetricStreamer metricsLoaded isActivated : Bool}
    {desc : Option MetricStreamerDesc} {checked : MetricStreamerDesc}
    (success : checkStreamerDesc hDevice hMetricGroup desc phMetricStreamer metricsLoaded isActivated = .ok checked) :
    desc = some checked := by
  unfold checkStreamerDesc at success
  grind

/-- A kernel's answer to `getData`. -/
theorem getData_cases (documented : ioctls.Documented ready reports) (system : StreamerSystem κ) (mask : BitVec 64)
    (size : Nat) :
    (∃ kernel, system.getData ioctls mask size = (.error ZE_RESULT_ERROR_UNKNOWN, { system with kernel := kernel }) ∧
        ready kernel = ready system.kernel) ∨
      (∃ kernel data, size = 0 ∧
        system.getData ioctls mask size = (.ok (data.length, []), { system with kernel := kernel }) ∧
        ready system.kernel mask = some data ∧ ready kernel = ready system.kernel) ∨
      ∃ kernel bytes left, size ≠ 0 ∧ bytes.length ≤ size ∧
        system.getData ioctls mask size = (.ok (bytes.length, bytes), { system with kernel := kernel }) ∧
        ready system.kernel mask = some (bytes ++ left) ∧
        ready kernel = Function.update (ready system.kernel) mask (some left) := by
  unfold getData
  cases answered : ioctls.metricStreamerGetData system.kernel mask size with
  | mk answer kernel =>
    cases answer with
    | none => exact .inl ⟨kernel, rfl, documented.failed _ _ _ _ answered⟩
    | some answer =>
      obtain ⟨told, bytes⟩ := answer
      by_cases ask : size = 0
      · subst ask
        obtain ⟨data, waiting, rfl, rfl, same⟩ := documented.asked _ _ _ _ _ answered
        exact .inr (.inl ⟨kernel, data, rfl, rfl, waiting, same⟩)
      · obtain ⟨left, waiting, rfl, few, taken⟩ := documented.copied _ _ _ _ _ _ ask answered
        exact .inr (.inr ⟨kernel, bytes, left, ask, few, rfl, waiting, taken⟩)

theorem open_turn (documented : ioctls.Documented ready reports) (system : StreamerSystem κ) (table : StreamTable)
    (hDevice hMetricGroup : Bool) (desc : Option MetricStreamerDesc) (phMetricStreamer metricsLoaded isActivated : Bool)
    {groupIndex : Nat} (small : groupIndex ≤ 30) (event : Option Nat) :
    let call : StreamerCall ε :=
      .metricStreamerOpen hDevice hMetricGroup desc phMetricStreamer metricsLoaded isActivated groupIndex event
    Turn ready system table (step ioctls system call).2 (table.observe reports call (step ioctls system call).1) := by
  intro call
  simp only [call, step, metricStreamerOpen]
  cases checked : checkStreamerDesc hDevice hMetricGroup desc phMetricStreamer metricsLoaded isActivated with
  | error result =>
    cases desc with
    | none | some => exact .quiet rfl
  | ok desc =>
    rw [checkStreamerDesc_ok checked]
    simp only [addStreamer]
    generalize reply : ioctls.metricStreamerStart system.kernel (startMask groupIndex) desc.samplingPeriod
      (max desc.notifyEveryNReports minStreamerNotifyFrequency) = answer
    obtain ⟨answer, kernel⟩ := answer
    cases answer with
    | failed noMemory => exact .quiet (documented.refused _ _ _ _ _ _ reply)
    | started sampleSize =>
      obtain ⟨free, fresh⟩ := documented.started _ _ _ _ _ _ reply
      rw [startMask_eq small] at free fresh
      exact .opened groupIndex sampleSize event desc.notifyEveryNReports small free fresh

theorem close_turn (documented : ioctls.Documented ready reports) (stands : Stands ready system table)
    (streamer : Nat) :
    let call : StreamerCall ε := .close streamer
    Turn ready system table (step ioctls system call).2 (table.observe reports call (step ioctls system call).1) := by
  intro call
  simp only [call, step, withLive]
  cases found : live system.streamers streamer with
  | none => exact .quiet rfl
  | some object =>
    obtain ⟨stream, present, follows⟩ := stands.streams.found found
    have gone := documented.stopped system.kernel (groupMask object.groupIndex) _ _ rfl
    rw [follows.group] at gone
    simp only [close, follows.group]
    exact .closed present (gone.imp_right And.right)

/-- A read takes the front of what is ready, or tells how much that is. -/
theorem read_turn (documented : ioctls.Documented ready reports) (stands : Stands ready system table)
    (streamer maxReportCount : Nat) (pRawDataSize : Option Nat) (pRawData : Bool) :
    let call : StreamerCall ε := .readData streamer maxReportCount pRawDataSize pRawData
    Turn ready system table (step ioctls system call).2 (table.observe reports call (step ioctls system call).1) := by
  intro call
  simp only [call, step, withLive]
  cases found : live system.streamers streamer with
  | none => cases pRawDataSize <;> exact .quiet rfl
  | some object =>
    obtain ⟨stream, present, follows⟩ := stands.streams.found found
    simp only [readData]
    cases pRawDataSize with
    | none => exact .quiet rfl
    | some size =>
      by_cases ask : size = 0
      · simp only [ask, ↓reduceIte, readSizeOnly]
        rcases getData_cases documented system (groupMask object.groupIndex) 0 with
          ⟨kernel, answered, same⟩ | ⟨kernel, data, -, answered, -, same⟩ | ⟨_, _, _, absurd, -⟩
        · rw [answered]
          exact .quiet same
        · rw [answered]
          simp only [StreamTable.observe, present, Option.map_some, List.append_nil, ↓reduceIte]
          exact .told found present same data.length
        · exact (absurd rfl).elim
      · -- nothing is written, so that what is seen of the stream stays as it is
        have unchanged : ∀ told, table.observe reports (.readData streamer maxReportCount (some size) pRawData)
            (.data ZE_RESULT_SUCCESS told []) = table := by
          intro told
          simp only [StreamTable.observe, present, Option.map_some, ask, ↓reduceIte, List.append_nil]
          rw [set_live present]
        simp only [ask, ↓reduceIte, readUpTo]
        generalize readSize maxReportCount object.sampleSize object.actualBufferSize size = requested
        cases pRawData with
        | false =>
          simp only [Bool.not_false, ↓reduceIte, unchanged]
          exact .quiet rfl
        | true =>
          simp only [Bool.not_true, Bool.false_eq_true, ↓reduceIte]
          rcases getData_cases documented system (groupMask object.groupIndex) requested with
            ⟨kernel, answered, same⟩ | ⟨kernel, data, -, answered, -, same⟩ |
              ⟨kernel, bytes, left, -, -, answered, waiting, taken⟩
          · rw [answered]
            exact .quiet same
          · rw [answered]
            simp only [unchanged]
            exact .quiet same
          · rw [answered]
            rw [follows.group] at waiting taken
            simp only [StreamTable.observe, present, Option.map_some, ask, ↓reduceIte]
            exact .copied present waiting taken

theorem track_turn (documented : ioctls.Documented ready reports) (system : StreamerSystem κ) (table : StreamTable)
    (event : Nat) :
    let call : StreamerCall ε := .trackMetricData event
    Turn ready system table (step ioctls system call).2 (table.observe reports call (step ioctls system call).1) := by
  intro call
  simp only [call, step, trackMetricData]
  cases tracked : system.tracked event with
  | none => exact .quiet rfl
  | some entry =>
    by_cases silent : entry.2 = 0 ∨ entry.1 = 0
    · simp only [silent, ↓reduceIte]
      exact .quiet rfl
    · simp only [silent, ↓reduceIte]
      rcases getData_cases documented system entry.1 0 with
        ⟨kernel, answered, same⟩ | ⟨kernel, data, -, answered, -, same⟩ | ⟨_, _, _, absurd, -⟩
      · rw [answered]
        exact .quiet same
      · rw [answered]
        exact .quiet same
      · exact (absurd rfl).elim

/-- All that waits in the sessions after the device went on was there before, or was collected. -/
theorem Stands.elapse (stands : Stands ready system table) (documented : ioctls.Documented ready reports) (event : ε) :
    Stands ready { system with kernel := ioctls.elapse system.kernel event }
      { table with streams := table.streams.map (Option.map (ReportStream.collect (reports event))) } := by
  refine ⟨?_, stands.tracked, stands.watched⟩
  apply stands.streams.map_right
  intro streamer object stream found follows
  refine ⟨follows.group, follows.sample, follows.known, follows.small, ?_⟩
  have waiting : (ready (ioctls.elapse system.kernel event) (groupMask stream.groupIndex)).getD [] <+
      (ready system.kernel (groupMask stream.groupIndex)).getD [] ++ reports event (groupMask stream.groupIndex) := by
    cases left : ready (ioctls.elapse system.kernel event) (groupMask stream.groupIndex) with
    | none => exact nil_sublist _
    | some left' => exact documented.elapsed _ _ _ _ left
  calc stream.handed ++ (ready (ioctls.elapse system.kernel event) (groupMask stream.groupIndex)).getD []
      <+ stream.handed ++ ((ready system.kernel (groupMask stream.groupIndex)).getD [] ++ _) :=
        (Sublist.refl _).append waiting
    _ = (stream.handed ++ (ready system.kernel (groupMask stream.groupIndex)).getD []) ++ _ :=
        (List.append_assoc _ _ _).symm
    _ <+ stream.collected ++ reports event (groupMask stream.groupIndex) := follows.order.append (Sublist.refl _)

/-- The kernel keeps all that waits, and adds all that the device collects. -/
def LosesNothing (ioctls : MetricIoctls κ ε) (ready : κ → MetricSessions) (reports : ε → BitVec 64 → List UInt8)
    (seen : StreamerSystem κ × StreamTable) : StreamerCall ε → Prop
  | .elapse event => ∀ mask data, ready seen.1.kernel mask = some data →
      ready (ioctls.elapse seen.1.kernel event) mask = some (data ++ reports event mask)
  | _ => True

theorem Stands.observed (documented : ioctls.Documented ready reports) {seen : StreamerSystem κ × StreamTable}
    (stands : Stands ready seen.1 seen.2) {call : StreamerCall ε} (permitted : Permitted seen call) :
    Stands ready (observed ioctls reports seen call).1 (observed ioctls reports seen call).2 := by
  cases call with
  | metricStreamerOpen => exact stands.turn (open_turn documented _ _ _ _ _ _ _ _ permitted _)
  | close => exact stands.turn (close_turn documented stands _)
  | readData => exact stands.turn (read_turn documented stands _ _ _ _)
  | trackMetricData => exact stands.turn (track_turn documented _ _ _)
  | elapse event => exact stands.elapse documented event

theorem whole_observed (documented : ioctls.Documented ready reports) {seen : StreamerSystem κ × StreamTable}
    (stands : Stands ready seen.1 seen.2) (whole : StreamsWhole (ready seen.1.kernel) seen.2.streams)
    {call : StreamerCall ε} (permitted : Permitted seen call) (kept : LosesNothing ioctls ready reports seen call) :
    StreamsWhole (ready (observed ioctls reports seen call).1.kernel)
      (observed ioctls reports seen call).2.streams := by
  cases call with
  | metricStreamerOpen => exact whole_turn whole stands (open_turn documented _ _ _ _ _ _ _ _ permitted _)
  | close => exact whole_turn whole stands (close_turn documented stands _)
  | readData => exact whole_turn whole stands (read_turn documented stands _ _ _ _)
  | trackMetricData => exact whole_turn whole stands (track_turn documented _ _ _)
  | elapse event => exact whole.collect (reports event) kept

/-- What the streams promise of a state and of the calls that may come next. -/
structure Streamed (ioctls : MetricIoctls κ ε) (ready : κ → MetricSessions) (system : StreamerSystem κ)
    (table : StreamTable) : Prop where
  order : ∀ streamer stream, live table.streams streamer = some stream →
    stream.handed ++ (ready system.kernel (groupMask stream.groupIndex)).getD [] <+ stream.collected
  reads : ∀ streamer stream, live table.streams streamer = some stream → ∀ maxReportCount size pRawData,
    stream.Reads (ready system.kernel (groupMask stream.groupIndex)) maxReportCount size pRawData
      (step ioctls system (.readData streamer maxReportCount (some size) pRawData)).1
  events : ∀ event, (step ioctls system (.trackMetricData event)).1 = .signals true ↔
    ∃ groupIndex expected data, table.watched event = some (groupIndex, expected) ∧ expected ≠ 0 ∧
      (ioctls.metricStreamerGetData system.kernel (groupMask groupIndex) 0).1.isSome ∧
      ready system.kernel (groupMask groupIndex) = some data ∧ expected ≤ data.length

theorem Stands.reads (stands : Stands ready system table) (documented : ioctls.Documented ready reports)
    {streamer : Nat} (present : live table.streams streamer = some stream) (maxReportCount size : Nat) (pRawData : Bool) :
    stream.Reads (ready system.kernel (groupMask stream.groupIndex)) maxReportCount size pRawData
      (step ioctls system (.readData streamer maxReportCount (some size) pRawData)).1 := by
  obtain ⟨object, found, follows⟩ := stands.streams.partner present
  simp only [step, withLive, found, readData, ReportStream.Reads, follows.sample, follows.known]
  by_cases ask : size = 0
  · simp only [ask, ↓reduceIte, readSizeOnly, ne_eq, not_true_eq_false, false_and, follows.group]
    rcases getData_cases documented system (groupMask stream.groupIndex) 0 with
      ⟨kernel, answered, -⟩ | ⟨kernel, data, -, answered, waiting, -⟩ | ⟨_, _, _, absurd, -⟩
    · rw [answered]
      exact .inl rfl
    · rw [answered]
      exact .inr ⟨data, waiting, rfl⟩
    · exact (absurd rfl).elim
  · simp only [ask, ↓reduceIte, readUpTo, ne_eq, not_false_eq_true, true_and, follows.group]
    generalize readSize maxReportCount stream.sampleSize stream.known size = requested
    cases pRawData with
    | false => rfl
    | true =>
      simp only [Bool.not_true, Bool.true_eq_false, Bool.false_eq_true, ↓reduceIte]
      rcases getData_cases documented system (groupMask stream.groupIndex) requested with
        ⟨kernel, answered, -⟩ | ⟨kernel, data, none, answered, waiting, -⟩ |
          ⟨kernel, bytes, left, some, few, answered, waiting, -⟩
      · rw [answered]
        exact .inl rfl
      · rw [answered]
        exact .inr ⟨data, waiting, by rw [if_pos none]⟩
      · rw [answered]
        refine .inr ⟨bytes ++ left, waiting, ?_⟩
        rw [if_neg some]
        exact ⟨bytes.length, few, by simp, by simp⟩

theorem Stands.events (stands : Stands ready system table) (documented : ioctls.Documented ready reports)
    (event : Nat) :
    (step ioctls system (.trackMetricData event)).1 = .signals true ↔
      ∃ groupIndex expected data, table.watched event = some (groupIndex, expected) ∧ expected ≠ 0 ∧
        (ioctls.metricStreamerGetData system.kernel (groupMask groupIndex) 0).1.isSome ∧
        ready system.kernel (groupMask groupIndex) = some data ∧ expected ≤ data.length := by
  simp only [step, trackMetricData, stands.tracked event]
  cases watched : table.watched event with
  | none => simp
  | some entry =>
    obtain ⟨groupIndex, expected⟩ := entry
    have small : groupIndex ≤ 30 := stands.watched event _ watched
    have mask : groupMask groupIndex ≠ 0 := groupMask_ne_zero (by omega)
    simp only [Option.map_some, mask, or_false, Option.some.injEq, Prod.mk.injEq]
    by_cases silent : expected = 0
    · simp only [silent, ↓reduceIte]
      constructor
      · intro signalled
        cases signalled
      · rintro ⟨_, _, _, ⟨-, rfl⟩, waits, -⟩
        exact (waits rfl).elim
    · simp only [silent, ↓reduceIte, getData]
      cases answered : ioctls.metricStreamerGetData system.kernel (groupMask groupIndex) 0 with
      | mk answer kernel =>
        cases answer with
        | none =>
          constructor
          · intro signalled
            cases signalled
          · rintro ⟨_, _, _, ⟨rfl, rfl⟩, -, answers, -⟩
            rw [answered] at answers
            cases answers
        | some answer =>
          obtain ⟨data, waiting, told, -, -⟩ := documented.asked _ _ answer.1 answer.2 _ answered
          simp only [StreamerAnswer.signals.injEq, decide_eq_true_eq, told]
          constructor
          · intro reached
            exact ⟨groupIndex, expected, data, ⟨rfl, rfl⟩, silent, by rw [answered]; rfl, waiting, reached⟩
          · rintro ⟨_, _, data', ⟨rfl, rfl⟩, -, -, waiting', reached⟩
            rw [waiting, Option.some.injEq] at waiting'
            rw [waiting']
            exact reached

theorem Stands.streamed (stands : Stands ready system table) (documented : ioctls.Documented ready reports) :
    Streamed ioctls ready system table where
  order _ _ present := (stands.streams.partner present).elim fun _ partner => partner.2.order
  reads _ _ present := stands.reads documented present
  events := stands.events documented

/-- With any kernel that does as it is described, a streamer hands its caller bytes that were collected for its group
since it was opened, in their order and each of them once, and where the kernel loses nothing it leaves none out. -/
theorem reports_streamed (documented : ioctls.Documented ready reports) (kernel : κ) {calls : List (StreamerCall ε)}
    (permitted : Guarded (observed ioctls reports) Permitted (new kernel, .empty) calls) :
    let reached := runFrom (observed ioctls reports) (new kernel, .empty) calls
    Streamed ioctls ready reached.1 reached.2 ∧
      (Guarded (observed ioctls reports) (LosesNothing ioctls ready reports) (new kernel, .empty) calls →
        StreamsWhole (ready reached.1.kernel) reached.2.streams) := by
  intro reached
  have stands : Stands ready reached.1 reached.2 :=
    @guarded_invariant _ _ _ _ _ (fun seen => Stands ready seen.1 seen.2)
      (fun _ _ stands allowed => stands.observed documented allowed) (.new kernel) _ permitted
  refine ⟨stands.streamed documented, ?_⟩
  intro kept
  have both := @guarded_invariant _ _ _ _ _
    (fun seen => Stands ready seen.1 seen.2 ∧ StreamsWhole (ready seen.1.kernel) seen.2.streams)
    (fun _ _ holds allowed => ⟨holds.1.observed documented allowed.1,
      whole_observed documented holds.1 holds.2 allowed.1 allowed.2⟩)
    ⟨.new kernel, .nil _⟩ _ (guarded_and.mpr ⟨permitted, kept⟩)
  exact both.2

/-- A kernel with one session for each mask. The device writes reports for a mask, and when they come late, what waited
is lost. -/
def sampleIoctls : MetricIoctls MetricSessions (BitVec 64 × List UInt8 × Bool) where
  metricStreamerStart sessions mask _ _ :=
    match sessions mask with
    | some _ => (.failed false, sessions)
    | none => (.started 2, Function.update sessions mask (some []))
  metricStreamerStop sessions mask :=
    match sessions mask with
    | some _ => (true, Function.update sessions mask none)
    | none => (false, sessions)
  metricStreamerGetData sessions mask bufferSize :=
    match sessions mask with
    | none => (none, sessions)
    | some data =>
      if bufferSize = 0 then (some (data.length, []), sessions)
      else
        (some ((data.take bufferSize).length, data.take bufferSize),
          Function.update sessions mask (some (data.drop bufferSize)))
  elapse sessions event :=
    Function.update sessions event.1
      ((sessions event.1).map fun data => if event.2.2 then event.2.1 else data ++ event.2.1)

def sampleReports (event : BitVec 64 × List UInt8 × Bool) (mask : BitVec 64) : List UInt8 :=
  if mask = event.1 then event.2.1 else []

theorem sampleIoctls_documented : sampleIoctls.Documented id sampleReports where
  started := by
    intro sessions mask samplingPeriod readPeriodSamples sampleSize next reply
    simp only [sampleIoctls] at reply
    cases free : sessions mask with
    | none =>
      rw [free] at reply
      cases reply
      exact ⟨free, rfl⟩
    | some data =>
      rw [free] at reply
      cases reply
  refused := by
    intro sessions mask samplingPeriod readPeriodSamples noMemory next reply
    simp only [sampleIoctls] at reply
    split at reply
    · cases reply
      rfl
    · cases reply
  stopped := by
    intro sessions mask stopped next reply
    simp only [sampleIoctls] at reply
    split at reply
    · cases reply
      exact .inl rfl
    · cases reply
      exact .inr ⟨rfl, rfl⟩
  asked := by
    intro sessions mask size bytes next reply
    simp only [sampleIoctls] at reply
    cases waiting : sessions mask with
    | none =>
      rw [waiting] at reply
      cases reply
    | some data =>
      rw [waiting] at reply
      cases reply
      exact ⟨data, waiting, rfl, rfl, rfl⟩
  copied := by
    intro sessions mask bufferSize size bytes next some reply
    simp only [sampleIoctls] at reply
    cases waiting : sessions mask with
    | none =>
      rw [waiting] at reply
      cases reply
    | some data =>
      rw [waiting] at reply
      simp only [if_neg some] at reply
      cases reply
      exact ⟨data.drop bufferSize, by rw [List.take_append_drop]; exact waiting, rfl, List.length_take_le _ _, rfl⟩
  failed := by
    intro sessions mask bufferSize next reply
    simp only [sampleIoctls] at reply
    split at reply
    · cases reply
      rfl
    · split at reply <;> cases reply
  elapsed := by
    intro sessions event mask left waits
    simp only [sampleIoctls, id] at waits
    by_cases own : mask = event.1
    · rw [own, Function.update_self, Option.map_eq_some_iff] at waits
      obtain ⟨data, waiting, rfl⟩ := waits
      simp only [sampleReports, id, own, waiting, Option.getD_some, ↓reduceIte]
      split
      · exact sublist_append_right _ _
      · exact Sublist.refl _
    · rw [Function.update_of_ne own] at waits
      simp [waits, sampleReports, own]

/-- Two groups whose reports come in turns; the last ones of the first group come late. -/
def sampleStreamerCalls : List (StreamerCall (BitVec 64 × List UInt8 × Bool)) :=
  [.metricStreamerOpen true true (some ⟨1000000, 4⟩) true true true 0 (some 5),
    .metricStreamerOpen true true (some ⟨1000000, 0⟩) true true true 3 none, .elapse (1, [1, 2, 3], false),
    .elapse (8, [9], false), .trackMetricData 5, .elapse (1, [4, 5, 6, 7, 8], false), .trackMetricData 5,
    .readData 0 9 (some 0) true, .readData 0 1 (some 6) true, .elapse (1, [10, 11], true),
    .readData 0 9 (some 100) true]

theorem reports_streamed_two :
    let reached := runFrom (observed sampleIoctls sampleReports) (new fun _ => none, .empty) sampleStreamerCalls
    Streamed sampleIoctls id reached.1 reached.2 ∧
      (Guarded (observed sampleIoctls sampleReports) (LosesNothing sampleIoctls id sampleReports)
          (new fun _ => none, .empty) sampleStreamerCalls →
        StreamsWhole reached.1.kernel reached.2.streams) :=
  reports_streamed sampleIoctls_documented (fun _ => none) (by decide)

/-- The first streamer is handed one report before the loss, and the late one. -/
example :
    (runFrom (observed sampleIoctls sampleReports) (new fun _ => none, .empty) sampleStreamerCalls).2.streams =
      [some ⟨0, 2, 8, [1, 2, 3, 4, 5, 6, 7, 8, 10, 11], [1, 2, 10, 11]⟩, some ⟨3, 2, 0, [9], []⟩] := by decide

end StreamerSystem

end NpuDriver
