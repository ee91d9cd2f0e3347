import ClusterLoader.EnabledRuns
import ClusterLoader.KeyedStore

/-!
# Tracking OOM events

Nodes report an OOM by an event, and a further one by updating the event. Each
write has a resource version of its own, in the order of the writes. The tracker
watches the events from the version of a list whose items are thrown away, both
at its start and after the watch has been interrupted; once, after the start, it
lists the events that there are.

An event shows when it was made, rounded by `stamp`; an update leaves that time
as it is. What the regular expression finds in a message is left open in `find`.
-/

namespace OOMsTracker

open EnabledRuns KeyedStore

structure Event where
  name : String
  resourceVersion : Nat
  reason : String
  node : String
  message : String
  /-- The zero time is `none`. -/
  eventTime : Option Nat
  firstTimestamp : Nat
  deriving DecidableEq

structure OomEvent where
  node : String
  process : String
  processMemory : String
  processID : String
  time : Nat

structure Tracker where
  isRunning : Bool
  startTime : Nat
  processIgnored : List String
  resourceVersionRecorded : List Nat
  ooms : List OomEvent

def oomEventReason : String := "OOMKilling"

/-- What surrounds the tracker. -/
structure Env where
  /-- Process id, process and memory, if the message has them. -/
  find : String → Option (String × String × String)
  stamp : Nat → Nat
  stamp_le : ∀ t, stamp t ≤ t

/-! ## The tracker -/

def Event.time (event : Event) : Nat := event.eventTime.getD event.firstTimestamp

section
variable (env : Env)

def oomOf (event : Event) : OomEvent :=
  match env.find event.message with
  | some (processID, process, processMemory) =>
    ⟨event.node, process, processMemory, processID, event.time⟩
  | none => ⟨event.node, "", "", "", event.time⟩

def handleOOMEvent (m : Tracker) (event : Event) : Tracker :=
  if event.reason ≠ oomEventReason then m
  else if event.resourceVersion ∈ m.resourceVersionRecorded then m
  else
    { m with
      resourceVersionRecorded := m.resourceVersionRecorded ++ [event.resourceVersion]
      ooms := m.ooms ++ [oomOf env event] }

end

def ignoredProcesses (ignoredProcessesString : String) : List String :=
  if ignoredProcessesString = "" then []
  else (ignoredProcessesString.toList.splitOn ',').map String.ofList

def initFields (m : Tracker) (now : Nat) (ignoredProcessesString : String) : Tracker :=
  { m with
    isRunning := true
    startTime := now
    resourceVersionRecorded := []
    processIgnored := ignoredProcesses ignoredProcessesString }

structure OomData where
  failures : List OomEvent
  past : List OomEvent
  ignored : List OomEvent

def addOom (m : Tracker) (oomData : OomData) (oom : OomEvent) : OomData :=
  if oom.time < m.startTime then { oomData with past := oomData.past ++ [oom] }
  else if oom.process ∈ m.processIgnored then { oomData with ignored := oomData.ignored ++ [oom] }
  else { oomData with failures := oomData.failures ++ [oom] }

/-- The summary, and the failures that the error names, if there are any. -/
def gather (m : Tracker) : OomData × Option (List OomEvent) :=
  let oomData := m.ooms.foldl (addOom m) ⟨[], [], []⟩
  (oomData, if 0 < oomData.failures.length then some oomData.failures else none)

/-! ## Events, watch and relist -/

inductive Phase where
  | idle
  /-- The fields are set, and the informer has not listed yet. -/
  | starting
  /-- The informer has been started, and the prior events are still to be listed. -/
  | listed
  | running
  | gathered
  deriving DecidableEq

inductive Watch where
  | off
  /-- Everything up to the version has been delivered or passed over. -/
  | up (version : Nat)
  | broken
  deriving DecidableEq

/-- An event as it was written, and when. -/
structure Occurrence where
  event : Event
  time : Nat

structure System where
  now : Nat
  version : Nat
  events : Store Event.name
  log : List Occurrence
  tracker : Tracker
  phase : Phase
  watch : Watch
  /-- The events that the handler has been called with. -/
  delivered : List Event
  result : Option (OomData × Option (List OomEvent))

inductive Action where
  | tick (d : Nat)
  /-- Whether the recorder fills in `EventTime` or `FirstTimestamp`. -/
  | create (name reason node message : String) (microTime : Bool)
  | update (name message : String)
  | delete (name : String)
  | start (ignoredProcessesString : String)
  | list
  /-- The events come in any order. -/
  | handlePriorOOMs (items : List Event)
  | deliver
  | interrupt
  | relist
  | gather

def System.write (s : System) (event : Event) : System :=
  { s with
    version := s.version + 1
    events := s.events.insert event
    log := s.log ++ [⟨event, s.now⟩] }

section
variable (env : Env)

def System.newEvent (s : System) (name reason node message : String) (microTime : Bool) :
    Event where
  name := name
  resourceVersion := s.version + 1
  reason := reason
  node := node
  message := message
  eventTime := if microTime then some (env.stamp s.now) else none
  firstTimestamp := if microTime then 0 else env.stamp s.now

def System.updated (s : System) (event : Event) (message : String) : Event :=
  { event with resourceVersion := s.version + 1, message := message }

/-- The next event that the field selector lets through. -/
def System.next (s : System) : Option Occurrence :=
  match s.watch with
  | .up version => s.log.find? fun o =>
      version < o.event.resourceVersion ∧ o.event.reason = oomEventReason
  | _ => none

def System.handle (s : System) (event : Event) : System :=
  { s with
    tracker := handleOOMEvent env s.tracker event
    delivered := s.delivered ++ [event] }

def step (s : System) (a : Action) : Option System :=
  if s.phase = .gathered then none
  else match a with
  | .tick d => some { s with now := s.now + d }
  | .create name reason node message microTime =>
    if s.events.lookup name = none then
      some (s.write (s.newEvent env name reason node message microTime))
    else none
  | .update name message =>
    (s.events.lookup name).map fun event => s.write (s.updated event message)
  | .delete name =>
    (s.events.lookup name).map fun _ =>
      { s with version := s.version + 1, events := s.events.erase name }
  | .start ignoredProcessesString =>
    if s.phase = .idle then
      -- the clock has gone on since the last event
      some { s with
        now := s.now + 1
        tracker := initFields s.tracker (s.now + 1) ignoredProcessesString
        phase := .starting }
    else none
  | .list =>
    if s.phase = .starting then some { s with phase := .listed, watch := .up s.version } else none
  | .handlePriorOOMs items =>
    if s.phase = .listed ∧ items.Perm s.events.entries then
      some { items.foldl (System.handle env) s with phase := .running }
    else none
  | .deliver =>
    s.next.map fun o => { s.handle env o.event with watch := .up o.event.resourceVersion }
  | .interrupt =>
    match s.watch with
    | .up _ => some { s with watch := .broken }
    | _ => none
  | .relist => if s.watch = .broken then some { s with watch := .up s.version } else none
  | .gather =>
    if s.phase = .running then
      some { s with
        tracker := { s.tracker with isRunning := false }
        phase := .gathered
        result := some (OOMsTracker.gather s.tracker) }
    else none

def new : System where
  now := 0
  version := 0
  events := Store.empty
  log := []
  tracker := ⟨false, 0, [], [], []⟩
  phase := .idle
  watch := .off
  delivered := []
  result := none

/-! ## Exact results -/

/-- An OOM of a process that is not ignored, since the start. -/
def Failure (m : Tracker) (o : Occurrence) : Prop :=
  m.startTime ≤ o.time ∧ o.event.reason = oomEventReason ∧
    (oomOf env o.event).process ∉ m.processIgnored

instance (m : Tracker) (o : Occurrence) : Decidable (Failure env m o) :=
  inferInstanceAs (Decidable (_ ∧ _ ∧ _))

/-- Each delivered version of an OOM event counts once. -/
def Counts (m : Tracker) (delivered : List Event) : Prop :=
  ∃ counted : List Event, m.ooms = counted.map (oomOf env) ∧
    m.resourceVersionRecorded = counted.map Event.resourceVersion ∧
    m.resourceVersionRecorded.Nodup ∧
    ∀ event, event ∈ counted ↔ event ∈ delivered ∧ event.reason = oomEventReason

/-- What `gather` has returned is right. -/
structure Exact (s : System) : Prop where
  fails : s.phase = .gathered → ∃ oomData err, s.result = some (oomData, err) ∧
    (err.isSome = true ↔ ∃ o ∈ s.log, Failure env s.tracker o)
  counts : Counts env s.tracker s.delivered

/-! ## What loses no OOM -/

def System.Pending (s : System) (event : Event) : Prop :=
  match s.watch with
  | .up version => version < event.resourceVersion
  | _ => False

instance (s : System) (event : Event) : Decidable (s.Pending event) :=
  match h : s.watch with
  | .up version =>
    decidable_of_iff (version < event.resourceVersion) (by rw [System.Pending, h])
  | .off => isFalse (by rw [System.Pending, h]; exact id)
  | .broken => isFalse (by rw [System.Pending, h]; exact id)

/-- The list of the prior events will show it. -/
def System.Awaited (s : System) (event : Event) : Prop :=
  (s.phase = .starting ∨ s.phase = .listed) ∧ s.events.lookup event.name = some event

instance (s : System) (event : Event) : Decidable (s.Awaited event) :=
  inferInstanceAs (Decidable (_ ∧ _))

/-- If it is a failure, the event is watched or will be listed, and shows a time
since the start. -/
def System.Seen (s : System) (event : Event) : Prop :=
  event.reason = oomEventReason → (oomOf env event).process ∉ s.tracker.processIgnored →
    (s.phase = .running → s.watch ≠ .broken) ∧ s.tracker.startTime ≤ event.time

instance (s : System) (event : Event) : Decidable (s.Seen env event) :=
  inferInstanceAs (Decidable (_ → _ → _ ∧ _))

/-- No failure goes with the event that has the name. -/
def System.Replaceable (s : System) (name : String) : Prop :=
  ∀ o ∈ s.log, s.events.lookup name = some o.event → Failure env s.tracker o →
    o.event ∈ s.delivered ∨ s.Pending o.event

instance (s : System) (name : String) : Decidable (s.Replaceable env name) :=
  inferInstanceAs (Decidable (∀ o ∈ s.log, _))

def Guard (s : System) (a : Action) : Prop :=
  s.phase = .idle ∨ match a with
  | .create name reason node message microTime =>
    s.Seen env (s.newEvent env name reason node message microTime)
  | .update name message =>
    s.Replaceable env name ∧
      ∀ event ∈ s.events.lookup name, s.Seen env (s.updated event message)
  | .delete name => s.Replaceable env name
  | .interrupt => ∀ o ∈ s.log, Failure env s.tracker o → s.Pending o.event → s.Awaited o.event
  | .gather => ∀ o ∈ s.log, Failure env s.tracker o → ¬ s.Pending o.event
  | _ => True

instance (s : System) : (a : Action) → Decidable (Guard env s a)
  | .create name reason node message microTime =>
    inferInstanceAs (Decidable (s.phase = .idle ∨
      s.Seen env (s.newEvent env name reason node message microTime)))
  | .update name message =>
    inferInstanceAs (Decidable (s.phase = .idle ∨ s.Replaceable env name ∧
      ∀ event ∈ s.events.lookup name, s.Seen env (s.updated event message)))
  | .delete name => inferInstanceAs (Decidable (s.phase = .idle ∨ s.Replaceable env name))
  | .interrupt =>
    inferInstanceAs (Decidable (s.phase = .idle ∨
      ∀ o ∈ s.log, Failure env s.tracker o → s.Pending o.event → s.Awaited o.event))
  | .gather =>
    inferInstanceAs (Decidable (s.phase = .idle ∨
      ∀ o ∈ s.log, Failure env s.tracker o → ¬ s.Pending o.event))
  | .tick _ => isTrue (.inr trivial)
  | .start _ => isTrue (.inr trivial)
  | .list => isTrue (.inr trivial)
  | .handlePriorOOMs _ => isTrue (.inr trivial)
  | .deliver => isTrue (.inr trivial)
  | .relist => isTrue (.inr trivial)

end

/-! ## Counting -/

section
variable {env : Env}

theorem handleOOMEvent_startTime (m : Tracker) (event : Event) :
    (handleOOMEvent env m event).startTime = m.startTime ∧
      (handleOOMEvent env m event).processIgnored = m.processIgnored := by
  unfold handleOOMEvent
  split
  · exact ⟨rfl, rfl⟩
  · split <;> exact ⟨rfl, rfl⟩

variable {event : Event}

/-- An event that is no OOM, or that has been delivered before, changes no count. -/
theorem Counts.ignored {m : Tracker} {delivered : List Event} (counts : Counts env m delivered)
    (known : event.reason = oomEventReason → event ∈ delivered) :
    Counts env m (delivered ++ [event]) := by
  obtain ⟨counted, hooms, hrecorded, hnodup, hmem⟩ := counts
  refine ⟨counted, hooms, hrecorded, hnodup, fun other => ?_⟩
  rw [hmem, List.mem_append, List.mem_singleton]
  constructor
  · exact fun h => ⟨.inl h.1, h.2⟩
  · rintro ⟨h | rfl, hother⟩
    · exact ⟨h, hother⟩
    · exact ⟨known hother, hother⟩

theorem Counts.handle {m : Tracker} {delivered : List Event} (counts : Counts env m delivered)
    (unique : ∀ other ∈ delivered, other.resourceVersion = event.resourceVersion → other = event) :
    Counts env (handleOOMEvent env m event) (delivered ++ [event]) := by
  unfold handleOOMEvent
  split
  next hreason => exact counts.ignored fun h => absurd h hreason
  next hreason =>
    rw [Decidable.not_not] at hreason
    have ⟨counted, hooms, hrecorded, hnodup, hmem⟩ := counts
    split
    next hknown =>
      rw [hrecorded] at hknown
      obtain ⟨first, hfirst, hversion⟩ := List.mem_map.mp hknown
      have hdelivered := (hmem first).mp hfirst
      obtain rfl := unique first hdelivered.1 hversion
      exact counts.ignored fun _ => hdelivered.1
    next hnew =>
      refine ⟨counted ++ [event], ?_, ?_, ?_, fun other => ?_⟩
      · rw [List.map_append, ← hooms]
        rfl
      · rw [List.map_append, ← hrecorded]
        rfl
      · exact List.nodup_append_comm.mp (List.nodup_cons.mpr ⟨hnew, hnodup⟩)
      · rw [List.mem_append, List.mem_append, hmem, List.mem_singleton]
        constructor
        · rintro (h | rfl)
          · exact ⟨.inl h.1, h.2⟩
          · exact ⟨.inr rfl, hreason⟩
        · rintro ⟨h | rfl, hother⟩
          · exact .inl ⟨h, hother⟩
          · exact .inr rfl

theorem foldl_addOom (m : Tracker) (ooms : List OomEvent) (oomData : OomData) :
    (ooms.foldl (addOom m) oomData).failures = oomData.failures ++
      ooms.filter fun oom => ¬ oom.time < m.startTime ∧ oom.process ∉ m.processIgnored := by
  induction ooms generalizing oomData with
  | nil => exact (List.append_nil _).symm
  | cons oom rest ih =>
    rw [List.foldl_cons, ih, List.filter_cons, addOom]
    by_cases past : oom.time < m.startTime
    · simp [past]
    · by_cases ignored : oom.process ∈ m.processIgnored
      · simp [past, ignored]
      · simp [past, ignored]

theorem oomOf_time (event : Event) : (oomOf env event).time = event.time := by
  unfold oomOf
  split <;> rfl

theorem gather_err_isSome (m : Tracker) : (gather m).2.isSome = true ↔
    ∃ oom ∈ m.ooms, m.startTime ≤ oom.time ∧ oom.process ∉ m.processIgnored := by
  simp only [gather, foldl_addOom]
  split
  next hpos =>
    obtain ⟨oom, hoom⟩ := List.exists_mem_of_length_pos hpos
    obtain ⟨hmem, hfails⟩ := List.mem_filter.mp hoom
    rw [decide_eq_true_iff] at hfails
    exact ⟨fun _ => ⟨oom, hmem, by omega, hfails.2⟩, fun _ => rfl⟩
  next hnone =>
    refine ⟨nofun, ?_⟩
    rintro ⟨oom, hmem, htime, hprocess⟩
    have hfails : oom ∈ m.ooms.filter fun oom =>
        ¬ oom.time < m.startTime ∧ oom.process ∉ m.processIgnored :=
      List.mem_filter.mpr ⟨hmem, decide_eq_true ⟨by omega, hprocess⟩⟩
    exact absurd (List.length_pos_of_mem hfails) hnone

variable {s : System}

/-- Handling events changes nothing but what is recorded. -/
theorem foldl_handle {items : List Event} (counts : Counts env s.tracker s.delivered)
    (unique : ∀ a ∈ s.delivered ++ items, ∀ b ∈ s.delivered ++ items,
      a.resourceVersion = b.resourceVersion → a = b) :
    ∃ m, items.foldl (System.handle env) s =
        { s with tracker := m, delivered := s.delivered ++ items } ∧
      m.startTime = s.tracker.startTime ∧ m.processIgnored = s.tracker.processIgnored ∧
      Counts env m (s.delivered ++ items) := by
  induction items generalizing s with
  | nil => exact ⟨s.tracker, by simp, rfl, rfl, by simpa using counts⟩
  | cons event rest ih =>
    have happend : s.delivered ++ event :: rest = (s.delivered ++ [event]) ++ rest := by simp
    have hfirst : Counts env (s.handle env event).tracker (s.handle env event).delivered :=
      counts.handle fun other hother =>
        unique other (List.mem_append_left _ hother) event (by simp)
    rw [happend] at unique
    obtain ⟨m, hfold, hstart, hignored, hcounts⟩ := ih hfirst unique
    obtain ⟨hstart', hignored'⟩ := @handleOOMEvent_startTime env s.tracker event
    rw [happend]
    exact ⟨m, hfold, hstart.trans hstart', hignored.trans hignored', hcounts⟩

/-! ## The invariant -/

variable (env) in
structure Kept (s : System) : Prop where
  sorted : s.log.Pairwise fun o o' => o.event.resourceVersion < o'.event.resourceVersion
  bounded : ∀ o ∈ s.log, o.event.resourceVersion ≤ s.version
  current : ∀ event ∈ s.events, ∃ o ∈ s.log, o.event = event
  clock : ∀ o ∈ s.log, o.event.time ≤ o.time ∧ o.time ≤ s.now
  watching : s.watch = .off ↔ s.phase = .idle ∨ s.phase = .starting
  position : ∀ version, s.watch = .up version → version ≤ s.version
  written : ∀ event ∈ s.delivered, ∃ o ∈ s.log, o.event = event
  idle : s.phase = .idle → s.delivered = []
  failures : s.phase ≠ .idle → ∀ o ∈ s.log, Failure env s.tracker o →
    s.tracker.startTime ≤ o.event.time ∧
      (o.event ∈ s.delivered ∨ s.Pending o.event ∨ s.Awaited o.event)
  exact : Exact env s

theorem kept_new : Kept env new where
  sorted := .nil
  bounded := nofun
  current := nofun
  clock := nofun
  watching := ⟨fun _ => .inl rfl, fun _ => rfl⟩
  position := nofun
  written := nofun
  idle _ := rfl
  failures h := absurd rfl h
  exact := ⟨nofun, [], rfl, rfl, .nil, fun _ => ⟨nofun, nofun⟩⟩

variable {o : Occurrence}

theorem Kept.event_eq (kept : Kept env s) {o' : Occurrence} (ho : o ∈ s.log)
    (ho' : o' ∈ s.log) (h : o.event.resourceVersion = o'.event.resourceVersion) :
    o.event = o'.event := by
  have hnodup := (List.pairwise_map.mpr kept.sorted).imp Nat.ne_of_lt
  rw [List.inj_on_of_nodup_map hnodup ho ho' h]

/-- One version, one event. -/
theorem Kept.unique (kept : Kept env s) {events : List Event}
    (written : ∀ event ∈ events, ∃ o ∈ s.log, o.event = event) :
    ∀ a ∈ events, ∀ b ∈ events, a.resourceVersion = b.resourceVersion → a = b := by
  intro a ha b hb h
  obtain ⟨o, ho, rfl⟩ := written a ha
  obtain ⟨o', ho', rfl⟩ := written b hb
  exact kept.event_eq ho ho' h

/-- Nothing has been gathered where a step is still possible. -/
theorem Exact.of_counts (counts : Counts env s.tracker s.delivered)
    (h : s.phase ≠ .gathered) : Exact env s :=
  ⟨fun hg => absurd hg h, counts⟩

/-- A failure stays accounted for: what has been delivered stays delivered, and
what becomes of the others has to be shown. -/
theorem Kept.accounted {t : System} (kept : Kept env s) (started : s.phase ≠ .idle)
    (ho : o ∈ s.log) (failure : Failure env s.tracker o)
    (since : t.tracker.startTime = s.tracker.startTime) (delivered : s.delivered ⊆ t.delivered)
    (others : s.Pending o.event ∨ s.Awaited o.event →
      o.event ∈ t.delivered ∨ t.Pending o.event ∨ t.Awaited o.event) :
    t.tracker.startTime ≤ o.event.time ∧
      (o.event ∈ t.delivered ∨ t.Pending o.event ∨ t.Awaited o.event) := by
  obtain ⟨htime, hkept⟩ := kept.failures started o ho failure
  rw [since]
  exact ⟨htime, hkept.elim (fun h => .inl (delivered h)) others⟩

/-- An awaited failure either has another name or will be delivered anyway. -/
theorem System.Replaceable.awaited {name : String}
    (replaceable : s.Replaceable env name) (ho : o ∈ s.log)
    (failure : Failure env s.tracker o) (h : s.Awaited o.event) :
    o.event ∈ s.delivered ∨ s.Pending o.event ∨ o.event.name ≠ name := by
  by_cases same : o.event.name = name
  · have hlookup := h.2
    rw [same] at hlookup
    exact (replaceable o ho hlookup failure).imp_right .inl
  · exact .inr (.inr same)

section
variable (kept : Kept env s)
include kept

theorem Kept.watches (hphase : s.phase = .listed ∨ s.phase = .running) :
    s.watch ≠ .off := by
  rw [Ne, kept.watching]
  rcases hphase with h | h <;> simp [h]

/-- A running tracker that watches has what is written now before it. -/
theorem Kept.pending_of_running (hphase : s.phase = .running) (hwatch : s.watch ≠ .broken)
    (version : s.version < event.resourceVersion) :
    s.Pending event := by
  rw [System.Pending]
  cases hw : s.watch with
  | broken => exact absurd hw hwatch
  | off => exact absurd hw (kept.watches (.inr hphase))
  | up v =>
    have := kept.position v hw
    omega

theorem Kept.write (alive : s.phase ≠ .gathered) (version : event.resourceVersion = s.version + 1)
    (time : event.time ≤ s.now)
    (guard : s.phase ≠ .idle → s.Replaceable env event.name ∧ s.Seen env event) :
    Kept env (s.write event) where
  sorted := by
    refine List.pairwise_append.mpr ⟨kept.sorted, List.pairwise_singleton _ _, ?_⟩
    intro o ho o' ho'
    obtain rfl := List.mem_singleton.mp ho'
    have := kept.bounded o ho
    change o.event.resourceVersion < event.resourceVersion
    omega
  bounded o ho := by
    change o.event.resourceVersion ≤ s.version + 1
    rcases List.mem_append.mp ho with ho | ho
    · have := kept.bounded o ho
      omega
    · obtain rfl := List.mem_singleton.mp ho
      exact Nat.le_of_eq version
  current other hother := by
    rcases Store.mem_insert.mp hother with rfl | ⟨hother, _⟩
    · exact ⟨_, List.mem_append_right _ List.mem_cons_self, rfl⟩
    · obtain ⟨o, ho, rfl⟩ := kept.current other hother
      exact ⟨o, List.mem_append_left _ ho, rfl⟩
  clock o ho := by
    rcases List.mem_append.mp ho with ho | ho
    · exact kept.clock o ho
    · obtain rfl := List.mem_singleton.mp ho
      exact ⟨time, Nat.le_refl _⟩
  watching := kept.watching
  position v hv := Nat.le_succ_of_le (kept.position v hv)
  written other hother := by
    obtain ⟨o, ho, rfl⟩ := kept.written other hother
    exact ⟨o, List.mem_append_left _ ho, rfl⟩
  idle := kept.idle
  failures started o ho failure := by
    obtain ⟨replaceable, seen⟩ := guard started
    rcases List.mem_append.mp ho with ho | ho
    · refine kept.accounted started ho failure rfl (List.Subset.refl _) ?_
      rintro (hpending | hawaited)
      · exact .inr (.inl hpending)
      · refine (replaceable.awaited ho failure hawaited).imp_right (.imp_right fun other => ?_)
        refine ⟨hawaited.1, ?_⟩
        change (s.events.insert event).lookup o.event.name = _
        rw [Store.lookup_insert, if_neg other, hawaited.2]
    · obtain rfl := List.mem_singleton.mp ho
      obtain ⟨hwatch, htime⟩ := seen failure.2.1 failure.2.2
      refine ⟨htime, .inr ?_⟩
      have hlookup : (s.events.insert event).lookup event.name = some event := by
        rw [Store.lookup_insert, if_pos rfl]
      cases hphase : s.phase with
      | idle => exact absurd hphase started
      | starting => exact .inr ⟨.inl hphase, hlookup⟩
      | listed => exact .inr ⟨.inr hphase, hlookup⟩
      | gathered => exact absurd hphase alive
      | running =>
        have later : s.version < event.resourceVersion := by omega
        exact .inl (kept.pending_of_running hphase (hwatch hphase) later)
  exact := .of_counts kept.exact.counts alive

theorem Kept.delete (alive : s.phase ≠ .gathered) {name : String}
    (guard : s.phase ≠ .idle → s.Replaceable env name) :
    Kept env { s with version := s.version + 1, events := s.events.erase name } :=
  { kept with
    bounded o ho := Nat.le_succ_of_le (kept.bounded o ho)
    current event hevent := kept.current event (Store.mem_erase.mp hevent).1
    position v hv := Nat.le_succ_of_le (kept.position v hv)
    failures started o ho failure := by
      refine kept.accounted started ho failure rfl (List.Subset.refl _) ?_
      rintro (hpending | hawaited)
      · exact .inr (.inl hpending)
      · refine ((guard started).awaited ho failure hawaited).imp_right (.imp_right fun other => ?_)
        refine ⟨hawaited.1, ?_⟩
        rw [Store.lookup_erase, if_neg other, hawaited.2]
    exact := .of_counts kept.exact.counts alive }

theorem Kept.start (hidle : s.phase = .idle) (ignoredProcessesString : String) :
    Kept env { s with
      now := s.now + 1
      tracker := initFields s.tracker (s.now + 1) ignoredProcessesString
      phase := .starting } :=
  { kept with
    clock o ho := ⟨(kept.clock o ho).1, Nat.le_succ_of_le (kept.clock o ho).2⟩
    watching := ⟨fun _ => .inr rfl, fun _ => kept.watching.mpr (.inl hidle)⟩
    idle := nofun
    failures _ o ho failure := by
      -- everything that is written lies before the start
      have hbefore := (kept.clock o ho).2
      have hsince : s.now + 1 ≤ o.time := failure.1
      omega
    exact := by
      refine .of_counts ?_ nofun
      obtain ⟨counted, hooms, _, _, hmem⟩ := kept.exact.counts
      rw [kept.idle hidle] at hmem
      have hnone : counted = [] := List.eq_nil_iff_forall_not_mem.mpr fun event hevent =>
        nomatch ((hmem event).mp hevent).1
      rw [hnone] at hooms
      rw [kept.idle hidle]
      exact ⟨[], hooms, rfl, .nil, fun _ => ⟨nofun, nofun⟩⟩ }

theorem Kept.list (hphase : s.phase = .starting) :
    Kept env { s with phase := .listed, watch := .up s.version } :=
  { kept with
    watching := ⟨nofun, by rintro (h | h) <;> cases h⟩
    position v hv := by
      cases hv
      exact Nat.le_refl _
    idle := nofun
    failures _ o ho failure := by
      refine kept.accounted (by rw [hphase]; exact nofun) ho failure rfl (List.Subset.refl _) ?_
      rintro (hpending | hawaited)
      · rw [System.Pending, kept.watching.mpr (.inr hphase)] at hpending
        exact hpending.elim
      · exact .inr (.inr ⟨.inr rfl, hawaited.2⟩)
    exact := .of_counts kept.exact.counts nofun }

theorem Kept.handlePriorOOMs (hphase : s.phase = .listed) {items : List Event}
    (perm : items.Perm s.events.entries) :
    Kept env { items.foldl (System.handle env) s with phase := .running } := by
  have hwritten : ∀ event ∈ s.delivered ++ items, ∃ o ∈ s.log, o.event = event :=
    List.forall_mem_append.mpr ⟨kept.written, fun event hevent =>
      kept.current event (perm.mem_iff.mp hevent)⟩
  obtain ⟨m, hfold, hstart, hignored, hcounts⟩ :=
    foldl_handle kept.exact.counts (kept.unique hwritten)
  rw [hfold]
  have hstarted : s.phase ≠ .idle := by
    rw [hphase]
    exact nofun
  refine ⟨kept.sorted, kept.bounded, kept.current, kept.clock, ?_, kept.position, hwritten, nofun,
    ?_, .of_counts hcounts nofun⟩
  · exact iff_of_false (kept.watches (.inl hphase)) (by rintro (h | h) <;> cases h)
  · intro _ o ho failure
    rw [Failure, hstart, hignored] at failure
    refine kept.accounted hstarted ho failure hstart (List.subset_append_left _ _) ?_
    rintro (hpending | hawaited)
    · exact .inr (.inl hpending)
    · have hcurrent := (Store.lookup_eq_some.mp hawaited.2).1
      exact .inl (List.mem_append_right _ (perm.mem_iff.mpr hcurrent))

/-- What the watch has not delivered comes after what it delivers now. -/
theorem Kept.next {o' : Occurrence} (h : s.next = some o) (ho' : o' ∈ s.log)
    (hreason : o'.event.reason = oomEventReason) (hpending : s.Pending o'.event) :
    o'.event = o.event ∨ o.event.resourceVersion < o'.event.resourceVersion := by
  rw [System.next] at h
  rw [System.Pending] at hpending
  cases hw : s.watch with
  | off | broken =>
    rw [hw] at h
    cases h
  | up v =>
    rw [hw] at h hpending
    obtain ⟨_, before, after, hlog, hbefore⟩ := List.find?_eq_some_iff_append.mp h
    have hsorted := kept.sorted
    rw [hlog] at ho' hsorted
    rcases List.mem_append.mp ho' with hmem | hmem
    · have hnot := hbefore o' hmem
      rw [decide_eq_true (And.intro hpending hreason)] at hnot
      cases hnot
    · rcases List.mem_cons.mp hmem with rfl | hmem
      · exact .inl rfl
      · have hafter := (List.pairwise_append.mp hsorted).2.1
        exact .inr ((List.pairwise_cons.mp hafter).1 o' hmem)

theorem Kept.deliver (alive : s.phase ≠ .gathered) (h : s.next = some o) :
    Kept env { s.handle env o.event with watch := .up o.event.resourceVersion } := by
  have hmem : o ∈ s.log := by
    rw [System.next] at h
    split at h
    · exact List.mem_of_find?_eq_some h
    · cases h
  have hup : s.watch ≠ .off := by
    intro hoff
    rw [System.next, hoff] at h
    cases h
  have hphase : ¬ (s.phase = .idle ∨ s.phase = .starting) := fun h => hup (kept.watching.mpr h)
  have hwritten : ∀ event ∈ s.delivered ++ [o.event], ∃ o ∈ s.log, o.event = event :=
    List.forall_mem_append.mpr ⟨kept.written, List.forall_mem_singleton.mpr ⟨o, hmem, rfl⟩⟩
  obtain ⟨hstart, hignored⟩ := @handleOOMEvent_startTime env s.tracker o.event
  have hcounts := kept.exact.counts.handle fun other hother hversion =>
    kept.unique hwritten other (List.mem_append_left _ hother) o.event (by simp) hversion
  refine ⟨kept.sorted, kept.bounded, kept.current, kept.clock, ?_, ?_, hwritten, ?_, ?_,
    .of_counts hcounts alive⟩
  · exact ⟨nofun, fun h => absurd h hphase⟩
  · intro v hv
    cases hv
    exact kept.bounded o hmem
  · exact fun hidle => absurd (.inl hidle) hphase
  · intro started o' ho' failure
    change Failure env (handleOOMEvent env s.tracker o.event) o' at failure
    rw [Failure, hstart, hignored] at failure
    refine kept.accounted started ho' failure hstart (List.subset_append_left _ _) ?_
    rintro (hpending | hawaited)
    · rcases kept.next h ho' failure.2.1 hpending with hsame | hlater
      · exact .inl (List.mem_append_right _ (by rw [hsame]; exact List.mem_cons_self))
      · exact .inr (.inl hlater)
    · exact .inr (.inr hawaited)

/-- The watch breaks off or goes on from another version, and loses no failure. -/
theorem Kept.rewatch (alive : s.phase ≠ .gathered) {watch : Watch} (on : s.watch ≠ .off)
    (on' : watch ≠ .off) (position : ∀ v, watch = .up v → v ≤ s.version)
    (guard : s.phase ≠ .idle → ∀ o ∈ s.log, Failure env s.tracker o → s.Pending o.event →
      s.Awaited o.event) : Kept env { s with watch := watch } :=
  { kept with
    watching := iff_of_false on' fun h => on (kept.watching.mpr h)
    position := position
    failures started o ho failure := by
      refine kept.accounted started ho failure rfl (List.Subset.refl _) fun h => ?_
      exact .inr (.inr (h.elim (guard started o ho failure) id))
    exact := .of_counts kept.exact.counts alive }

theorem Kept.gather (hphase : s.phase = .running)
    (settled : ∀ o ∈ s.log, Failure env s.tracker o → ¬ s.Pending o.event) :
    Kept env { s with
      tracker := { s.tracker with isRunning := false }
      phase := .gathered
      result := some (OOMsTracker.gather s.tracker) } := by
  have hstarted : s.phase ≠ .idle := by
    rw [hphase]
    exact nofun
  have hkept : ∀ o ∈ s.log, Failure env s.tracker o →
      s.tracker.startTime ≤ o.event.time ∧ o.event ∈ s.delivered := by
    intro o ho failure
    obtain ⟨htime, hdelivered | hpending | hawaited⟩ := kept.failures hstarted o ho failure
    · exact ⟨htime, hdelivered⟩
    · exact absurd hpending (settled o ho failure)
    · rw [System.Awaited, hphase] at hawaited
      rcases hawaited.1 with h | h <;> cases h
  refine ⟨kept.sorted, kept.bounded, kept.current, kept.clock, ?_, kept.position, kept.written,
    nofun, ?_, ?_, kept.exact.counts⟩
  · exact iff_of_false (kept.watches (.inr hphase)) (by rintro (h | h) <;> cases h)
  · intro _ o ho failure
    exact ⟨(hkept o ho failure).1, .inl (hkept o ho failure).2⟩
  · intro _
    refine ⟨_, _, rfl, (gather_err_isSome s.tracker).trans ?_⟩
    obtain ⟨counted, hooms, _, _, hmem⟩ := kept.exact.counts
    rw [hooms]
    constructor
    · rintro ⟨oom, hoom, htime, hprocess⟩
      obtain ⟨event, hevent, rfl⟩ := List.mem_map.mp hoom
      obtain ⟨hdelivered, hreason⟩ := (hmem event).mp hevent
      obtain ⟨o, ho, rfl⟩ := kept.written event hdelivered
      rw [oomOf_time] at htime
      exact ⟨o, ho, Nat.le_trans htime (kept.clock o ho).1, hreason, hprocess⟩
    · rintro ⟨o, ho, failure⟩
      obtain ⟨htime, hdelivered⟩ := hkept o ho failure
      refine ⟨oomOf env o.event, List.mem_map.mpr ⟨o.event, ?_, rfl⟩, ?_, failure.2.2⟩
      · exact (hmem o.event).mpr ⟨hdelivered, failure.2.1⟩
      · rw [oomOf_time]
        exact htime

end

theorem time_newEvent (s : System) (name reason node message : String) (microTime : Bool) :
    (s.newEvent env name reason node message microTime).time ≤ s.now := by
  cases microTime with
  | true | false => exact env.stamp_le s.now

theorem Kept.step {s' : System} {a : Action} (kept : Kept env s) (guard : Guard env s a)
    (h : step env s a = some s') : Kept env s' := by
  unfold OOMsTracker.step at h
  split at h
  · cases h
  rename_i alive
  have guarded := guard.resolve_left
  cases a with
  | tick d =>
    cases h
    exact { kept with
      clock o ho := ⟨(kept.clock o ho).1, Nat.le_add_right_of_le (kept.clock o ho).2⟩
      exact := .of_counts kept.exact.counts alive }
  | create name reason node message microTime =>
    obtain ⟨hnone, hs⟩ := Option.ite_none_right_eq_some.mp h
    cases hs
    refine kept.write alive rfl (time_newEvent s name reason node message microTime) ?_
    refine fun started => ⟨fun o _ hlookup => ?_, guarded started⟩
    cases hnone.symm.trans hlookup
  | update name message =>
    obtain ⟨event, hlookup, rfl⟩ := Option.map_eq_some_iff.mp h
    obtain ⟨hmem, rfl⟩ := Store.lookup_eq_some.mp hlookup
    obtain ⟨o, ho, rfl⟩ := kept.current event hmem
    refine kept.write alive rfl (Nat.le_trans (kept.clock o ho).1 (kept.clock o ho).2) ?_
    exact fun started => ⟨(guarded started).1, (guarded started).2 o.event hlookup⟩
  | delete name =>
    obtain ⟨event, _, rfl⟩ := Option.map_eq_some_iff.mp h
    exact kept.delete alive guarded
  | start ignoredProcessesString =>
    obtain ⟨hidle, hs⟩ := Option.ite_none_right_eq_some.mp h
    cases hs
    exact kept.start hidle ignoredProcessesString
  | list =>
    obtain ⟨hphase, hs⟩ := Option.ite_none_right_eq_some.mp h
    cases hs
    exact kept.list hphase
  | handlePriorOOMs items =>
    obtain ⟨⟨hphase, perm⟩, hs⟩ := Option.ite_none_right_eq_some.mp h
    cases hs
    exact kept.handlePriorOOMs hphase perm
  | deliver =>
    obtain ⟨o, hnext, rfl⟩ := Option.map_eq_some_iff.mp h
    exact kept.deliver alive hnext
  | interrupt =>
    change (match s.watch with | .up _ => some { s with watch := .broken } | _ => none) = _ at h
    split at h
    next v hup =>
      cases h
      exact kept.rewatch alive (by simp [hup]) (by simp) (by simp) guarded
    next => cases h
  | relist =>
    obtain ⟨hbroken, hs⟩ := Option.ite_none_right_eq_some.mp h
    cases hs
    refine kept.rewatch alive (by simp [hbroken]) (by simp) ?_ ?_
    · rintro v ⟨⟩
      exact Nat.le_refl _
    · intro _ o _ _ hpending
      rw [System.Pending, hbroken] at hpending
      exact hpending.elim
  | gather =>
    obtain ⟨hphase, hs⟩ := Option.ite_none_right_eq_some.mp h
    cases hs
    have hstarted : s.phase ≠ .idle := by
      rw [hphase]
      intro heq
      cases heq
    exact kept.gather hphase (guarded hstarted)

end

/-- No OOM is missed, and none counts twice, in a run that loses no failure. -/
theorem gather_exact (env : Env) (actions : List Action)
    (guarded : Along (step env) (Guard env) new actions) :
    Throughout (step env) (Exact env) new actions :=
  throughout_of_along (fun _ kept => kept.exact)
    (fun _ _ _ kept guard h => kept.step guard h) kept_new guarded

/-- The message is the process, and times are shown as they are. -/
def plain : Env := ⟨fun message => some ("1", message, "1kB"), id, Nat.le_refl⟩

def oom (name process : String) : Action := .create name oomEventReason "node" process false

def shown (name process : String) (version time : Nat) : Event :=
  ⟨name, version, oomEventReason, "node", process, none, time⟩

/-- An old event, one between the start and the first list, and, after an
interruption, one that is then updated. -/
def watchedRun : List Action :=
  [oom "old" "app", .start "kubelet,proxy", oom "early" "app", .list,
    .handlePriorOOMs [shown "early" "app" 2 1, shown "old" "app" 1 0], oom "other" "kubelet",
    .deliver, .interrupt, .relist, .tick 3, oom "late" "app", .update "late" "app", .deliver,
    .deliver, .gather]

theorem gather_exact_watched :
    Along (step plain) (Guard plain) new watchedRun ∧
      Throughout (step plain) (Exact plain) new watchedRun := by
  have guarded : Along (step plain) (Guard plain) new watchedRun := by decide +kernel
  exact ⟨guarded, gather_exact plain watchedRun guarded⟩

theorem not_exact_of_missed {env : Env} {s : System} (hphase : s.phase = .gathered)
    (hresult : s.result.any (fun result => result.2.isNone) = true)
    (hfailure : ∃ o ∈ s.log, Failure env s.tracker o) : ¬ Exact env s := by
  intro exact
  obtain ⟨oomData, err, hsome, hiff⟩ := exact.fails hphase
  rw [hsome] at hresult
  have hnone : err.isNone = true := hresult
  have hfails := hiff.mpr hfailure
  cases err with
  | none => cases hfails
  | some failures => cases hnone

/-- An OOM while the watch is interrupted, which the relist does not bring. -/
def interruptedRun : List Action :=
  [.start "", .list, .handlePriorOOMs [], .interrupt, oom "late" "app", .relist, .gather]

/-- An OOM in the test that updates the event of one before. -/
def foldedRun : List Action :=
  [oom "old" "app", .start "", .list, .handlePriorOOMs [shown "old" "app" 1 0],
    .update "old" "app", .deliver, .gather]

theorem ooms_missed :
    (∃ s, exec (step plain) new interruptedRun = some s ∧ ¬ Exact plain s) ∧
      ∃ s, exec (step plain) new foldedRun = some s ∧ ¬ Exact plain s := by
  have missed : ∀ run ∈ [interruptedRun, foldedRun], (exec (step plain) new run).any (fun s =>
      s.phase = .gathered ∧ s.result.any (fun result => result.2.isNone) = true ∧
        ∃ o ∈ s.log, Failure plain s.tracker o) = true := by decide +kernel
  have ends : ∀ run ∈ [interruptedRun, foldedRun],
      ∃ s, exec (step plain) new run = some s ∧ ¬ Exact plain s := by
    intro run hrun
    obtain ⟨s, hs, hmissed⟩ := (Option.any_eq_true _ _).mp (missed run hrun)
    obtain ⟨hphase, hresult, hfailure⟩ := of_decide_eq_true hmissed
    exact ⟨s, hs, not_exact_of_missed hphase hresult hfailure⟩
  exact ⟨ends _ (.head _), ends _ (.tail _ (.head _))⟩

end OOMsTracker
