import ClusterLoader.EnabledRuns
import ClusterLoader.Histograms

/-!
# Restarting EtcdMetrics

A start launches one collector per master; each samples the size of the database
until the stop channel is closed. A gather reads the metrics of one master after
the other and adds them to the histograms; after the first read it disposes of
the collectors and waits for them. Stop channel, wait group and histograms are
made once, with the measurement.

A read over SSH succeeds with its samples or fails; which is given with the
call. A provider without SSH to the masters makes every call return at once and
is left out. That enabled steps are taken is not claimed; `Live` says that a
call can return wherever the collectors have gone.
-/

namespace EtcdMetrics

open EnabledRuns Histograms

inductive Kind where
  | backendCommitDuration
  | snapshotSaveTotalDuration
  | peerRoundTripTime
  | walFsyncDuration
  deriving DecidableEq

structure Metrics where
  backendCommitDuration : HistogramVec
  snapshotSaveTotalDuration : HistogramVec
  peerRoundTripTime : HistogramVec
  walFsyncDuration : HistogramVec
  maxDatabaseSize : Int

def newEtcdMetrics : Metrics := ⟨[], [], [], [], 0⟩

namespace Metrics

def histogram (m : Metrics) : Kind → HistogramVec
  | .backendCommitDuration => m.backendCommitDuration
  | .snapshotSaveTotalDuration => m.snapshotSaveTotalDuration
  | .peerRoundTripTime => m.peerRoundTripTime
  | .walFsyncDuration => m.walFsyncDuration

def modify (m : Metrics) (k : Kind) (f : HistogramVec → HistogramVec) : Metrics :=
  match k with
  | .backendCommitDuration => { m with backendCommitDuration := f m.backendCommitDuration }
  | .snapshotSaveTotalDuration =>
    { m with snapshotSaveTotalDuration := f m.snapshotSaveTotalDuration }
  | .peerRoundTripTime => { m with peerRoundTripTime := f m.peerRoundTripTime }
  | .walFsyncDuration => { m with walFsyncDuration := f m.walFsyncDuration }

theorem histogram_modify (m : Metrics) (k k' : Kind) (f : HistogramVec → HistogramVec) :
    (m.modify k f).histogram k' = if k' = k then f (m.histogram k') else m.histogram k' := by
  cases k <;> cases k' <;> rfl

/-- The count in a bucket of one of the histograms. -/
def bucket (m : Metrics) (k : Kind) (labels : LabelMap) (le : String) : Int :=
  count (m.histogram k) labels le

/-- All counts are of type `int`. -/
def Fits (m : Metrics) : Prop :=
  ∀ k labels le, int64 (m.bucket k labels le) = m.bucket k labels le

end Metrics

/-- The histogram that a sample belongs to, by the name of its metric. -/
def kindOf (s : Sample) : Option Kind :=
  match (s.metric.lookup "__name__").getD "" with
  | "etcd_disk_backend_commit_duration_seconds_bucket" => some .backendCommitDuration
  | "etcd_debugging_snap_save_total_duration_seconds_bucket" => some .snapshotSaveTotalDuration
  | "etcd_disk_wal_fsync_duration_seconds_bucket" => some .walFsyncDuration
  | "etcd_network_peer_round_trip_time_seconds_bucket" => some .peerRoundTripTime
  | _ => none

def collectEtcdMetrics (m : Metrics) (s : Sample) : Metrics :=
  match kindOf s with
  | none => m
  | some k => m.modify k (convertSampleToBucket s)

/-- What a master answers to a read of its metrics. -/
abbrev Read := Except String (List Sample)

/-- What a gather is to report for a bucket: the counts it has read, summed
over the masters. -/
def total (reads : List Read) (k : Kind) (labels : LabelMap) (le : String) : Int :=
  (reads.map fun read =>
    match read with
    | .error _ => 0
    | .ok samples => Histograms.total (samples.filter (kindOf · = some k)) labels le).sum

theorem histogram_foldl (samples : List Sample) (m : Metrics) (k : Kind) :
    (samples.foldl collectEtcdMetrics m).histogram k =
      convertSamples (samples.filter (kindOf · = some k)) (m.histogram k) := by
  induction samples generalizing m with
  | nil => rfl
  | cons s rest ih =>
    rw [List.foldl_cons, ih, List.filter_cons, collectEtcdMetrics]
    cases hkind : kindOf s with
    | none => rfl
    | some k' =>
      simp only [Metrics.histogram_modify, Option.some.injEq, decide_eq_true_iff]
      by_cases same : k = k'
      · rw [if_pos same, if_pos same.symm]
        rfl
      · rw [if_neg same, if_neg (Ne.symm same)]

section
variable {m : Metrics} (fits : m.Fits) (samples : List Sample)

include fits

theorem bucket_foldl (k : Kind) (labels : LabelMap) (le : String) :
    (samples.foldl collectEtcdMetrics m).bucket k labels le =
      int64 (m.bucket k labels le +
        Histograms.total (samples.filter (kindOf · = some k)) labels le) := by
  rw [Metrics.bucket, histogram_foldl]
  exact count_convertSamples (fits k labels le)

theorem fits_foldl : (samples.foldl collectEtcdMetrics m).Fits := by
  intro k labels le
  rw [bucket_foldl fits, int64_int64]

end

/-! ## Calls and collectors -/

inductive Chan where
  | opened
  | closed
  deriving DecidableEq

/-- A call that waits for the collectors, with what it does next: a gather goes
on with the reads that are left, or returns the error of the read before. -/
inductive Pending where
  | gather (reads : List Read) (next : Except String (List Read))
  | dispose

inductive Controller where
  | idle
  | waiting (call : Pending)

inductive Outcome where
  | started
  | failed (err : String)
  | skipped
  | gathered (reads : List Read) (metrics : Metrics)
  | disposed

structure System where
  isRunning : Bool
  stopCh : Chan
  /-- The masters whose collectors are alive; the wait group counts them. -/
  collectors : List String
  metrics : Metrics
  controller : Controller
  returned : Option Outcome
  panicked : Option String
  /-- The masters for which the starts since the last stop have launched one. -/
  launched : List String

def created : System where
  isRunning := false
  stopCh := .opened
  collectors := []
  metrics := newEtcdMetrics
  controller := .idle
  returned := none
  panicked := none
  launched := []

def startCollecting (hosts : List String) (s : System) : System :=
  { s with
    isRunning := true
    collectors := s.collectors ++ hosts
    launched := (if s.isRunning then s.launched else []) ++ hosts }

/-- Dispose up to its wait for the collectors, where it has to wait. -/
def disposing (call : Pending) (s : System) : System :=
  let s := { s with isRunning := false }
  match s.stopCh with
  | .closed => { s with panicked := some "close of closed channel" }
  | .opened => { s with stopCh := .closed, controller := .waiting call }

def System.return (s : System) (outcome : Outcome) : System :=
  { s with controller := .idle, returned := some outcome }

/-- The loop of gather over the masters; `reads` are all of its reads. -/
def gatherFrom (reads : List Read) : List Read → System → System
  | [], s => s.return (.gathered reads s.metrics)
  | .error err :: _, s =>
    if s.isRunning then disposing (.gather reads (.error err)) s else s.return (.failed err)
  | .ok samples :: rest, s =>
    let s := { s with metrics := samples.foldl collectEtcdMetrics s.metrics }
    if s.isRunning then disposing (.gather reads (.ok rest)) s else gatherFrom reads rest s

def resume (s : System) : Pending → System
  | .gather _ (.error err) => s.return (.failed err)
  | .gather reads (.ok rest) => gatherFrom reads rest s
  | .dispose => s.return .disposed

inductive Call where
  | start (hosts : List String) (waitTime : Except String Int)
  | gather (reads : List Read)
  | dispose
  | unknown (action : String)

def execute (s : System) : Call → System
  | .start [] _ => s.return .skipped
  | .start _ (.error err) => s.return (.failed err)
  | .start hosts (.ok _) => (startCollecting hosts s).return .started
  | .gather [] => s.return .skipped
  | .gather reads => gatherFrom reads reads s
  | .dispose => if s.isRunning then disposing .dispose s else s.return .disposed
  | .unknown action => s.return (.failed ("unknown action " ++ action))

def getEtcdDatabaseSize : Read → Except String Int
  | .error err => .error err
  | .ok samples =>
    match samples.find? fun s =>
      s.metric.lookup "__name__" = some "etcd_debugging_mvcc_db_total_size_in_bytes" ||
        s.metric.lookup "__name__" = some "etcd_mvcc_db_total_size_in_bytes" with
    | none => .error "couldn't find etcd database size metric"
    | some s => .ok s.value

/-- A collector only logs an error. -/
def collectEtcdDatabaseSize (m : Metrics) (read : Read) : Metrics :=
  match getEtcdDatabaseSize read with
  | .error _ => m
  | .ok size => { m with maxDatabaseSize := max m.maxDatabaseSize size }

inductive Action where
  | call (c : Call)
  | sample (host : String) (read : Read)
  | quit (host : String)
  | waited

def step (s : System) (a : Action) : Option System :=
  if s.panicked.isSome then none
  else match a with
    | .call c =>
      match s.controller with
      | .idle => some (execute s c)
      | .waiting _ => none
    | .sample host read =>
      if host ∈ s.collectors then
        some { s with metrics := collectEtcdDatabaseSize s.metrics read }
      else none
    | .quit host =>
      if host ∈ s.collectors ∧ s.stopCh = .closed then
        some { s with collectors := s.collectors.erase host }
      else none
    | .waited =>
      match s.controller with
      | .idle => none
      | .waiting call => if s.collectors = [] then some (resume s call) else none

/-- Everything but a new call. -/
def Internal : Action → Prop
  | .call _ => False
  | _ => True

def Idle (s : System) : Prop := s.controller = .idle

/-- What is wanted of every state: no panic, every collector launched since the
last stop alive while the measurement is running, and a report that sums up the
reads of its own gather. -/
structure Reusable (s : System) : Prop where
  calm : s.panicked = none
  sampling : s.isRunning = true → s.collectors = s.launched
  exact : ∀ reads metrics, s.returned = some (.gathered reads metrics) →
    ∀ k labels le, metrics.bucket k labels le = total reads k labels le

/-- So it is wherever the collectors go, and a pending call can return. -/
structure Safe (s : System) : Prop where
  always : ∀ t, Reaches step Internal s t → Reusable t
  returns : Live step Internal Idle s

def Succeeds (reads : List Read) : Prop := ∀ read ∈ reads, read.isOk = true

/-- What makes a call safe in the state it is issued in: a start finds a stop
channel that was never closed, a gather that will report finds no counts and its
sums are of type `int`. -/
def Guarded (s : System) : Action → Prop
  | .call (.start hosts (.ok _)) => hosts ≠ [] → s.stopCh = .opened
  | .call (.gather reads) => reads ≠ [] → Succeeds reads → ∀ k labels le,
    s.metrics.bucket k labels le = 0 ∧
      -2 ^ 63 ≤ total reads k labels le ∧ total reads k labels le < 2 ^ 63
  | _ => True

/-! ## What holds while every call is guarded -/

structure Sound (s : System) : Prop where
  calm : s.panicked = none
  running : s.isRunning = true →
    s.stopCh = .opened ∧ s.controller = .idle ∧ s.collectors = s.launched
  resting : s.isRunning = false → s.controller = .idle → s.collectors = []
  waiting : ∀ call, s.controller = .waiting call → s.isRunning = false ∧ s.stopCh = .closed
  fits : s.metrics.Fits
  pending : ∀ reads rest, s.controller = .waiting (.gather reads (.ok rest)) → Succeeds rest →
    ∀ k labels le, int64 (s.metrics.bucket k labels le + total rest k labels le) =
      total reads k labels le
  exact : ∀ reads metrics, s.returned = some (.gathered reads metrics) →
    ∀ k labels le, metrics.bucket k labels le = total reads k labels le

theorem sound_created : Sound created where
  calm := rfl
  running := nofun
  resting := fun _ _ => rfl
  waiting := nofun
  fits := fun k _ _ => by cases k <;> rfl
  pending := nofun
  exact := nofun

variable {s t : System}

theorem total_cons_ok (samples : List Sample) (rest : List Read) (k : Kind) (labels : LabelMap)
    (le : String) :
    total (.ok samples :: rest) k labels le =
      Histograms.total (samples.filter (kindOf · = some k)) labels le +
        total rest k labels le := by
  simp only [total, List.map_cons, List.sum_cons]

theorem total_nil (k : Kind) (labels : LabelMap) (le : String) : total [] k labels le = 0 := rfl

/-- What the loop of gather comes to once nothing is running. -/
inductive Gathered (reads rest : List Read) (s : System) : System → Prop where
  | failed (metrics : Metrics) (fits : metrics.Fits) (err : String) (fails : ¬ Succeeds rest) :
    Gathered reads rest s ({ s with metrics := metrics }.return (.failed err))
  | reported (metrics : Metrics) (fits : metrics.Fits) (succeeds : Succeeds rest)
    (sum : ∀ k labels le, metrics.bucket k labels le =
      int64 (s.metrics.bucket k labels le + total rest k labels le)) :
    Gathered reads rest s ({ s with metrics := metrics }.return (.gathered reads metrics))

theorem gatherFrom_gathered (reads rest : List Read) (resting : s.isRunning = false)
    (fits : s.metrics.Fits) : Gathered reads rest s (gatherFrom reads rest s) := by
  induction rest generalizing s with
  | nil =>
    refine .reported s.metrics fits nofun fun k labels le => ?_
    rw [total_nil, Int.add_zero, fits]
  | cons read rest ih =>
    cases read with
    | error err =>
      rw [gatherFrom, resting]
      exact .failed s.metrics fits err fun succeeds => by cases succeeds _ List.mem_cons_self
    | ok samples =>
      have next := ih (s := { s with metrics := samples.foldl collectEtcdMetrics s.metrics })
        resting (fits_foldl fits samples)
      have hloop : gatherFrom reads (.ok samples :: rest) s = gatherFrom reads rest
          { s with metrics := samples.foldl collectEtcdMetrics s.metrics } := by
        simp only [gatherFrom, resting, Bool.false_eq_true, if_false]
      rw [hloop]
      generalize gatherFrom reads rest
        { s with metrics := samples.foldl collectEtcdMetrics s.metrics } = u at next ⊢
      cases next with
      | failed metrics fits err fails =>
        exact .failed metrics fits err fun succeeds =>
          fails fun read hread => succeeds read (List.mem_cons_of_mem _ hread)
      | reported metrics fits' succeeds sum =>
        refine .reported metrics fits' (List.forall_mem_cons.mpr ⟨rfl, succeeds⟩) ?_
        intro k labels le
        rw [sum, bucket_foldl fits, total_cons_ok, int64_absorbs, Int.add_assoc]

/-- A state in which nothing runs and nothing waits. -/
theorem Sound.rest (calm : s.panicked = none) (resting : s.isRunning = false)
    (drained : s.collectors = []) (fits : s.metrics.Fits) {outcome : Outcome}
    (exact : ∀ reads metrics, outcome = .gathered reads metrics →
      ∀ k labels le, metrics.bucket k labels le = total reads k labels le) :
    Sound (s.return outcome) where
  calm := calm
  running := fun running => by cases resting.symm.trans running
  resting := fun _ _ => drained
  waiting := nofun
  fits := fits
  pending := nofun
  exact := fun reads metrics h => exact reads metrics (Option.some.inj h)

variable {reads : List Read}

theorem Sound.gathered {rest : List Read} (calm : s.panicked = none)
    (resting : s.isRunning = false) (drained : s.collectors = []) (fits : s.metrics.Fits)
    (sums : Succeeds rest → ∀ k labels le, int64 (s.metrics.bucket k labels le +
      total rest k labels le) = total reads k labels le) :
    Sound (gatherFrom reads rest s) := by
  have gathered := gatherFrom_gathered reads rest resting fits
  generalize gatherFrom reads rest s = t at gathered ⊢
  cases gathered with
  | failed metrics fits err fails =>
    exact .rest (s := { s with metrics := metrics }) calm resting drained fits nofun
  | reported metrics fits succeeds sum =>
    refine .rest (s := { s with metrics := metrics }) calm resting drained fits ?_
    rintro _ _ ⟨⟩ k labels le
    exact (sum k labels le).trans (sums succeeds k labels le)

theorem collectEtcdDatabaseSize_bucket (m : Metrics) (read : Read) (k : Kind)
    (labels : LabelMap) (le : String) :
    (collectEtcdDatabaseSize m read).bucket k labels le = m.bucket k labels le := by
  unfold collectEtcdDatabaseSize
  split
  · rfl
  · cases k <;> rfl

/-- What each action does, where it can be taken. -/
inductive Effect (s : System) : Action → System → Prop where
  | call (c : Call) (idle : s.controller = .idle) : Effect s (.call c) (execute s c)
  | sample (host : String) (read : Read) (alive : host ∈ s.collectors) :
    Effect s (.sample host read) { s with metrics := collectEtcdDatabaseSize s.metrics read }
  | quit (host : String) (alive : host ∈ s.collectors) (stopped : s.stopCh = .closed) :
    Effect s (.quit host) { s with collectors := s.collectors.erase host }
  | waited (call : Pending) (waiting : s.controller = .waiting call)
    (drained : s.collectors = []) : Effect s .waited (resume s call)

variable {a : Action}

theorem step_of_effect (calm : s.panicked = none) (effect : Effect s a t) : step s a = some t := by
  cases effect with
  | call c idle => simp [step, calm, idle]
  | sample host read alive => simp [step, calm, alive]
  | quit host alive stopped => simp [step, calm, alive, stopped]
  | waited call waiting drained => simp [step, calm, waiting, drained]

theorem effect_of_step (h : step s a = some t) : s.panicked = none ∧ Effect s a t := by
  obtain ⟨calm, h⟩ := Option.ite_none_left_eq_some.mp h
  refine ⟨by simpa using calm, ?_⟩
  cases a with
  | call c =>
    cases idle : s.controller with
    | waiting call => simp [idle] at h
    | idle =>
      simp only [idle, Option.some.injEq] at h
      subst h
      exact .call c idle
  | sample host read =>
    obtain ⟨alive, h⟩ := Option.ite_none_right_eq_some.mp h
    cases h
    exact .sample host read alive
  | quit host =>
    obtain ⟨⟨alive, stopped⟩, h⟩ := Option.ite_none_right_eq_some.mp h
    cases h
    exact .quit host alive stopped
  | waited =>
    cases waiting : s.controller with
    | idle => simp [waiting] at h
    | waiting call =>
      simp only [waiting] at h
      obtain ⟨drained, h⟩ := Option.ite_none_right_eq_some.mp h
      cases h
      exact .waited call waiting drained

theorem Sound.resume (sound : Sound s) {call : Pending}
    (waiting : s.controller = .waiting call) (drained : s.collectors = []) :
    Sound (resume s call) := by
  have resting := (sound.waiting call waiting).1
  cases call with
  | dispose => exact .rest sound.calm resting drained sound.fits nofun
  | gather reads next =>
    cases next with
    | error err => exact .rest sound.calm resting drained sound.fits nofun
    | ok rest =>
      exact .gathered sound.calm resting drained sound.fits (sound.pending reads rest waiting)

theorem Sound.internal (sound : Sound s) (h : step s a = some t)
    (internal : Internal a) : Sound t := by
  cases (effect_of_step h).2 with
  | call c idle => exact absurd internal id
  | sample host read alive =>
    exact { sound with
      fits := fun k labels le => by
        rw [collectEtcdDatabaseSize_bucket]
        exact sound.fits k labels le
      pending := fun reads rest waiting succeeds k labels le => by
        rw [collectEtcdDatabaseSize_bucket]
        exact sound.pending reads rest waiting succeeds k labels le }
  | quit host alive stopped =>
    exact { sound with
      running := fun running => by cases stopped.symm.trans (sound.running running).1
      resting := fun resting idle => by
        rw [sound.resting resting idle] at alive
        cases alive }
  | waited call waiting drained => exact sound.resume waiting drained

/-! ## A pending call returns -/

/-- The collectors of a closed channel quit one by one. -/
theorem reaches_drained (calm : s.panicked = none) (stopped : s.stopCh = .closed) :
    Reaches step Internal s { s with collectors := [] } := by
  generalize hcollectors : s.collectors = collectors
  induction collectors generalizing s with
  | nil =>
    have hsame : { s with collectors := [] } = s := by rw [← hcollectors]
    rw [hsame]
    exact .refl s
  | cons host rest ih =>
    have alive : host ∈ s.collectors := hcollectors ▸ List.mem_cons_self
    have hquit := step_of_effect calm (.quit host alive stopped)
    refine .head (show Internal (.quit host) from trivial) hquit ?_
    exact ih (s := { s with collectors := s.collectors.erase host }) calm stopped
      (by rw [hcollectors, List.erase_cons_head])

theorem reaches_resumed {call : Pending} (calm : s.panicked = none)
    (waiting : s.controller = .waiting call) (stopped : s.stopCh = .closed) :
    Reaches step Internal s (resume { s with collectors := [] } call) :=
  (reaches_drained calm stopped).trans
    (.single (show Internal .waited from trivial) (step_of_effect calm (.waited call waiting rfl)))

theorem gatherFrom_idle (reads rest : List Read) (resting : s.isRunning = false)
    (fits : s.metrics.Fits) : Idle (gatherFrom reads rest s) := by
  have gathered := gatherFrom_gathered reads rest resting fits
  generalize gatherFrom reads rest s = t at gathered ⊢
  cases gathered <;> rfl

theorem resume_idle (resting : s.isRunning = false) (fits : s.metrics.Fits) (call : Pending) :
    Idle (resume s call) := by
  cases call with
  | dispose => rfl
  | gather reads next =>
    cases next with
    | error err => rfl
    | ok rest => exact gatherFrom_idle reads rest resting fits

theorem Sound.returns (sound : Sound s) : ∃ u, Reaches step Internal s u ∧ Idle u := by
  cases waiting : s.controller with
  | idle => exact ⟨s, .refl s, waiting⟩
  | waiting call =>
    obtain ⟨resting, stopped⟩ := sound.waiting call waiting
    exact ⟨_, reaches_resumed sound.calm waiting stopped,
      resume_idle (s := { s with collectors := [] }) resting sound.fits call⟩

theorem Sound.reusable (sound : Sound s) : Reusable s :=
  { sound with sampling := fun running => (sound.running running).2.2 }

theorem Sound.safe (sound : Sound s) : Safe s where
  always := fun _ reached =>
    (reached.keeps (fun _ _ _ internal sound h => sound.internal h internal) sound).reusable
  returns := live_of_keeps (fun _ _ _ internal sound h => sound.internal h internal)
    (fun _ sound => sound.returns) sound

/-! ## The calls -/

theorem disposing_of_opened (opened : s.stopCh = .opened) (call : Pending) :
    disposing call s =
      { s with isRunning := false, stopCh := .closed, controller := .waiting call } := by
  simp only [disposing, opened]

section
variable (sound : Sound s)
include sound

theorem Sound.disposing (running : s.isRunning = true) {metrics : Metrics} (fits : metrics.Fits)
    {call : Pending}
    (pending : ∀ reads rest, call = .gather reads (.ok rest) → Succeeds rest →
      ∀ k labels le, int64 (metrics.bucket k labels le + total rest k labels le) =
        total reads k labels le) :
    Sound (disposing call { s with metrics := metrics }) := by
  have opened := (sound.running running).1
  rw [disposing_of_opened (s := { s with metrics := metrics }) opened]
  exact { sound with
    running := nofun
    resting := fun _ => nofun
    waiting := fun _ _ => ⟨rfl, rfl⟩
    fits := fits
    pending := fun reads rest waiting => pending reads rest (Controller.waiting.inj waiting) }

/-- A call that only answers. -/
theorem Sound.answered (idle : s.controller = .idle) {outcome : Outcome}
    (silent : ∀ reads metrics, outcome ≠ .gathered reads metrics) :
    Sound (s.return outcome) where
  calm := sound.calm
  running := fun running => ⟨(sound.running running).1, rfl, (sound.running running).2.2⟩
  resting := fun resting _ => sound.resting resting idle
  waiting := nofun
  fits := sound.fits
  pending := nofun
  exact := fun reads metrics h => absurd (Option.some.inj h) (silent reads metrics)

theorem Sound.start (idle : s.controller = .idle) {hosts : List String}
    (opened : s.stopCh = .opened) : Sound ((startCollecting hosts s).return .started) where
  calm := sound.calm
  running := fun _ => by
    refine ⟨opened, rfl, ?_⟩
    cases running : s.isRunning with
    | true =>
      simp only [startCollecting, System.return, running, if_true]
      rw [(sound.running running).2.2]
    | false =>
      simp only [startCollecting, System.return, running, Bool.false_eq_true, if_false]
      rw [sound.resting running idle]
  resting := nofun
  waiting := nofun
  fits := sound.fits
  pending := nofun
  exact := nofun

theorem Sound.gather (idle : s.controller = .idle) (nonempty : reads ≠ [])
    (fresh : Succeeds reads → ∀ k labels le, s.metrics.bucket k labels le = 0 ∧
      -2 ^ 63 ≤ total reads k labels le ∧ total reads k labels le < 2 ^ 63) :
    Sound (gatherFrom reads reads s) := by
  cases running : s.isRunning with
  | false =>
    refine .gathered sound.calm running (sound.resting running idle) sound.fits ?_
    intro succeeds k labels le
    obtain ⟨zero, low, high⟩ := fresh succeeds k labels le
    rw [zero, Int.zero_add, int64_of_fits low high]
  | true =>
    cases reads with
    | nil => exact absurd rfl nonempty
    | cons read rest =>
      cases read with
      | error err =>
        rw [gatherFrom, if_pos running]
        exact sound.disposing running sound.fits nofun
      | ok samples =>
        simp only [gatherFrom, running]
        refine sound.disposing running (fits_foldl sound.fits samples) ?_
        rintro _ _ ⟨⟩ succeeds k labels le
        obtain ⟨zero, low, high⟩ := fresh (List.forall_mem_cons.mpr ⟨rfl, succeeds⟩) k labels le
        rw [bucket_foldl sound.fits, zero, Int.zero_add, int64_absorbs, ← total_cons_ok,
          int64_of_fits low high]

theorem Sound.call {c : Call} (idle : s.controller = .idle) (guarded : Guarded s (.call c)) :
    Sound (execute s c) := by
  cases c with
  | start hosts waitTime =>
    cases hosts with
    | nil => exact sound.answered idle nofun
    | cons host hosts =>
      cases waitTime with
      | error err => exact sound.answered idle nofun
      | ok waitTime => exact sound.start idle (guarded nofun)
  | gather reads =>
    cases reads with
    | nil => exact sound.answered idle nofun
    | cons read rest => exact sound.gather idle nofun (guarded nofun)
  | dispose =>
    unfold execute
    cases running : s.isRunning with
    | false => exact sound.answered idle nofun
    | true => exact sound.disposing running sound.fits nofun
  | unknown action => exact sound.answered idle nofun

theorem Sound.step (guarded : Guarded s a) (h : step s a = some t) : Sound t := by
  cases a with
  | call c =>
    cases (effect_of_step h).2 with
    | call _ idle => exact sound.call idle guarded
  | _ => exact sound.internal h trivial

/-! ## Unguarded calls -/

/-- With the stop channel closed the new collectors quit. -/
theorem start_not_safe (idle : s.controller = .idle) {host : String} {hosts : List String}
    (stopped : s.stopCh = .closed) :
    ¬ Safe ((startCollecting (host :: hosts) s).return .started) := by
  intro safe
  have resting : s.isRunning = false := by
    rw [Bool.eq_false_iff]
    intro running
    cases stopped.symm.trans (sound.running running).1
  have drained := sound.resting resting idle
  have alive : host ∈ ((startCollecting (host :: hosts) s).return .started).collectors := by
    simp [startCollecting, System.return]
  have quit := step_of_effect (s := (startCollecting (host :: hosts) s).return .started)
    sound.calm (.quit host alive stopped)
  have sampling := (safe.always _ (.single (show Internal (.quit host) from trivial)
    quit)).sampling rfl
  simp [startCollecting, System.return, resting, drained] at sampling

end

theorem gatherFrom_not_reusable {rest : List Read} (k : Kind) (labels : LabelMap)
    (le : String) (resting : s.isRunning = false) (fits : s.metrics.Fits)
    (succeeds : Succeeds rest) (wrong : int64 (s.metrics.bucket k labels le +
      total rest k labels le) ≠ total reads k labels le) :
    ¬ Reusable (gatherFrom reads rest s) := by
  intro reusable
  have gathered := gatherFrom_gathered reads rest resting fits
  generalize gatherFrom reads rest s = t at gathered reusable
  cases gathered with
  | failed metrics _ err fails => exact fails succeeds
  | reported metrics _ _ sum =>
    exact wrong ((sum k labels le).symm.trans (reusable.exact reads metrics rfl k labels le))

/-- Old counts are added to the new ones, and a sum that is too large wraps around. -/
theorem gather_not_safe (sound : Sound s) (nonempty : reads ≠ [])
    (succeeds : Succeeds reads) {k : Kind} {labels : LabelMap} {le : String}
    (wrong : ¬ (s.metrics.bucket k labels le = 0 ∧
      -2 ^ 63 ≤ total reads k labels le ∧ total reads k labels le < 2 ^ 63)) :
    ¬ Safe (gatherFrom reads reads s) := by
  intro safe
  have differ : int64 (s.metrics.bucket k labels le + total reads k labels le) ≠
      total reads k labels le := by
    intro same
    have zero := eq_zero_of_int64_add (sound.fits k labels le) same
    exact wrong ⟨zero, same ▸ int64_bounds _⟩
  cases running : s.isRunning with
  | false =>
    exact gatherFrom_not_reusable k labels le running sound.fits succeeds differ
      (safe.always _ (.refl _))
  | true =>
    cases reads with
    | nil => exact nonempty rfl
    | cons read rest =>
      obtain ⟨first, others⟩ := List.forall_mem_cons.mp succeeds
      cases read with
      | error err => cases first
      | ok samples =>
        have opened := (sound.running running).1
        have hloop : gatherFrom (.ok samples :: rest) (.ok samples :: rest) s =
            { s with
              isRunning := false
              stopCh := .closed
              metrics := samples.foldl collectEtcdMetrics s.metrics
              controller := .waiting (.gather (.ok samples :: rest) (.ok rest)) } := by
          simp only [gatherFrom, running, if_true, disposing, opened]
        rw [hloop] at safe
        have resumed := safe.always _ (reaches_resumed sound.calm rfl rfl)
        refine gatherFrom_not_reusable k labels le (by rfl) ?_ others ?_ resumed
        · exact fits_foldl sound.fits samples
        · rwa [bucket_foldl sound.fits, int64_absorbs, Int.add_assoc, ← total_cons_ok]

theorem not_safe_of_not_guarded (sound : Sound s) (unguarded : ¬ Guarded s a)
    (h : EtcdMetrics.step s a = some t) : ¬ Safe t := by
  cases a with
  | call c =>
    cases (effect_of_step h).2 with
    | call _ idle =>
      cases c with
      | start hosts waitTime =>
        cases waitTime with
        | error err => exact absurd trivial unguarded
        | ok waitTime =>
          obtain ⟨nonempty, closed⟩ := Classical.not_imp.mp unguarded
          have stopped : s.stopCh = .closed := by
            cases hstop : s.stopCh with
            | opened => exact absurd hstop closed
            | closed => rfl
          cases hosts with
          | nil => exact absurd rfl nonempty
          | cons host hosts => exact start_not_safe sound idle stopped
      | gather reads =>
        obtain ⟨nonempty, hrest⟩ := Classical.not_imp.mp unguarded
        obtain ⟨succeeds, counted⟩ := Classical.not_imp.mp hrest
        simp only [not_forall] at counted
        obtain ⟨k, labels, le, wrong⟩ := counted
        cases reads with
        | nil => exact absurd rfl nonempty
        | cons read rest => exact gather_not_safe sound nonempty succeeds wrong
      | dispose | unknown => exact absurd trivial unguarded
  | _ => exact absurd trivial unguarded

/-- A run is safe throughout exactly if no start comes after the stop channel was
closed, no gather that reports after counts were collected, and all sums fit. -/
theorem reusable_throughout_iff (actions : List Action) :
    Throughout EtcdMetrics.step Safe created actions ↔
      Along EtcdMetrics.step Guarded created actions :=
  throughout_iff_along (fun _ sound => sound.safe)
    (fun _ _ _ sound guarded h => sound.step guarded h)
    (fun _ _ _ sound unguarded h => not_safe_of_not_guarded sound unguarded h) sound_created

/-- One sample of a histogram. -/
def commit : Sample where
  metric := (List.toFinmap [⟨"__name__", "etcd_disk_backend_commit_duration_seconds_bucket"⟩,
    ⟨"le", "0.001"⟩])
  value := 5

/-- After a first gather the collectors of a second start quit, and the gather
that follows closes the channel again. Two gathers report the counts of both. -/
theorem restart_broken :
    ¬ Throughout EtcdMetrics.step Safe created
      [.call (.start ["a"] (.ok 60)), .call (.gather [.ok []]), .quit "a", .waited,
        .call (.start ["a"] (.ok 60))] ∧
    ¬ Throughout EtcdMetrics.step Safe created
      [.call (.start ["a"] (.ok 60)), .call (.gather [.ok []]), .quit "a", .waited,
        .call (.start ["a"] (.ok 60)), .call (.gather [.ok []])] ∧
    ¬ Throughout EtcdMetrics.step Safe created
      [.call (.gather [.ok [commit]]), .call (.gather [.ok [commit]])] := by
  refine ⟨fun safe => ?_, fun safe => ?_, fun safe => ?_⟩
  · have second := ((((safe.2 _ rfl).2 _ rfl).2 _ rfl).2 _ rfl).2 _ rfl
    have quit := second.always _ (.single (show Internal (.quit "a") from trivial) rfl)
    cases quit.sampling rfl
  · have panicked := (((((safe.2 _ rfl).2 _ rfl).2 _ rfl).2 _ rfl).2 _ rfl).2 _ rfl
    cases (panicked.always _ (.refl _)).calm
  · have second := ((safe.2 _ rfl).2 _ rfl).always _ (.refl _)
    have exact := second.exact _ _ rfl .backendCommitDuration commit.labels "0.001"
    revert exact
    decide

end EtcdMetrics
