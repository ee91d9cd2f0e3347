import ClusterLoader.PauseProtocol

/-!
# Cycles of the API availability measurement

A cycle begins with a start that succeeds and ends when a gather has joined the
worker. Several fields outlive a cycle: the flag, the hosts and their metrics,
the summaries, and after a start that fails the mark that the measurement runs.

The ledger beside the system records what the cycles were: their probes, the
report each of them is due, the summaries that were handed over, the flag they
began with and whether a start has failed. It only watches; no step depends on
it. The result is about runs whose requests do not meet such leftovers, and the
runs at the end show that each kind of leftover is carried into a later action.
-/

namespace AvailabilityCycles

open KeyedStore EnabledRuns APIAvailability PauseProtocol

variable {hosts : List (String × Bool)} {config : Config}

section Reports

/-- What is to be reported of these probes. A `Duration` has 64 bits. -/
def summaryOf (pollFrequency : Int) (ip : String) (probes : List Bool) :
    AvailabilitySummary where
  ip := ip
  availabilityPercentage :=
    if probes = [] then 100
    else (probes.count true : ℚ) / ((probes.count true + probes.count false : Nat) : ℚ) * 100
  longestUnavailablePeriod := (Streaks.longest (! ·) probes * pollFrequency : Int).bmod (2 ^ 64)

theorem buildSummary_metricsOf (pollFrequency : Int) (ip : String) (probes : List Bool) :
    (metricsOf probes).buildSummary pollFrequency ip = summaryOf pollFrequency ip probes := by
  have counted : probes.count true > 0 ∨ probes.count false > 0 ↔ ¬ probes = [] := by
    cases probes with
    | nil => simp
    | cons b probes => cases b <;> simp
  rw [metricsOf_eq, Metrics.buildSummary, summaryOf]
  by_cases empty : probes = []
  · subst empty
    rfl
  · rw [if_neg empty, if_pos (counted.mpr empty)]

/-- A cycle: its configuration, the flag at its start, whether hosts of an
earlier cycle are polled in it, and its probes, those of the hosts as they
answered. -/
structure Cycle where
  config : Config
  paused : Bool
  oldHosts : Bool
  cluster : List Bool
  hosts : List (String × Bool)

def frequencyOf (config : Config) : Int :=
  match config.pollFrequency with
  | some (.ok frequency) => frequency
  | _ => 0

/-- The host IPs that the configuration asks for. -/
def configuredIPs (config : Config) : List String :=
  (if config.internal then config.masterInternalIPs else []) ++
    if config.external then config.masterIPs else []

def Cycle.report (c : Cycle) : Output where
  clusterSummary := summaryOf (frequencyOf c.config) "" c.cluster
  hostSummaries := (configuredIPs c.config).map fun ip =>
    summaryOf (frequencyOf c.config) ip (answersOf ip c.hosts)

/-- The fields count exactly the probes of the cycle. -/
structure Counts (c : Cycle) (a : Measurement) : Prop where
  pollFrequency : a.pollFrequency = frequencyOf c.config
  cluster : a.clusterLevelMetrics = some (metricsOf c.cluster)
  hostIPs : configuredIPs c.config ≠ [] → a.hostIPs = configuredIPs c.config
  hosts : ∀ ip, a.hostLevelMetrics.get ip =
    if ip ∈ configuredIPs c.config then some (metricsOf (answersOf ip c.hosts)) else none

/-- No host of an earlier cycle would be polled. -/
def NoOldHosts (config : Config) (a : Measurement) : Prop :=
  config.internal = false →
    if config.external then a.hostIPs = [] else a.hostLevelMetrics.entries = []

instance (config : Config) (a : Measurement) : Decidable (NoOldHosts config a) :=
  inferInstanceAs (Decidable (_ → _))

def newCycle (config : Config) (a : Measurement) : Cycle where
  config := config
  paused := a.isPaused
  oldHosts := ¬ NoOldHosts config a
  cluster := []
  hosts := []

variable {a : Measurement}

theorem counts_started {a' : Measurement} (started : Started config a a')
    (fresh : NoOldHosts config a) : Counts (newCycle config a) a' := by
  have frequency : a'.pollFrequency = frequencyOf config := by
    rw [frequencyOf, started.pollFrequency]
  have hosts := started.hosts
  rw [StartedHosts] at hosts
  split at hosts
  · rename_i used
    obtain ⟨ips, metrics⟩ := hosts
    have configured : a'.hostIPs = configuredIPs config := by
      rw [ips, configuredIPs]
      cases internal : config.internal with
      | true => rfl
      | false =>
        have external : config.external = true := by simpa [internal] using used
        have none_left := fresh internal
        rw [if_pos external] at none_left
        rw [none_left]
    refine ⟨frequency, started.clusterLevelMetrics, fun _ => configured, fun ip => ?_⟩
    rw [metrics, get_newHostMetrics, configured]
    rfl
  · rename_i unused
    obtain ⟨internal, external⟩ : config.internal = false ∧ config.external = false := by
      simpa using unused
    have configured : configuredIPs config = [] := by simp [configuredIPs, internal, external]
    have none_left := fresh internal
    rw [if_neg (by simp [external])] at none_left
    refine ⟨frequency, started.clusterLevelMetrics, fun h => absurd configured h, fun ip => ?_⟩
    have unasked : ip ∉ configuredIPs (newCycle config a).config := by simp [newCycle, configured]
    rw [hosts.2, if_neg unasked]
    exact Map.entries_eq_nil_iff.mp none_left ip

theorem createHostSummary_eq {metrics : Map String Metrics} {hostIPs : List String}
    {m : String → Metrics} (known : ∀ ip ∈ hostIPs, metrics.get ip = some (m ip))
    (pollFrequency : Int) :
    createHostSummary metrics hostIPs pollFrequency =
      some (hostIPs.map fun ip => (m ip).buildSummary pollFrequency ip) := by
  rw [createHostSummary]
  induction hostIPs with
  | nil => rfl
  | cons ip hostIPs ih =>
    obtain ⟨first, others⟩ := List.forall_mem_cons.mp known
    rw [List.mapM_cons, first, ih others]
    rfl

/-- What is counted is reported. -/
theorem Counts.output {c : Cycle} (counts : Counts c a) : a.output = some c.report := by
  rw [Measurement.output, counts.cluster, Option.bind_some, createClusterSummary,
    buildSummary_metricsOf, counts.pollFrequency]
  by_cases configured : configuredIPs c.config = []
  · have disabled : ¬ a.hostLevelAvailabilityEnabled = true := by
      rw [enabled_iff]
      rintro ⟨ip, h⟩
      rw [counts.hosts, configured] at h
      cases h
    rw [if_neg disabled, Cycle.report, configured]
    rfl
  · obtain ⟨ip, hip⟩ := List.exists_mem_of_ne_nil _ configured
    have enabled : a.hostLevelAvailabilityEnabled = true := by
      rw [enabled_iff]
      refine ⟨ip, ?_⟩
      rw [counts.hosts, if_pos hip]
      rfl
    have known : ∀ ip ∈ configuredIPs c.config,
        a.hostLevelMetrics.get ip = some (metricsOf (answersOf ip c.hosts)) := by
      intro ip hip
      rw [counts.hosts, if_pos hip]
    rw [if_pos enabled, counts.hostIPs configured, createHostSummary_eq known]
    simp only [buildSummary_metricsOf]
    rfl

theorem Counts.exist {c : Cycle} (counts : Counts c a) : MetricsExist a := by
  rw [← output_isSome, counts.output]
  rfl

theorem metricsOf_append (probes more : List Bool) :
    metricsOf (probes ++ more) = more.foldl Metrics.update (metricsOf probes) :=
  List.foldl_append

/-- A tick adds its answers to the cycle. -/
def Cycle.tick (c : Cycle) (cluster : Bool) (hosts : List (String × Bool)) : Cycle :=
  { c with cluster := c.cluster ++ [cluster], hosts := c.hosts ++ hosts }

theorem Counts.probe {c : Cycle} (counts : Counts c a) (answers : Answers a hosts)
    (cluster : Bool) :
    ∃ a', a.probe cluster hosts = some a' ∧ Counts (c.tick cluster hosts) a' := by
  obtain ⟨updated, hprobe, hget⟩ := probe_eq_some counts.exist answers cluster
  refine ⟨_, hprobe, ⟨counts.pollFrequency, ?_, counts.hostIPs, fun ip => ?_⟩⟩
  · rw [counts.cluster]
    exact congrArg some (metricsOf_concat c.cluster cluster).symm
  · rw [hget, counts.hosts]
    change _ = if ip ∈ configuredIPs c.config then
      some (metricsOf (answersOf ip (c.hosts ++ hosts))) else none
    split
    · rw [answersOf_append, metricsOf_append]
      rfl
    · rfl

end Reports

variable {action : Action}

section Ledger

/-- What the cycles of a run were; `ended` has next to each cycle the summary
that its gather has made. -/
structure Ledger where
  cycle : Option Cycle
  ended : List (Cycle × Output)
  handed : List Output
  failed : Bool

def Ledger.cycles (ledger : Ledger) : List Cycle :=
  ledger.ended.map Prod.fst ++ ledger.cycle.toList

/-- The summaries that a gather hands to the measurement manager. -/
def returned : Option (Measurement × List Output × Option MetricViolation) → List Output
  | some (_, summaries, _) => summaries
  | none => []

def reportedBy : Option Cycle → Option Output → List (Cycle × Output)
  | some c, some output => [(c, output)]
  | _, _ => []

/-- The entry that an action makes which is taken in `s`. -/
def Ledger.record (ledger : Ledger) (s : System) : Action → Ledger
  | .issue (.start config) =>
    if s.measurement.isRunning then ledger
    else
      match (initFields config s.measurement).2 with
      | some _ => { ledger with failed := true }
      | none => { ledger with cycle := some (newCycle config s.measurement) }
  | .probe cluster hosts => { ledger with cycle := ledger.cycle.map (·.tick cluster hosts) }
  | .join => { ledger with
      cycle := none
      ended := ledger.ended ++ reportedBy ledger.cycle s.measurement.output
      handed := ledger.handed ++ returned s.measurement.gathered }
  | _ => ledger

structure Audit where
  system : System
  ledger : Ledger

def auditStep (s : Audit) (action : Action) : Option Audit :=
  (step s.system action).map fun t => ⟨t, s.ledger.record s.system action⟩

def opened : Audit := ⟨created, ⟨none, [], [], false⟩⟩

/-- What the ledger says of the fields, in every run. -/
structure Recorded (s : Audit) : Prop where
  coherent : Coherent s.system
  alive : s.system.worker ≠ .gone → s.ledger.cycle.isSome = true
  resting : s.system.measurement.isRunning = false → s.ledger.cycle = none
  counts : ∀ c, s.ledger.cycle = some c → c.oldHosts = false →
    Counts c s.system.measurement
  exact : ∀ e ∈ s.ledger.ended, e.1.oldHosts = false → e.2 = e.1.report
  hostless : s.system.measurement.summaries = [] → s.system.measurement.isRunning = false →
    s.system.measurement.hostIPs = [] ∧ s.system.measurement.hostLevelMetrics.entries = []
  first : s.system.measurement.summaries = [] →
    ∀ c, s.ledger.cycle = some c → c.oldHosts = false

theorem recorded_opened : Recorded opened where
  coherent := coherent_created
  alive := fun alive => absurd rfl alive
  resting := fun _ => rfl
  counts := fun c hc => by cases hc
  exact := fun e he => absurd he List.not_mem_nil
  hostless := fun _ _ => ⟨rfl, rfl⟩
  first := fun _ c hc => by cases hc

variable {s : System} {ledger : Ledger}

theorem record_start_ignored (running : s.measurement.isRunning = true) :
    ledger.record s (.issue (.start config)) = ledger :=
  if_pos running

theorem record_start (resting : s.measurement.isRunning = false) :
    ledger.record s (.issue (.start config)) =
      match (initFields config s.measurement).2 with
      | some _ => { ledger with failed := true }
      | none => { ledger with cycle := some (newCycle config s.measurement) } :=
  if_neg (Bool.eq_false_iff.mp resting)

section
variable (recorded : Recorded ⟨s, ledger⟩)
include recorded

theorem Recorded.start (idle : s.controller = .idle) (config : Config) :
    Recorded ⟨start config s, ledger.record s (.issue (.start config))⟩ := by
  have coherent := recorded.coherent.start idle config
  have effect := start_effect config s
  generalize APIAvailability.start config s = t at coherent effect ⊢
  cases effect with
  | ignored running =>
    rw [record_start_ignored running]
    exact recorded
  | failed resting result running stopped summaries =>
    have no_cycle : ledger.cycle = none := recorded.resting resting
    rw [record_start resting, result]
    exact { recorded with
      coherent := coherent
      resting := fun _ => no_cycle
      counts := fun c hc => by cases no_cycle.symm.trans hc
      hostless := fun _ resting => by cases running.symm.trans resting
      first := fun _ c hc => by cases no_cycle.symm.trans hc }
  | succeeded resting result running stopped summaries started =>
    rw [record_start resting, result]
    exact { recorded with
      coherent := coherent
      alive := fun _ => rfl
      resting := fun resting => by cases running.symm.trans resting
      counts := by
        intro c hc fresh
        cases hc
        exact counts_started started (by simpa [newCycle] using fresh)
      hostless := fun _ resting => by cases running.symm.trans resting
      first := by
        intro none_left c hc
        cases hc
        obtain ⟨ips, metrics⟩ := recorded.hostless (summaries.symm.trans none_left) resting
        dsimp only at ips metrics
        simp [newCycle, NoOldHosts, ips, metrics] }

/-- Nothing that is counted changes. -/
theorem Recorded.moved {controller : Controller} {worker : Worker} {isPaused stopped : Bool}
    (alive : worker ≠ .gone → s.worker ≠ .gone)
    (coherent : Coherent ⟨{ s.measurement with isPaused := isPaused, stopped := stopped },
      controller, worker, s.panicked⟩) :
    Recorded ⟨⟨{ s.measurement with isPaused := isPaused, stopped := stopped },
      controller, worker, s.panicked⟩, ledger⟩ :=
  { recorded with
    coherent := coherent
    alive := fun h => recorded.alive (alive h)
    counts := by
      intro c hc fresh
      have counts := recorded.counts c hc fresh
      exact ⟨counts.pollFrequency, counts.cluster, counts.hostIPs, counts.hosts⟩ }

theorem Recorded.execute (idle : s.controller = .idle) (r : Request) :
    Recorded ⟨execute r s, ledger.record s (.issue r)⟩ := by
  have coherent := recorded.coherent.execute idle r
  have frame := execute_frame s r
  cases r with
  | start config => exact recorded.start idle config
  | _ =>
    obtain ⟨controller, stopped, eq⟩ := frame (by simp)
    rw [eq] at coherent ⊢
    exact recorded.moved id coherent

theorem Recorded.probe (polling : s.worker = .polling) (answers : Answers s.measurement hosts)
    (cluster : Bool) :
    Recorded ⟨tick s (s.measurement.probe cluster hosts),
      ledger.record s (.probe cluster hosts)⟩ := by
  have alive : s.worker ≠ .gone := by simp [polling]
  have coherent := recorded.coherent.effect (.probe cluster hosts polling answers)
  obtain ⟨c, hc⟩ := Option.isSome_iff_exists.mp (recorded.alive alive)
  have hc' : (ledger.record s (.probe cluster hosts)).cycle = some (c.tick cluster hosts) :=
    congrArg (Option.map _) hc
  obtain ⟨updated, hprobe, -⟩ := probe_eq_some (recorded.coherent.exist alive) answers cluster
  rw [hprobe] at coherent ⊢
  have running := recorded.coherent.running alive
  exact { recorded with
    coherent := coherent
    alive := fun _ => by rw [hc']; rfl
    resting := fun resting => by cases running.symm.trans resting
    counts := by
      intro c₁ hc₁ fresh
      obtain rfl := Option.some.inj (hc'.symm.trans hc₁)
      obtain ⟨a, hprobe', counts⟩ := (recorded.counts c hc fresh).probe answers cluster
      obtain rfl := Option.some.inj (hprobe.symm.trans hprobe')
      exact counts
    hostless := fun _ resting => by cases running.symm.trans resting
    first := by
      intro none_left c₁ hc₁
      obtain rfl := Option.some.inj (hc'.symm.trans hc₁)
      exact recorded.first none_left c hc }

end

theorem mem_reportedBy {cycle : Option Cycle} {output : Option Output} {e : Cycle × Output} :
    e ∈ reportedBy cycle output ↔ cycle = some e.1 ∧ output = some e.2 := by
  cases cycle <;> cases output <;> simp [reportedBy, Prod.ext_iff, eq_comm]

theorem Recorded.join (recorded : Recorded ⟨s, ledger⟩) (gathering : s.controller = .gathering)
    (gone : s.worker = .gone) :
    Recorded ⟨finish s s.measurement.gathered, ledger.record s .join⟩ := by
  have running := (recorded.coherent.stopping.mp gathering).2
  exact {
    coherent := recorded.coherent.finish gone
    alive := by
      dsimp only
      cases s.measurement.gathered <;> exact fun alive => absurd gone alive
    resting := fun _ => rfl
    counts := fun c hc => by cases hc
    exact := by
      intro e he fresh
      rcases List.mem_append.mp he with earlier | this
      · exact recorded.exact e earlier fresh
      · obtain ⟨hc, houtput⟩ := mem_reportedBy.mp this
        have counted := (recorded.counts e.1 hc fresh).output
        exact Option.some.inj (houtput.symm.trans counted)
    hostless := by
      by_cases exist : MetricsExist s.measurement
      · obtain ⟨output, violation, -, hgathered⟩ := exist.gathered
        rw [hgathered]
        exact fun h => by simp [finish] at h
      · rw [gathered_eq_none exist]
        exact fun _ resting => by cases running.symm.trans resting
    first := fun _ c hc => by cases hc }

theorem Recorded.effect {t : System} (recorded : Recorded ⟨s, ledger⟩)
    (effect : Effect s action t) : Recorded ⟨t, ledger.record s action⟩ := by
  have coherent := recorded.coherent.effect effect
  cases effect with
  | issue r idle => exact recorded.execute idle r
  | receivePause pausing polling => exact recorded.moved (by simp [polling]) coherent
  | receiveUnpause unpausing parked => exact recorded.moved (by simp [parked]) coherent
  | check checking => exact recorded.moved (by simp [checking]) coherent
  | clear resuming => exact recorded.moved (by simp [resuming]) coherent
  | set pausing => exact recorded.moved (by simp [pausing]) coherent
  | probe cluster hosts polling answers => exact recorded.probe polling answers cluster
  | exit stopped waits => exact recorded.moved (fun alive => absurd rfl alive) coherent
  | join gathering gone => exact recorded.join gathering gone

theorem Recorded.step {s t : Audit} (recorded : Recorded s) (h : auditStep s action = some t) :
    Recorded t := by
  obtain ⟨u, hstep, rfl⟩ := Option.map_eq_some_iff.mp h
  exact recorded.effect (step_eq_some.mp hstep).2

/-- In every run, the gather of a cycle in which no host of an earlier one was
polled reports exactly the probes of the cycle. -/
theorem report_of_cycle {actions : List Action} {s : Audit}
    (run : exec auditStep opened actions = some s) {c : Cycle} {output : Output}
    (ended : (c, output) ∈ s.ledger.ended) (fresh : c.oldHosts = false) :
    output = c.report := by
  have recorded := exec_keeps (p := Recorded) (fun _ _ _ _ recorded h => recorded.step h)
    recorded_opened run
  exact recorded.exact (c, output) ended fresh

end Ledger

section Isolation

/-- Every cycle that has ended has had its own report handed over once, all
began unpaused, and after a failed start no action has ended the process or waits
in vain. -/
structure Isolated (s : Audit) : Prop where
  reported : ∀ e ∈ s.ledger.ended, e.2 = e.1.report
  once : s.ledger.handed = s.ledger.ended.map Prod.snd
  unpaused : ∀ c ∈ s.ledger.cycles, c.paused = false
  survives : s.ledger.failed = true → s.system.panicked = false ∧ Returnable s.system

/-- The request meets nothing that an earlier one has left behind. -/
def Clean (s : System) : Action → Prop
  | .issue (.start _) => s.measurement.isRunning = false → s.measurement.isPaused = false
  | .issue .pause => s.measurement.isRunning = true → s.measurement.isPaused = false →
      s.worker ≠ .gone
  | .issue .unpause => s.measurement.isRunning = true → s.measurement.isPaused = true →
      s.worker ≠ .gone
  | .issue .gather => s.measurement.isRunning = true →
      s.worker ≠ .gone ∧ s.measurement.summaries = []
  | _ => True

instance (s : System) (action : Action) : Decidable (Clean s action) := by
  cases action with
  | issue r => cases r <;> (dsimp only [Clean]; infer_instance)
  | _ => exact instDecidableTrue

/-- What clean runs keep. -/
structure Kept (s : Audit) : Prop where
  recorded : Recorded s
  calm : s.system.panicked = false
  fresh : ∀ e ∈ s.ledger.ended, e.1.oldHosts = false
  once : s.ledger.handed = s.ledger.ended.map Prod.snd
  unpaused : ∀ c ∈ s.ledger.cycles, c.paused = false
  gathers : s.system.controller = .gathering →
    s.system.measurement.summaries = [] ∧ s.ledger.cycle.isSome = true
  failed : s.ledger.failed = true → s.system.controller = .idle ∧
    s.system.worker = .gone ∧ s.system.measurement.isRunning = true

theorem kept_opened : Kept opened where
  recorded := recorded_opened
  calm := rfl
  fresh := fun e he => absurd he List.not_mem_nil
  once := rfl
  unpaused := fun c hc => absurd hc List.not_mem_nil
  gathers := fun gathering => by cases gathering
  failed := fun failed => by cases failed

theorem Kept.isolated {s : Audit} (kept : Kept s) : Isolated s :=
  { kept with
    reported := fun e he => kept.recorded.exact e he (kept.fresh e he)
    survives := by
      intro failed
      obtain ⟨idle, -, -⟩ := kept.failed failed
      exact ⟨kept.calm, s.system, .refl _, idle⟩ }

variable {s : System} {ledger : Ledger}

theorem Kept.start (kept : Kept ⟨s, ledger⟩) (idle : s.controller = .idle)
    (clean : Clean s (.issue (.start config))) :
    Kept ⟨start config s, ledger.record s (.issue (.start config))⟩ := by
  have recorded := kept.recorded.start idle config
  have effect := start_effect config s
  generalize APIAvailability.start config s = t at recorded effect ⊢
  cases effect with
  | ignored running =>
    rw [record_start_ignored running]
    exact kept
  | failed resting result running stopped summaries =>
    have gone := kept.recorded.coherent.gone_of_resting resting
    rw [record_start resting, result] at recorded ⊢
    exact { kept with
      recorded := recorded
      gathers := fun gathering => by cases idle.symm.trans gathering
      failed := fun _ => ⟨idle, gone, running⟩ }
  | succeeded resting result running stopped summaries started =>
    rw [record_start resting, result] at recorded ⊢
    exact { kept with
      recorded := recorded
      unpaused := List.forall_mem_append.mpr
        ⟨(List.forall_mem_append.mp kept.unpaused).1, List.forall_mem_singleton.mpr (clean resting)⟩
      gathers := fun gathering => by cases idle.symm.trans gathering
      failed := fun failed => by cases resting.symm.trans (kept.failed failed).2.2 }

/-- The worker is there and the ledger stays as it is. -/
theorem Kept.moved {t : System} (kept : Kept ⟨s, ledger⟩) (recorded : Recorded ⟨t, ledger⟩)
    (alive : s.worker ≠ .gone) (panicked : t.panicked = s.panicked)
    (gathers : t.controller = .gathering → s.controller = .gathering ∧
      t.measurement.summaries = s.measurement.summaries) : Kept ⟨t, ledger⟩ :=
  { kept with
    recorded := recorded
    calm := panicked.trans kept.calm
    gathers := by
      intro gathering
      obtain ⟨gathering, summaries⟩ := gathers gathering
      obtain ⟨none_left, open_cycle⟩ := kept.gathers gathering
      exact ⟨summaries.trans none_left, open_cycle⟩
    failed := fun failed => absurd (kept.failed failed).2.1 alive }

theorem clean_ask {requested : Bool} : Clean s (.issue (ask requested)) ↔
    (s.measurement.isRunning = true → s.measurement.isPaused = !requested →
      s.worker ≠ .gone) := by
  cases requested <;> exact Iff.rfl

theorem record_ask (requested : Bool) : ledger.record s (.issue (ask requested)) = ledger := by
  cases requested <;> rfl

section
variable (kept : Kept ⟨s, ledger⟩)
include kept

theorem Kept.asked (idle : s.controller = .idle) (requested : Bool)
    (clean : Clean s (.issue (ask requested))) :
    Kept ⟨execute (ask requested) s, ledger⟩ := by
  have recorded := kept.recorded.execute idle (ask requested)
  rw [record_ask] at recorded
  rw [execute_ask] at recorded ⊢
  split at recorded
  · rename_i sent
    rw [if_pos sent]
    have alive := clean_ask.mp clean sent.1 sent.2
    exact kept.moved recorded alive rfl fun h => absurd h (sending_ne_gathering requested)
  · rename_i ignored
    rw [if_neg ignored]
    exact kept

theorem Kept.gather (idle : s.controller = .idle) (clean : Clean s (.issue .gather)) :
    Kept ⟨gather s, ledger⟩ := by
  have recorded := kept.recorded.execute idle .gather
  change Recorded ⟨APIAvailability.gather s, ledger⟩ at recorded
  rw [APIAvailability.gather] at recorded ⊢
  split at recorded
  · rename_i running
    rw [if_pos running]
    obtain ⟨alive, none_left⟩ := clean running
    exact { kept with
      recorded := recorded
      gathers := fun _ => ⟨none_left, kept.recorded.alive alive⟩
      failed := fun failed => absurd (kept.failed failed).2.1 alive }
  · rename_i resting
    rw [if_neg resting]
    exact kept

theorem Kept.execute (idle : s.controller = .idle) {r : Request} (clean : Clean s (.issue r)) :
    Kept ⟨execute r s, ledger.record s (.issue r)⟩ := by
  cases r with
  | start config => exact kept.start idle clean
  | pause => exact kept.asked idle true clean
  | unpause => exact kept.asked idle false clean
  | gather => exact kept.gather idle clean
  | unknown action => exact kept

theorem Kept.probe (polling : s.worker = .polling) (answers : Answers s.measurement hosts)
    (cluster : Bool) :
    Kept ⟨tick s (s.measurement.probe cluster hosts),
      ledger.record s (.probe cluster hosts)⟩ := by
  have alive : s.worker ≠ .gone := by simp [polling]
  have recorded := kept.recorded.probe polling answers cluster
  obtain ⟨updated, hprobe, -⟩ :=
    probe_eq_some (kept.recorded.coherent.exist alive) answers cluster
  rw [hprobe] at recorded ⊢
  exact { kept with
    recorded := recorded
    unpaused := by
      intro c hc
      rcases List.mem_append.mp hc with earlier | this
      · exact kept.unpaused c (List.mem_append_left _ earlier)
      · obtain ⟨c₀, hc₀, rfl⟩ := Option.map_eq_some_iff.mp (Option.mem_toList.mp this)
        exact kept.unpaused c₀ (List.mem_append_right _ (Option.mem_toList.mpr hc₀))
    gathers := by
      intro gathering
      obtain ⟨none_left, open_cycle⟩ := kept.gathers gathering
      exact ⟨none_left, by rw [Ledger.record, Option.isSome_map]; exact open_cycle⟩
    failed := fun failed => absurd (kept.failed failed).2.1 alive }

/-- The one gather hands over the report of its cycle, and nothing else. -/
theorem Kept.join (gathering : s.controller = .gathering) (gone : s.worker = .gone) :
    Kept ⟨finish s s.measurement.gathered, ledger.record s .join⟩ := by
  have recorded := kept.recorded.join gathering gone
  obtain ⟨none_left, open_cycle⟩ := kept.gathers gathering
  obtain ⟨c, hc⟩ := Option.isSome_iff_exists.mp open_cycle
  have fresh := kept.recorded.first none_left c hc
  have counts := kept.recorded.counts c hc fresh
  obtain ⟨output, violation, houtput, hgathered⟩ := counts.exist.gathered
  have ended : (ledger.record s .join).ended = ledger.ended ++ [(c, output)] := by
    rw [Ledger.record, show ledger.cycle = some c from hc,
      show s.measurement.output = some output from houtput]
    rfl
  have handed : (ledger.record s .join).handed = ledger.handed ++ [output] := by
    rw [Ledger.record, show s.measurement.gathered = some _ from hgathered,
      show s.measurement.summaries = [] from none_left]
    rfl
  have cycles : (ledger.record s .join).cycles = ledger.cycles := by
    rw [Ledger.cycles, Ledger.cycles, ended, show ledger.cycle = some c from hc, List.map_append]
    exact List.append_nil _
  rw [hgathered] at recorded ⊢
  exact { kept with
    recorded := recorded
    fresh := by
      rw [ended]
      exact List.forall_mem_append.mpr ⟨kept.fresh, List.forall_mem_singleton.mpr fresh⟩
    once := by
      rw [handed, ended, List.map_append, show ledger.handed = _ from kept.once]
      rfl
    unpaused := by
      rw [cycles]
      exact kept.unpaused
    gathers := fun gathering => by cases gathering
    failed := fun failed => by cases gathering.symm.trans (kept.failed failed).1 }

theorem Kept.effect {t : System} (clean : Clean s action) (effect : Effect s action t) :
    Kept ⟨t, ledger.record s action⟩ := by
  have recorded := kept.recorded.effect effect
  cases effect with
  | issue r idle => exact kept.execute idle clean
  | receivePause pausing polling =>
    exact kept.moved recorded (by simp [polling]) rfl fun h => by cases h
  | receiveUnpause unpausing parked =>
    exact kept.moved recorded (by simp [parked]) rfl fun h => by cases h
  | check checking => exact kept.moved recorded (by simp [checking]) rfl fun h => ⟨h, rfl⟩
  | clear resuming => exact kept.moved recorded (by simp [resuming]) rfl fun h => ⟨h, rfl⟩
  | set pausing => exact kept.moved recorded (by simp [pausing]) rfl fun h => ⟨h, rfl⟩
  | probe cluster hosts polling answers => exact kept.probe polling answers cluster
  | exit stopped waits =>
    have alive : s.worker ≠ .gone := by
      rcases waits with h | h <;> simp [h]
    exact kept.moved recorded alive rfl fun h => ⟨h, rfl⟩
  | join gathering gone => exact kept.join gathering gone

end

theorem Kept.step {s t : Audit} (kept : Kept s) (clean : Clean s.system action)
    (h : auditStep s action = some t) : Kept t := by
  obtain ⟨u, hstep, rfl⟩ := Option.map_eq_some_iff.mp h
  exact kept.effect clean (step_eq_some.mp hstep).2

/-- In a run whose requests meet nothing that earlier ones have left behind, the
cycles are isolated in every state. -/
theorem cycles_isolated {actions : List Action}
    (clean : Along auditStep (fun s => Clean s.system) opened actions) :
    Throughout auditStep Isolated opened actions :=
  throughout_of_along (fun _ => Kept.isolated) (fun _ _ _ kept clean h => kept.step clean h)
    kept_opened clean

/-- The cluster and two hosts by their internal IPs. -/
def hosted : Config := { clusterOnly with
  execServiceEnable := true
  masterInternalIPs := ["10.0.0.1", "10.0.0.2"] }

/-- A cycle of two ticks, between which the measurement is paused. -/
def pausedCycle : List Action :=
  [.issue (.start hosted), .check, .probe true [("10.0.0.2", true), ("10.0.0.1", false)], .check,
    .issue .pause, .receivePause, .write, .check, .issue .unpause, .receiveUnpause, .write,
    .probe false [("10.0.0.1", false), ("10.0.0.2", false)], .check, .issue .gather, .exit, .join]

theorem paused_cycle_isolated :
    Along auditStep (fun s => Clean s.system) opened pausedCycle ∧
      (∃ s, exec auditStep opened pausedCycle = some s ∧ s.ledger.handed.length = 1) ∧
      Throughout auditStep Isolated opened pausedCycle :=
  ⟨by decide +kernel, ⟨_, rfl, rfl⟩, cycles_isolated (by decide +kernel)⟩

theorem report_of_paused_cycle : ∃ s c output, exec auditStep opened pausedCycle = some s ∧
    (c, output) ∈ s.ledger.ended ∧ output = c.report := by
  have ended : ∃ s c output, exec auditStep opened pausedCycle = some s ∧
      (c, output) ∈ s.ledger.ended ∧ c.oldHosts = false := ⟨_, _, _, rfl, .head _, rfl⟩
  obtain ⟨s, c, output, run, mem, fresh⟩ := ended
  exact ⟨s, c, output, run, mem, report_of_cycle run mem fresh⟩

def gatherNow : List Action := [.issue .gather, .check, .exit, .join]

/-- The pause lasts into the next cycle, the second gather hands over the first
summary again, hosts that the second cycle does not ask for are polled and
reported in it, and after a failed start gather ends the process and pause waits
for a worker that does not exist. -/
theorem leftovers_carried_over :
    (∃ s, exec auditStep opened ([.issue (.start clusterOnly), .check, .issue .pause,
        .receivePause, .write] ++ gatherNow ++ [.issue (.start clusterOnly)]) = some s ∧
      ¬ Isolated s) ∧
    (∃ s, exec auditStep opened ([.issue (.start clusterOnly)] ++ gatherNow ++
        [.issue (.start clusterOnly)] ++ gatherNow) = some s ∧
      ¬ Isolated s) ∧
    (∃ s, exec auditStep opened ([.issue (.start hosted)] ++ gatherNow ++
        [.issue (.start clusterOnly), .check,
          .probe true [("10.0.0.1", true), ("10.0.0.2", true)]] ++ gatherNow) = some s ∧
      ¬ Isolated s) ∧
    (∃ s, exec auditStep opened [.issue (.start { clusterOnly with pollFrequency := none }),
        .issue .gather, .join] = some s ∧ s.system.panicked = true ∧ ¬ Isolated s) ∧
    (∃ s, exec auditStep opened [.issue (.start { clusterOnly with pollFrequency := none }),
        .issue .pause] = some s ∧ ¬ Returnable s.system ∧ ¬ Isolated s) := by
  have failed_then_paused : exec step created
      [.issue (.start { clusterOnly with pollFrequency := none }), .issue .pause] = some _ := rfl
  have blocked := not_returnable (coherent_of_exec failed_then_paused) fun heard =>
    (heard.received true rfl).1 rfl
  refine ⟨⟨_, rfl, fun h => ?_⟩, ⟨_, rfl, fun h => ?_⟩, ⟨_, rfl, fun h => ?_⟩,
    ⟨_, rfl, rfl, fun h => ?_⟩, ⟨_, rfl, blocked, fun h => ?_⟩⟩
  · cases h.unpaused _ (List.mem_append_right _ (List.mem_singleton_self _))
  · cases congrArg List.length h.once
  · have reported := h.reported _ (List.mem_append_right _ (List.mem_singleton_self _))
    cases congrArg (fun output => output.hostSummaries.length) reported
  · cases (h.survives rfl).1
  · exact blocked (h.survives rfl).2

end Isolation

end AvailabilityCycles
