import ClusterLoader.EnabledRuns
import ClusterLoader.KeyedStore
import ClusterLoader.Streaks
import Mathlib.Algebra.Group.Nat.Defs
import Mathlib.Data.Rat.Defs

/-!
# The API availability measurement and its worker

A started measurement has a worker goroutine that polls the API server and the
hosts at every tick. Pause and unpause are handed to the worker over unbuffered
channels: Execute decides by the flag `isPaused` whether it sends at all, and
the worker writes the flag after it has received. Gather closes the stop channel,
waits for the worker and reports.

The system below is one controller, which issues one Execute after the other and
holds the lock meanwhile, together with the worker. The worker's receive and its
write of the flag are two steps. The time between ticks is not modelled: a tick
may come whenever the worker waits for one. A nil pointer that is read ends the
process.

The results of the parameter getters are given. Counts and durations are not
bounded, percentages are rationals; of a duration its text is left out, and the
JSON of a report is the report.
-/

namespace APIAvailability

open KeyedStore EnabledRuns

section Metrics

structure Metrics where
  numSuccesses : Nat
  numFailures : Nat
  maxConsecutiveFailedProbes : Nat
  consecutiveFailedProbes : Nat

structure AvailabilitySummary where
  ip : String
  availabilityPercentage : ℚ
  longestUnavailablePeriod : Int

structure Output where
  clusterSummary : AvailabilitySummary
  hostSummaries : List AvailabilitySummary

def newMetrics : Metrics := ⟨0, 0, 0, 0⟩

def Metrics.update (a : Metrics) (availability : Bool) : Metrics :=
  if availability then
    { a with numSuccesses := a.numSuccesses + 1, consecutiveFailedProbes := 0 }
  else
    { a with
      numFailures := a.numFailures + 1
      consecutiveFailedProbes := a.consecutiveFailedProbes + 1
      maxConsecutiveFailedProbes :=
        if a.consecutiveFailedProbes + 1 > a.maxConsecutiveFailedProbes then
          a.consecutiveFailedProbes + 1
        else a.maxConsecutiveFailedProbes }

def Metrics.buildSummary (a : Metrics) (pollFrequency : Int) (hostIP : String) :
    AvailabilitySummary where
  ip := hostIP
  availabilityPercentage :=
    if a.numSuccesses > 0 ∨ a.numFailures > 0 then
      (a.numSuccesses : ℚ) / ((a.numSuccesses + a.numFailures : Nat) : ℚ) * 100
    else 100
  longestUnavailablePeriod := (a.maxConsecutiveFailedProbes * pollFrequency : Int).bmod (2 ^ 64)

/-- The metrics after these probes. -/
def metricsOf (probes : List Bool) : Metrics := probes.foldl Metrics.update newMetrics

theorem metricsOf_concat (probes : List Bool) (availability : Bool) :
    metricsOf (probes ++ [availability]) = (metricsOf probes).update availability :=
  List.foldl_concat _ _ _ _

/-- The counts are those of the probes, and the longest streak of failed ones. -/
theorem metricsOf_eq (probes : List Bool) :
    metricsOf probes = ⟨probes.count true, probes.count false,
      Streaks.longest (! ·) probes, Streaks.trailing (! ·) probes⟩ := by
  induction probes using List.reverseRecOn with
  | nil => rfl
  | append_singleton probes availability ih =>
    rw [metricsOf_concat, ih, Streaks.longest_concat, Streaks.trailing_concat]
    cases availability with
    | true => simp [Metrics.update]
    | false =>
      simp only [Metrics.update, List.count_append, List.count_singleton_self, Bool.not_false,
        if_true, Bool.false_eq_true, if_false, Metrics.mk.injEq, and_true, true_and]
      refine ⟨by simp, ?_⟩
      split <;> omega

end Metrics

section Measurement

/-- A parameter: absent, not of its type, or a value. -/
abbrev Param (A : Type) := Option (Except String A)

def Param.get {A : Type} (p : Param A) (key : String) : Except String A :=
  p.getD (.error ("key " ++ key ++ " not found"))

def Param.getOrDefault {A : Type} (p : Param A) (defaultValue : A) : Except String A :=
  p.getD (.ok defaultValue)

structure Config where
  pollFrequency : Param Int
  threshold : Param ℚ
  useHostInternalIPs : Param Bool
  useHostPublicIPs : Param Bool
  hostPollTimeoutSeconds : Param Int
  hostPollExecTimeoutSeconds : Param Int
  execServiceEnable : Bool
  masterInternalIPs : List String
  masterIPs : List String

/-- `stopped` says whether the stop channel is closed. -/
structure Measurement where
  isRunning : Bool
  isPaused : Bool
  stopped : Bool
  pollFrequency : Int
  hostIPs : List String
  summaries : List Output
  clusterLevelMetrics : Option Metrics
  threshold : ℚ
  useHostPublicIPs : Bool
  useHostInternalIPs : Bool
  hostLevelMetrics : Map String Metrics
  hostPollTimeoutSeconds : Int
  hostPollExecTimeoutSeconds : Int

def createAPIAvailabilityMeasurement : Measurement where
  isRunning := false
  isPaused := false
  stopped := false
  pollFrequency := 0
  hostIPs := []
  summaries := []
  clusterLevelMetrics := none
  threshold := 0
  useHostPublicIPs := false
  useHostInternalIPs := false
  hostLevelMetrics := Store.empty
  hostPollTimeoutSeconds := 0
  hostPollExecTimeoutSeconds := 0

def apiAvailabilityMeasurementName : String := "APIAvailability"

/-- The internal IPs replace the list of hosts, the public ones extend it. -/
def setHostIPs (config : Config) (a : Measurement) : Measurement × Option String :=
  if a.useHostInternalIPs ∧ config.masterInternalIPs = [] then
    (a, some (apiAvailabilityMeasurementName ++ ": host internal IP(s) are not provided, " ++
      "cannot measure availability through internal IPs"))
  else
    let a := if a.useHostInternalIPs then { a with hostIPs := config.masterInternalIPs } else a
    if a.useHostPublicIPs ∧ config.masterIPs = [] then
      (a, some (apiAvailabilityMeasurementName ++ ": host public IP(s) are not provided, " ++
        "cannot measure availability through public IPs"))
    else if a.useHostPublicIPs then ({ a with hostIPs := a.hostIPs ++ config.masterIPs }, none)
    else (a, none)

def newHostMetrics (hostIPs : List String) : Map String Metrics :=
  hostIPs.foldl (fun metrics ip => metrics.set ip newMetrics) Store.empty

def setHostTimeouts (config : Config) (a : Measurement) : Measurement × Option String :=
  match config.hostPollTimeoutSeconds.getOrDefault 5 with
  | .error e => (a, some e)
  | .ok timeout =>
    let a := { a with hostPollTimeoutSeconds := timeout }
    match config.hostPollExecTimeoutSeconds.getOrDefault 10 with
    | .error e => (a, some e)
    | .ok timeout => ({ a with hostPollExecTimeoutSeconds := timeout }, none)

def addHostIPs (config : Config) (a : Measurement) : Measurement × Option String :=
  if config.execServiceEnable then
    match setHostIPs config a with
    | (a, some e) => (a, some e)
    | (a, none) =>
      setHostTimeouts config { a with hostLevelMetrics := newHostMetrics a.hostIPs }
  else
    (a, some (apiAvailabilityMeasurementName ++ ": exec service is not enabled, " ++
      "cannot measure availability through host IPs"))

def initHostFields (config : Config) (a : Measurement) : Measurement × Option String :=
  match config.useHostInternalIPs.getOrDefault
      (config.execServiceEnable ∧ config.masterInternalIPs ≠ []) with
  | .error e => ({ a with useHostInternalIPs := false }, some e)
  | .ok useInternal =>
    let a := { a with useHostInternalIPs := useInternal }
    match config.useHostPublicIPs.getOrDefault false with
    | .error e => ({ a with useHostPublicIPs := false }, some e)
    | .ok usePublic =>
      let a := { a with useHostPublicIPs := usePublic }
      if a.useHostInternalIPs ∨ a.useHostPublicIPs then addHostIPs config a else (a, none)

/-- The fields after it and the error; what was set before an error stays. -/
def initFields (config : Config) (a : Measurement) : Measurement × Option String :=
  let a := { a with isRunning := true, stopped := false }
  match config.pollFrequency.get "pollFrequency" with
  | .error e => (a, some e)
  | .ok frequency =>
    let a := { a with pollFrequency := frequency }
    match config.threshold.getOrDefault 0 with
    | .error e => (a, some e)
    | .ok threshold =>
      initHostFields config { a with
        threshold := threshold
        clusterLevelMetrics := some newMetrics }

def Measurement.hostLevelAvailabilityEnabled (a : Measurement) : Bool :=
  a.hostLevelMetrics.entries ≠ []

def updateHost (metrics : Map String Metrics) (host : String × Bool) :
    Option (Map String Metrics) :=
  (metrics.get host.1).map fun m => metrics.set host.1 (m.update host.2)

/-- One tick: the cluster, and the hosts in the order in which they answer. -/
def Measurement.probe (a : Measurement) (cluster : Bool) (hosts : List (String × Bool)) :
    Option Measurement :=
  a.clusterLevelMetrics.bind fun metrics =>
    let a := { a with clusterLevelMetrics := some (metrics.update cluster) }
    if a.hostLevelAvailabilityEnabled then
      (hosts.foldlM updateHost a.hostLevelMetrics).map fun hostLevelMetrics =>
        { a with hostLevelMetrics := hostLevelMetrics }
    else some a

def createHostSummary (metrics : Map String Metrics) (hostIPs : List String)
    (pollFrequency : Int) : Option (List AvailabilitySummary) :=
  hostIPs.mapM fun ip => (metrics.get ip).map fun m => m.buildSummary pollFrequency ip

def createClusterSummary (metrics : Metrics) (pollFrequency : Int) : AvailabilitySummary :=
  metrics.buildSummary pollFrequency ""

def Measurement.output (a : Measurement) : Option Output :=
  a.clusterLevelMetrics.bind fun metrics =>
    (if a.hostLevelAvailabilityEnabled then
      createHostSummary a.hostLevelMetrics a.hostIPs a.pollFrequency
    else some []).map (Output.mk (createClusterSummary metrics a.pollFrequency))

/-- The SLO is not fulfilled. -/
structure MetricViolation where
  expected : ℚ
  got : ℚ

/-- What gather does once the worker has ended; it returns all summaries. -/
def Measurement.gathered (a : Measurement) :
    Option (Measurement × List Output × Option MetricViolation) :=
  a.output.map fun output =>
    let sli := output.clusterSummary.availabilityPercentage
    let a := { a with isRunning := false, summaries := a.summaries ++ [output] }
    (a, a.summaries, if sli < a.threshold then some ⟨a.threshold, sli⟩ else none)

end Measurement

section Starting

theorem setHostTimeouts_frame (config : Config) (a : Measurement) :
    ∃ timeout execTimeout, (setHostTimeouts config a).1 =
      { a with
        hostPollTimeoutSeconds := timeout
        hostPollExecTimeoutSeconds := execTimeout } := by
  rw [setHostTimeouts]
  split
  · exact ⟨_, _, rfl⟩
  · split <;> exact ⟨_, _, rfl⟩

/-- The hosts that the measurement has after a successful `setHostIPs`. -/
def hostIPsFrom (config : Config) (a : Measurement) : List String :=
  (if a.useHostInternalIPs then config.masterInternalIPs else a.hostIPs) ++
    if a.useHostPublicIPs then config.masterIPs else []

theorem setHostIPs_frame (config : Config) (a : Measurement) :
    ∃ hostIPs, (setHostIPs config a).1 = { a with hostIPs := hostIPs } ∧
      ((setHostIPs config a).2 = none → hostIPs = hostIPsFrom config a) := by
  obtain ⟨_, _, _, _, _, _, _, _, _ | _, _ | _, _, _, _⟩ := a <;>
    by_cases internal : config.masterInternalIPs = [] <;>
    by_cases publicIPs : config.masterIPs = [] <;>
    simp [setHostIPs, hostIPsFrom, internal, publicIPs]

/-- What starting leaves as it is. -/
structure Framed (a a' : Measurement) : Prop where
  isRunning : a'.isRunning = a.isRunning
  isPaused : a'.isPaused = a.isPaused
  stopped : a'.stopped = a.stopped
  pollFrequency : a'.pollFrequency = a.pollFrequency
  summaries : a'.summaries = a.summaries
  clusterLevelMetrics : a'.clusterLevelMetrics = a.clusterLevelMetrics

theorem addHostIPs_framed (config : Config) (a : Measurement) :
    Framed a (addHostIPs config a).1 := by
  obtain ⟨hostIPs, set, -⟩ := setHostIPs_frame config a
  rw [addHostIPs]
  split
  · cases h : setHostIPs config a with
    | mk a₁ e =>
      obtain rfl : a₁ = { a with hostIPs := hostIPs } := by rw [← set, h]
      cases e with
      | some e => exact ⟨rfl, rfl, rfl, rfl, rfl, rfl⟩
      | none =>
        obtain ⟨_, _, timeouts⟩ := setHostTimeouts_frame config
          { a with hostIPs := hostIPs, hostLevelMetrics := newHostMetrics hostIPs }
        rw [timeouts]
        exact ⟨rfl, rfl, rfl, rfl, rfl, rfl⟩
  · exact ⟨rfl, rfl, rfl, rfl, rfl, rfl⟩

variable {config : Config} {a : Measurement}

theorem addHostIPs_hosts (h : (addHostIPs config a).2 = none) :
    (addHostIPs config a).1.hostIPs = hostIPsFrom config a ∧
      (addHostIPs config a).1.hostLevelMetrics = newHostMetrics (hostIPsFrom config a) := by
  obtain ⟨hostIPs, set, eq⟩ := setHostIPs_frame config a
  rw [addHostIPs] at h ⊢
  split at h
  · rename_i enabled
    rw [if_pos enabled]
    cases hset : setHostIPs config a with
    | mk a₁ e =>
      obtain rfl : a₁ = { a with hostIPs := hostIPs } := by rw [← set, hset]
      rw [hset] at h eq
      cases e with
      | some e => cases h
      | none =>
        obtain rfl := eq rfl
        obtain ⟨_, _, timeouts⟩ := setHostTimeouts_frame config
          { a with
            hostIPs := hostIPsFrom config a
            hostLevelMetrics := newHostMetrics (hostIPsFrom config a) }
        rw [timeouts]
        exact ⟨rfl, rfl⟩
  · cases h

/-- Whether the cycle that this configuration starts uses the internal IPs. -/
def Config.internal (config : Config) : Bool :=
  match config.useHostInternalIPs.getOrDefault
      (config.execServiceEnable ∧ config.masterInternalIPs ≠ []) with
  | .ok useInternal => useInternal
  | .error _ => false

def Config.external (config : Config) : Bool :=
  match config.useHostPublicIPs.getOrDefault false with
  | .ok usePublic => usePublic
  | .error _ => false

theorem initHostFields_framed (config : Config) (a : Measurement) :
    Framed a (initHostFields config a).1 := by
  rw [initHostFields]
  split
  · exact ⟨rfl, rfl, rfl, rfl, rfl, rfl⟩
  · split
    · exact ⟨rfl, rfl, rfl, rfl, rfl, rfl⟩
    · dsimp only
      split
      · obtain ⟨h₁, h₂, h₃, h₄, h₅, h₆⟩ := addHostIPs_framed config
          { a with useHostInternalIPs := _, useHostPublicIPs := _ }
        exact ⟨h₁, h₂, h₃, h₄, h₅, h₆⟩
      · exact ⟨rfl, rfl, rfl, rfl, rfl, rfl⟩

/-- The hosts of a started cycle: the configured ones, behind the hosts of an
earlier cycle where the internal IPs are not used; without any use of hosts
both the list and the metrics of an earlier cycle stay. -/
def StartedHosts (config : Config) (a a' : Measurement) : Prop :=
  if config.internal ∨ config.external then
    a'.hostIPs = (if config.internal then config.masterInternalIPs else a.hostIPs) ++
        (if config.external then config.masterIPs else []) ∧
      a'.hostLevelMetrics = newHostMetrics a'.hostIPs
  else a'.hostIPs = a.hostIPs ∧ a'.hostLevelMetrics = a.hostLevelMetrics

theorem initHostFields_hosts (h : (initHostFields config a).2 = none) :
    StartedHosts config a (initHostFields config a).1 := by
  rw [initHostFields] at h ⊢
  split at h
  · cases h
  · rename_i useInternal internal
    dsimp only at h ⊢
    split at h
    · cases h
    · rename_i usePublic external
      have hi : config.internal = useInternal := by rw [Config.internal, internal]
      have he : config.external = usePublic := by rw [Config.external, external]
      rw [StartedHosts, hi, he]
      split at h
      · rename_i uses
        obtain ⟨ips, metrics⟩ := addHostIPs_hosts h
        rw [if_pos uses, if_pos uses, metrics, ips]
        exact ⟨rfl, rfl⟩
      · rename_i unused
        rw [if_neg unused, if_neg unused]
        exact ⟨rfl, rfl⟩

/-- Whatever its outcome, starting marks the measurement as running. -/
theorem initFields_marks (config : Config) (a : Measurement) :
    (initFields config a).1.isRunning = true ∧
      (initFields config a).1.stopped = false ∧
      (initFields config a).1.isPaused = a.isPaused ∧
      (initFields config a).1.summaries = a.summaries := by
  rw [initFields]
  split
  · exact ⟨rfl, rfl, rfl, rfl⟩
  · split
    · exact ⟨rfl, rfl, rfl, rfl⟩
    · have framed := initHostFields_framed config
      exact ⟨(framed _).isRunning, (framed _).stopped, (framed _).isPaused, (framed _).summaries⟩

/-- The measurement of a cycle that has just started. -/
structure Started (config : Config) (a a' : Measurement) : Prop where
  pollFrequency : config.pollFrequency = some (.ok a'.pollFrequency)
  clusterLevelMetrics : a'.clusterLevelMetrics = some newMetrics
  hosts : StartedHosts config a a'

theorem initFields_started
    (h : (initFields config a).2 = none) : Started config a (initFields config a).1 := by
  rw [initFields] at h ⊢
  split at h
  · cases h
  · rename_i frequency read
    split at h
    · cases h
    · have framed := initHostFields_framed config
      refine ⟨?_, (framed _).clusterLevelMetrics, initHostFields_hosts h⟩
      rw [(framed _).pollFrequency]
      cases hf : config.pollFrequency with
      | none =>
        rw [hf] at read
        cases read
      | some result =>
        rw [hf] at read
        exact congrArg some read

theorem get_newHostMetrics (hostIPs : List String) (ip : String) :
    (newHostMetrics hostIPs).get ip = if ip ∈ hostIPs then some newMetrics else none := by
  induction hostIPs using List.reverseRecOn with
  | nil => rfl
  | append_singleton hostIPs last ih =>
    have eq : newHostMetrics (hostIPs ++ [last]) =
        (newHostMetrics hostIPs).set last newMetrics := List.foldl_concat _ _ _ _
    rw [eq, Map.get_set, ih]
    by_cases same : ip = last <;> simp [same]

end Starting

variable {metrics : Map String Metrics}

section Polling

/-- There is a metric wherever the measurement reads one. -/
def HostsKnown (a : Measurement) : Prop :=
  a.hostLevelAvailabilityEnabled = true → ∀ ip ∈ a.hostIPs, ip ∈ a.hostLevelMetrics.keys

structure MetricsExist (a : Measurement) : Prop where
  cluster : a.clusterLevelMetrics.isSome = true
  hosts : HostsKnown a

instance (a : Measurement) : Decidable (HostsKnown a) :=
  inferInstanceAs (Decidable (_ → _))

instance (a : Measurement) : Decidable (MetricsExist a) :=
  decidable_of_iff (a.clusterLevelMetrics.isSome = true ∧ HostsKnown a)
    ⟨fun h => ⟨h.1, h.2⟩, fun h => ⟨h.1, h.2⟩⟩

variable {a : Measurement}

theorem Started.metricsExist {config : Config} {a' : Measurement} (h : Started config a a')
    (known : HostsKnown a) : MetricsExist a' := by
  refine ⟨by rw [h.clusterLevelMetrics]; rfl, fun enabled ip hip => ?_⟩
  have hosts := h.hosts
  rw [StartedHosts] at hosts
  split at hosts
  · obtain ⟨-, metrics⟩ := hosts
    rw [Map.mem_keys, metrics, get_newHostMetrics, if_pos hip]
    rfl
  · obtain ⟨ips, metrics⟩ := hosts
    rw [Measurement.hostLevelAvailabilityEnabled, metrics] at enabled
    rw [ips] at hip
    rw [metrics]
    exact known enabled ip hip

/-- Every host of the list answers once, when hosts are polled at all. -/
def Answers (a : Measurement) (hosts : List (String × Bool)) : Prop :=
  (hosts.map Prod.fst).Perm (if a.hostLevelAvailabilityEnabled then a.hostIPs else [])

instance (a : Measurement) (hosts : List (String × Bool)) : Decidable (Answers a hosts) :=
  inferInstanceAs (Decidable (List.Perm _ _))

/-- The answers of one host, in their order. -/
def answersOf (ip : String) (hosts : List (String × Bool)) : List Bool :=
  (hosts.filter fun host => host.1 = ip).map Prod.snd

theorem answersOf_append (ip : String) (hosts hosts' : List (String × Bool)) :
    answersOf ip (hosts ++ hosts') = answersOf ip hosts ++ answersOf ip hosts' := by
  rw [answersOf, List.filter_append, List.map_append, answersOf, answersOf]

variable {hosts : List (String × Bool)}

theorem updateHosts_eq_some (known : ∀ host ∈ hosts, host.1 ∈ metrics.keys) :
    ∃ metrics', hosts.foldlM updateHost metrics = some metrics' ∧
      ∀ ip, metrics'.get ip =
        (metrics.get ip).map fun m => (answersOf ip hosts).foldl Metrics.update m := by
  induction hosts generalizing metrics with
  | nil => exact ⟨metrics, rfl, fun ip => (Option.map_id_apply).symm⟩
  | cons host hosts ih =>
    have first := known host List.mem_cons_self
    obtain ⟨m, hm⟩ := Option.isSome_iff_exists.mp (Map.mem_keys.mp first)
    have get_next : ∀ ip, (metrics.set host.1 (m.update host.2)).get ip =
        if ip = host.1 then some (m.update host.2) else metrics.get ip :=
      fun ip => Map.get_set metrics host.1 ip _
    have known_next : ∀ other ∈ hosts,
        other.1 ∈ (metrics.set host.1 (m.update host.2)).keys := by
      intro other hother
      have hold := known other (List.mem_cons_of_mem _ hother)
      rw [Map.mem_keys, get_next]
      split
      · rfl
      · exact Map.mem_keys.mp hold
    obtain ⟨metrics', hrest, hget⟩ := ih known_next
    refine ⟨metrics', ?_, fun ip => ?_⟩
    · rw [List.foldlM_cons, updateHost, hm]
      exact hrest
    · rw [hget, get_next]
      by_cases same : ip = host.1
      · subst same
        rw [hm]
        simp [answersOf]
      · rw [if_neg same]
        simp [answersOf, Ne.symm same]

theorem enabled_iff :
    a.hostLevelAvailabilityEnabled = true ↔ ∃ ip, (a.hostLevelMetrics.get ip).isSome = true := by
  rw [Measurement.hostLevelAvailabilityEnabled, decide_eq_true_iff, Ne, Map.entries_eq_nil_iff,
    not_forall]
  simp only [Option.isSome_iff_ne_none]

theorem HostsKnown.of_same_keys {a' : Measurement} (known : HostsKnown a)
    (ips : a'.hostIPs = a.hostIPs)
    (same : ∀ ip, (a'.hostLevelMetrics.get ip).isSome = (a.hostLevelMetrics.get ip).isSome) :
    HostsKnown a' := by
  intro enabled ip hip
  obtain ⟨other, hother⟩ := enabled_iff.mp enabled
  rw [same] at hother
  rw [ips] at hip
  rw [Map.mem_keys, same]
  exact Map.mem_keys.mp (known (enabled_iff.mpr ⟨other, hother⟩) ip hip)

/-- Where the metrics exist a tick finds them, and counts every answer. -/
theorem probe_eq_some (exist : MetricsExist a) (answers : Answers a hosts) (cluster : Bool) :
    ∃ hostLevelMetrics, a.probe cluster hosts = some { a with
        clusterLevelMetrics := a.clusterLevelMetrics.map (·.update cluster)
        hostLevelMetrics := hostLevelMetrics } ∧
      ∀ ip, hostLevelMetrics.get ip = (a.hostLevelMetrics.get ip).map fun m =>
        (answersOf ip hosts).foldl Metrics.update m := by
  obtain ⟨metrics, hmetrics⟩ := Option.isSome_iff_exists.mp exist.cluster
  rw [Measurement.probe, hmetrics]
  rw [Answers] at answers
  cases enabled : a.hostLevelAvailabilityEnabled with
  | false =>
    rw [enabled, if_neg Bool.false_ne_true, List.perm_nil, List.map_eq_nil_iff] at answers
    subst answers
    refine ⟨a.hostLevelMetrics, if_neg ?_, fun ip => (Option.map_id_apply).symm⟩
    exact (Bool.eq_false_iff.mp enabled)
  | true =>
    rw [enabled] at answers
    have known : ∀ host ∈ hosts, host.1 ∈ a.hostLevelMetrics.keys := by
      intro host hhost
      have listed := answers.mem_iff.mp (List.mem_map_of_mem hhost)
      exact exist.hosts enabled host.1 listed
    obtain ⟨updated, hupdated, hget⟩ := updateHosts_eq_some known
    refine ⟨updated, (if_pos enabled).trans ?_, hget⟩
    rw [hupdated]
    rfl

theorem MetricsExist.probe (exist : MetricsExist a) (answers : Answers a hosts) (cluster : Bool) :
    ∃ a', a.probe cluster hosts = some a' ∧ MetricsExist a' ∧ Framed
      { a with clusterLevelMetrics := a.clusterLevelMetrics.map (·.update cluster) } a' := by
  obtain ⟨updated, hprobe, hget⟩ := probe_eq_some exist answers cluster
  have framed : Framed
      { a with clusterLevelMetrics := a.clusterLevelMetrics.map (·.update cluster) }
      { a with
        clusterLevelMetrics := a.clusterLevelMetrics.map (·.update cluster)
        hostLevelMetrics := updated } := ⟨rfl, rfl, rfl, rfl, rfl, rfl⟩
  refine ⟨_, hprobe, ⟨?_, exist.hosts.of_same_keys rfl fun ip => ?_⟩, framed⟩
  · rw [Option.isSome_map]
    exact exist.cluster
  · rw [hget, Option.isSome_map]

end Polling

section Reporting

theorem createHostSummary_isSome {hostIPs : List String} {pollFrequency : Int} :
    (createHostSummary metrics hostIPs pollFrequency).isSome = true ↔
      ∀ ip ∈ hostIPs, ip ∈ metrics.keys := by
  rw [createHostSummary]
  induction hostIPs with
  | nil => simp
  | cons ip hostIPs ih =>
    rw [List.forall_mem_cons, ← ih, List.mapM_cons, Map.mem_keys]
    cases metrics.get ip with
    | none => simp
    | some m => simp [Option.isSome_bind]

variable {a : Measurement}

/-- The report can be made exactly where its metrics exist. -/
theorem output_isSome : a.output.isSome = true ↔ MetricsExist a := by
  rw [Measurement.output]
  cases cluster : a.clusterLevelMetrics with
  | none =>
    constructor
    · intro h
      cases h
    · intro exist
      have := exist.cluster
      rw [cluster] at this
      cases this
  | some metrics =>
    rw [Option.bind_some, Option.isSome_map]
    have exist : MetricsExist a ↔ HostsKnown a :=
      ⟨MetricsExist.hosts, fun h => ⟨by rw [cluster]; rfl, h⟩⟩
    rw [exist]
    split
    · rename_i enabled
      rw [createHostSummary_isSome]
      exact ⟨fun h _ => h, fun h => h enabled⟩
    · rename_i disabled
      exact ⟨fun _ enabled => absurd enabled disabled, fun _ => rfl⟩

theorem MetricsExist.gathered (exist : MetricsExist a) :
    ∃ output violation, a.output = some output ∧ a.gathered =
      some ({ a with isRunning := false, summaries := a.summaries ++ [output] },
        a.summaries ++ [output], violation) := by
  obtain ⟨output, h⟩ := Option.isSome_iff_exists.mp (output_isSome.mpr exist)
  rw [Measurement.gathered, h]
  exact ⟨output, _, rfl, rfl⟩

theorem gathered_eq_none (missing : ¬ MetricsExist a) : a.gathered = none := by
  rw [← output_isSome, Option.not_isSome_iff_eq_none] at missing
  rw [Measurement.gathered, missing]
  rfl

end Reporting

section System

/-- Where the worker stands: at the top of its loop, in the select of a paused
measurement, about to clear the flag, in the select of a running one, or about
to set the flag. -/
inductive Worker where
  | gone
  | checking
  | parked
  | resuming
  | polling
  | pausing
  deriving DecidableEq

/-- The Execute in progress, where it may have to wait. -/
inductive Controller where
  | idle
  | pausing
  | unpausing
  | gathering
  deriving DecidableEq

structure System where
  measurement : Measurement
  controller : Controller
  worker : Worker
  panicked : Bool

inductive Request where
  | start (config : Config)
  | pause
  | unpause
  | gather
  | unknown (action : String)

inductive Action where
  | issue (r : Request)
  | receivePause
  | receiveUnpause
  | check
  | write
  | probe (cluster : Bool) (hosts : List (String × Bool))
  | exit
  | join

def start (config : Config) (s : System) : System :=
  if s.measurement.isRunning then s
  else
    match initFields config s.measurement with
    | (a, some _) => { s with measurement := a }
    | (a, none) => { s with measurement := a, worker := .checking }

/-- What a start does: nothing, fail with some of the fields written, or begin
a cycle. -/
inductive StartEffect (config : Config) (s : System) : System → Prop where
  | ignored (running : s.measurement.isRunning = true) : StartEffect config s s
  | failed {a : Measurement} {e : String} (resting : s.measurement.isRunning = false)
      (result : initFields config s.measurement = (a, some e)) (running : a.isRunning = true)
      (stopped : a.stopped = false) (summaries : a.summaries = s.measurement.summaries) :
      StartEffect config s { s with measurement := a }
  | succeeded {a : Measurement} (resting : s.measurement.isRunning = false)
      (result : initFields config s.measurement = (a, none)) (running : a.isRunning = true)
      (stopped : a.stopped = false) (summaries : a.summaries = s.measurement.summaries)
      (started : Started config s.measurement a) :
      StartEffect config s { s with measurement := a, worker := .checking }

theorem start_effect (config : Config) (s : System) : StartEffect config s (start config s) := by
  rw [start]
  split
  · rename_i running
    exact .ignored running
  · rename_i resting
    have resting := Bool.eq_false_iff.mpr resting
    have marks := initFields_marks config s.measurement
    have started := @initFields_started config s.measurement
    cases result : initFields config s.measurement with
    | mk a e =>
      rw [result] at marks started
      obtain ⟨running, stopped, -, summaries⟩ := marks
      cases e with
      | some e => exact .failed resting result running stopped summaries
      | none => exact .succeeded resting result running stopped summaries (started rfl)

theorem start_frame (config : Config) (s : System) :
    (start config s).controller = s.controller ∧ (start config s).panicked = s.panicked := by
  have effect := start_effect config s
  generalize start config s = t at effect ⊢
  cases effect <;> exact ⟨rfl, rfl⟩

def pause (s : System) : System :=
  if s.measurement.isRunning ∧ ¬ s.measurement.isPaused then { s with controller := .pausing }
  else s

def unpause (s : System) : System :=
  if s.measurement.isRunning ∧ s.measurement.isPaused then { s with controller := .unpausing }
  else s

def gather (s : System) : System :=
  if s.measurement.isRunning then
    { s with
      controller := .gathering
      measurement := { s.measurement with stopped := true } }
  else s

/-- The Execute of the measurement, up to where it waits. -/
def execute (r : Request) (s : System) : System :=
  match r with
  | .start config => start config s
  | .pause => pause s
  | .unpause => unpause s
  | .gather => gather s
  | .unknown _ => s

/-- A request other than a start changes no more than what Execute waits for. -/
theorem execute_frame (s : System) (r : Request) (h : ∀ config, r ≠ .start config) :
    ∃ controller stopped, execute r s =
      ⟨{ s.measurement with stopped := stopped }, controller, s.worker, s.panicked⟩ := by
  have same : ∃ controller stopped, s =
      ⟨{ s.measurement with stopped := stopped }, controller, s.worker, s.panicked⟩ :=
    ⟨_, _, rfl⟩
  cases r with
  | start config => exact absurd rfl (h config)
  | pause =>
    rw [execute, pause]
    split
    · exact ⟨_, _, rfl⟩
    · exact same
  | unpause =>
    rw [execute, unpause]
    split
    · exact ⟨_, _, rfl⟩
    · exact same
  | gather =>
    rw [execute, gather]
    split
    · exact ⟨_, _, rfl⟩
    · exact same
  | unknown action => exact same

def setPaused (s : System) (isPaused : Bool) : System :=
  { s with measurement := { s.measurement with isPaused := isPaused } }

def tick (s : System) : Option Measurement → System
  | some a => { s with measurement := a, worker := .checking }
  | none => { s with panicked := true }

def finish (s : System) : Option (Measurement × List Output × Option MetricViolation) → System
  | some (a, _) => { s with measurement := a, controller := .idle }
  | none => { s with panicked := true }

def step (s : System) (action : Action) : Option System :=
  if s.panicked then none
  else
    match action with
    | .issue r => if s.controller = .idle then some (execute r s) else none
    | .receivePause =>
      if s.controller = .pausing ∧ s.worker = .polling then
        some { s with controller := .idle, worker := .pausing }
      else none
    | .receiveUnpause =>
      if s.controller = .unpausing ∧ s.worker = .parked then
        some { s with controller := .idle, worker := .resuming }
      else none
    | .check =>
      if s.worker = .checking then
        some { s with worker := if s.measurement.isPaused then .parked else .polling }
      else none
    | .write =>
      match s.worker with
      | .resuming => some { setPaused s false with worker := .polling }
      | .pausing => some { setPaused s true with worker := .checking }
      | _ => none
    | .probe cluster hosts =>
      if s.worker = .polling ∧ Answers s.measurement hosts then
        some (tick s (s.measurement.probe cluster hosts))
      else none
    | .exit =>
      if s.measurement.stopped ∧ (s.worker = .parked ∨ s.worker = .polling) then
        some { s with worker := .gone }
      else none
    | .join =>
      if s.controller = .gathering ∧ s.worker = .gone then
        some (finish s s.measurement.gathered)
      else none

/-- What the actions do. -/
inductive Effect (s : System) : Action → System → Prop where
  | issue (r : Request) : s.controller = .idle → Effect s (.issue r) (execute r s)
  | receivePause : s.controller = .pausing → s.worker = .polling →
      Effect s .receivePause { s with controller := .idle, worker := .pausing }
  | receiveUnpause : s.controller = .unpausing → s.worker = .parked →
      Effect s .receiveUnpause { s with controller := .idle, worker := .resuming }
  | check : s.worker = .checking →
      Effect s .check { s with worker := if s.measurement.isPaused then .parked else .polling }
  | clear : s.worker = .resuming →
      Effect s .write { setPaused s false with worker := .polling }
  | set : s.worker = .pausing →
      Effect s .write { setPaused s true with worker := .checking }
  | probe (cluster : Bool) (hosts : List (String × Bool)) :
      s.worker = .polling → Answers s.measurement hosts →
      Effect s (.probe cluster hosts) (tick s (s.measurement.probe cluster hosts))
  | exit : s.measurement.stopped = true → s.worker = .parked ∨ s.worker = .polling →
      Effect s .exit { s with worker := .gone }
  | join : s.controller = .gathering → s.worker = .gone →
      Effect s .join (finish s s.measurement.gathered)

theorem step_eq_some {s t : System} {action : Action} :
    step s action = some t ↔ s.panicked = false ∧ Effect s action t := by
  constructor
  · intro h
    rw [step.eq_def, Option.ite_none_left_eq_some] at h
    obtain ⟨calm, h⟩ := h
    refine ⟨Bool.eq_false_iff.mpr calm, ?_⟩
    cases action with
    | write =>
      dsimp only at h
      split at h
      · rename_i resuming
        cases h
        exact .clear resuming
      · rename_i pausing
        cases h
        exact .set pausing
      · cases h
    | _ =>
      obtain ⟨enabled, h⟩ := Option.ite_none_right_eq_some.mp h
      cases h
      constructor <;> first | exact enabled | exact enabled.1 | exact enabled.2
  · rintro ⟨calm, effect⟩
    rw [step.eq_def]
    cases effect <;> simp [*]

def created : System := ⟨createAPIAvailabilityMeasurement, .idle, .gone, false⟩

end System

end APIAvailability
