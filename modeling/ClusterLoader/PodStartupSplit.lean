import ClusterLoader.PodStartup
import ClusterLoader.TransitionLatencies

/-!
# Pod startup latencies by kind of pod

gather verifies the `pod_startup` latencies three times: of all pods, of the
stateless ones and of the stateful ones. A pod is in exactly one of the two
groups, whatever is known of it, so the latencies of all pods are those of the
groups together, and no percentile of them exceeds both of the groups'. What the
pods of one group add can hide a violation of the other, never the reverse.
-/

namespace PodStartupSplit

open KeyedStore TransitionTimes TransitionLatencies NearestRank PodStartup

/-- `podStartupTransitionsWithThreshold`; the threshold is only printed. -/
def transitions : Map String (Transition Phase) := ⟨podStartupTransitions, by decide⟩

/-- What `VerifyThresholdByPercentile` may be called on in a check. -/
def Measured (T : Tables) (c : Check) (metric : LatencyMetric) : Prop :=
  ∃ podStartupLatency,
    CalculateTransitionsLatency T.entries transitions (c.filter T) podStartupLatency ∧
      podStartupLatency.get "pod_startup" = some metric

def thresholdOf (p : Params) : Percentile → Int
  | .perc50 => p.perc50Threshold
  | .perc90 => p.perc90Threshold
  | .perc99 => p.perc99Threshold

theorem verifyThresholdByPercentile_eq_none {metric : LatencyMetric} {p : Params} :
    verifyThresholdByPercentile metric p = none ↔
      ∀ q, valueOf metric q ≤ thresholdOf p q := by
  rw [verifyThresholdByPercentile]
  constructor
  · intro h q
    split_ifs at h with h50 h90 h99
    cases q with
    | perc50 => exact Int.not_lt.mp h50
    | perc90 => exact Int.not_lt.mp h90
    | perc99 => exact Int.not_lt.mp h99
  · intro h
    have h50 : metric.perc50 ≤ p.perc50Threshold := h .perc50
    have h90 : metric.perc90 ≤ p.perc90Threshold := h .perc90
    have h99 : metric.perc99 ≤ p.perc99Threshold := h .perc99
    rw [if_neg (Int.not_lt.mpr h50), if_neg (Int.not_lt.mpr h90), if_neg (Int.not_lt.mpr h99)]

/-! ## The groups -/

section Groups
variable {Phase : Type} [DecidableEq Phase]

variable (o : ObjectTransitionTimes Phase)

theorem latencyOf_filter (filter : String → Bool) (transition : Transition Phase) (key : String) :
    latencyOf o filter transition key =
      if filter key = true then latencyOf o (fun _ => true) transition key else none := by
  unfold latencyOf
  cases filter key with
  | false | true => simp

theorem latencies_filter (filter : String → Bool) (transition : Transition Phase) :
    latencies o filter transition =
      Multiset.filterMap (latencyOf o (fun _ => true) transition)
        (Multiset.filter (fun key => filter key = true) o.times.keys) := by
  rw [Multiset.filterMap_filter, latencies]
  congr 1
  funext key
  exact latencyOf_filter o filter transition key

/-- A filter and its negation share the latencies out. -/
theorem latencies_split (filter : String → Bool) (transition : Transition Phase) :
    latencies o filter transition + latencies o (fun key => !filter key) transition =
      latencies o (fun _ => true) transition := by
  have hnot : (fun key => (!filter key) = true) = fun key => ¬ filter key = true := by
    funext key
    rw [Bool.not_eq_true', Bool.not_eq_true]
  rw [latencies_filter o filter, latencies_filter o fun key => !filter key,
    ← Multiset.filterMap_add]
  simp only [hnot, Multiset.filter_add_not, latencies]

end Groups

theorem Measured.nearestRanks {T : Tables} {c : Check} {metric : LatencyMetric}
    (h : Measured T c metric) :
    NearestRanks (latencies T.entries (c.filter T) ⟨.create, .watch⟩) metric := by
  obtain ⟨podStartupLatency, calculated, hget⟩ := h
  have hmetric := calculated.get "pod_startup"
  rw [hget] at hmetric
  rw [Option.some.inj hmetric]
  exact nearestRanks_sort _

theorem measured_metricOf (T : Tables) (c : Check) :
    Measured T c (metricOf T.entries (c.filter T) ⟨.create, .watch⟩) := by
  obtain ⟨result, calculated⟩ :=
    exists_calculateTransitionsLatency T.entries transitions (c.filter T)
  exact ⟨result, calculated, calculated.get "pod_startup"⟩

/-- A percentile of all pods exceeds its threshold only where that of a group does. -/
theorem startup_violation_in_split (T : Tables) (p : Params) (metric : Check → LatencyMetric)
    (measured : ∀ c, Measured T c (metric c)) :
    (∀ key, T.filterStateful key = !T.filterStateless key) ∧
      (∀ c, verifyThresholdByPercentile (metric c) p = none ↔
        ∀ q, valueOf (metric c) q ≤ thresholdOf p q) ∧
      (∀ q, thresholdOf p q < valueOf (metric .all) q →
        thresholdOf p q < valueOf (metric .stateless) q ∨
          thresholdOf p q < valueOf (metric .stateful) q) ∧
      (verifyThresholdByPercentile (metric .stateless) p = none →
        verifyThresholdByPercentile (metric .stateful) p = none →
          verifyThresholdByPercentile (metric .all) p = none) := by
  have bound : ∀ q, valueOf (metric .all) q ≤
      max (valueOf (metric .stateless) q) (valueOf (metric .stateful) q) := by
    have hall := (measured .all).nearestRanks
    have hsplit := latencies_split T.entries T.filterStateless ⟨.create, .watch⟩
    change NearestRanks (latencies T.entries (fun _ => true) _) _ at hall
    rw [← hsplit] at hall
    exact (measured .stateless).nearestRanks.le_max (measured .stateful).nearestRanks hall
  refine ⟨fun _ => rfl, fun _ => verifyThresholdByPercentile_eq_none, ?_, ?_⟩
  · intro q exceeds
    have := bound q
    omega
  · simp only [verifyThresholdByPercentile_eq_none]
    intro stateless stateful q
    have := bound q
    have := stateless q
    have := stateful q
    omega

/-- A stateless pod that starts soon and a stateful one that takes long. -/
def slowStateful : Tables :=
  let web := ((Tables.empty.setStateless "d/web" true).set "d/web" .create 0).set "d/web" .watch 2
  ((web.setStateless "d/db" false).set "d/db" .create 0).set "d/db" .watch 9

theorem metricOf_slowStateful :
    metricOf slowStateful.entries (Check.all.filter slowStateful) ⟨.create, .watch⟩ =
      ⟨2, 9, 9⟩ := by
  have hsame := calculateTransitionsLatency_eq slowStateful.entries
    [("pod_startup", ⟨.create, .watch⟩)] (Check.all.filter slowStateful)
  have hcalculated : calculateTransitionsLatency slowStateful.entries
      [("pod_startup", ⟨.create, .watch⟩)] (Check.all.filter slowStateful) =
        [("pod_startup", ⟨2, 9, 9⟩)] := by decide
  exact (Prod.mk.inj (List.cons.inj hsame).1).2.symm

theorem startup_violation_slowStateful :
    ∃ metric : Check → LatencyMetric, (∀ c, Measured slowStateful c (metric c)) ∧
      5 < (metric .all).perc99 ∧
        (5 < (metric .stateless).perc99 ∨ 5 < (metric .stateful).perc99) := by
  have exceeds : 5 < (metricOf slowStateful.entries (Check.all.filter slowStateful)
      ⟨.create, .watch⟩).perc99 := by
    rw [metricOf_slowStateful]
    decide
  refine ⟨_, measured_metricOf slowStateful, exceeds, ?_⟩
  exact (startup_violation_in_split slowStateful ⟨5, 5, 5, false⟩ _
    (measured_metricOf slowStateful)).2.2.1 .perc99 exceeds

end PodStartupSplit
