import ClusterLoader.NearestRank
import ClusterLoader.TransitionTimes
import Mathlib.Data.Int.ConditionallyCompleteOrder

/-!
# The latencies of transitions, in any order

`CalculateTransitionsLatency` ranges over two maps and sorts with an unstable
sort, so the order of the latencies is not fixed before the percentiles are
taken. Here every order that the source allows is a run. All runs return the
same: for each transition the values of the nearest ranks. The rank is the exact
ceiling. A latency is cut at the largest `Duration`, where `Time.Sub` saturates.
-/

namespace TransitionLatencies

open KeyedStore TransitionTimes NearestRank

variable {Phase : Type} [DecidableEq Phase]

/-- What `sort.Sort` may leave: equal latencies stand in any order. -/
structure SortsTo (lag sorted : List LatencyData) : Prop where
  perm : sorted.Perm lag
  ordered : sorted.Pairwise fun a b => a.latency ≤ b.latency

/-- The loop for one transition may end with `lagMetric`. -/
def Measures (o : ObjectTransitionTimes Phase) (filter : String → Bool)
    (transition : Transition Phase) (lagMetric : LatencyMetric) : Prop :=
  ∃ (order : List (String × Map Phase Int)) (sorted : List LatencyData),
    order.Perm o.times.entries ∧ SortsTo (collect filter transition order) sorted ∧
      lagMetric = newLatencyMetric (sorted.map LatencyData.latency)

/-- The loop over the transitions left, from the metrics before to what is returned. -/
inductive Loop (o : ObjectTransitionTimes Phase) (filter : String → Bool) :
    List (String × Transition Phase) → Map String LatencyMetric →
      Map String LatencyMetric → Prop
  | done {metric : Map String LatencyMetric} : Loop o filter [] metric metric
  | next {name : String} {transition : Transition Phase}
      {left : List (String × Transition Phase)} {metric result : Map String LatencyMetric}
      {lagMetric : LatencyMetric} (measures : Measures o filter transition lagMetric)
      (rest : Loop o filter left (metric.set name lagMetric) result) :
      Loop o filter ((name, transition) :: left) metric result

def CalculateTransitionsLatency (o : ObjectTransitionTimes Phase)
    (t : Map String (Transition Phase)) (filter : String → Bool)
    (result : Map String LatencyMetric) : Prop :=
  ∃ order, order.Perm t.entries ∧ Loop o filter order Store.empty result

/-! ## What is returned -/

/-- The latency of a key that passes the filter and has both phases. -/
def latencyOf (o : ObjectTransitionTimes Phase) (filter : String → Bool)
    (transition : Transition Phase) (key : String) : Option Int :=
  match filter key, o.get key transition.start, o.get key transition.stop with
  | true, some fromTime, some toTime => some (min (2 ^ 63 - 1) (max 0 (toTime - fromTime)))
  | _, _, _ => none

def latencies (o : ObjectTransitionTimes Phase) (filter : String → Bool)
    (transition : Transition Phase) : Multiset Int :=
  Multiset.filterMap (latencyOf o filter transition) o.times.keys

def valueOf (metric : LatencyMetric) : Percentile → Int
  | .perc50 => metric.perc50
  | .perc90 => metric.perc90
  | .perc99 => metric.perc99

structure NearestRanks (s : Multiset Int) (metric : LatencyMetric) : Prop where
  zero : s = 0 → metric = ⟨0, 0, 0⟩
  ranked : s ≠ 0 → ∀ q : Percentile,
    AtRank s (nearestRank s.card q.hundredths) (valueOf metric q)

section Ranked
variable {s : Multiset Int} {metric : LatencyMetric}

section
variable (h : NearestRanks s metric)
include h

theorem NearestRanks.isPercentile (hs : s ≠ 0) {xs : List Int} (hxs : (xs : Multiset Int) = s)
    (q : Percentile) :
    IsPercentile q.hundredths xs (valueOf metric q) :=
  (h.ranked hs q).isPercentile q.valid.1 q.valid.2 hxs

theorem NearestRanks.mono :
    metric.perc50 ≤ metric.perc90 ∧ metric.perc90 ≤ metric.perc99 := by
  by_cases hs : s = 0
  · rw [h.zero hs]
    exact ⟨Int.le_refl 0, Int.le_refl 0⟩
  · have percentile := h.isPercentile hs (s.sort_eq (· ≤ ·))
    constructor
    · exact (percentile .perc50).le (by decide) (percentile .perc90)
    · exact (percentile .perc90).le (by decide) (percentile .perc99)

/-- Two reports of the same latencies have the same values. -/
theorem NearestRanks.valueOf_eq {metric' : LatencyMetric} (h' : NearestRanks s metric')
    (q : Percentile) : valueOf metric q = valueOf metric' q := by
  by_cases hs : s = 0
  · rw [h.zero hs, h'.zero hs]
  · have hvalue := (h.ranked hs q).value
    rw [(h'.ranked hs q).value] at hvalue
    exact (Option.some.inj hvalue).symm

/-- Of two groups together, no percentile exceeds both of the groups'. An empty
group is reported with zeros and leaves the other as it is. -/
theorem NearestRanks.le_max {s' : Multiset Int} {metric' together : LatencyMetric}
    (h' : NearestRanks s' metric') (both : NearestRanks (s + s') together) (q : Percentile) :
    valueOf together q ≤ max (valueOf metric q) (valueOf metric' q) := by
  by_cases hs : s = 0
  · rw [hs, Multiset.zero_add] at both
    rw [both.valueOf_eq h' q]
    exact le_max_right _ _
  by_cases hs' : s' = 0
  · rw [hs', Multiset.add_zero] at both
    rw [both.valueOf_eq h q]
    exact le_max_left _ _
  have hxs := s.sort_eq (· ≤ ·)
  have hys := s'.sort_eq (· ≤ ·)
  have hboth : s + s' ≠ 0 := by
    have hpos := Multiset.card_pos.mpr hs
    rw [← Multiset.card_pos, Multiset.card_add]
    omega
  have htogether : ((s.sort (· ≤ ·) ++ s'.sort (· ≤ ·) : List Int) : Multiset Int) =
      s + s' := by rw [← Multiset.coe_add, hxs, hys]
  exact (both.isPercentile hboth htogether q).le_max (h.isPercentile hs hxs q)
    (h'.isPercentile hs' hys q)

end

end Ranked

/-! ## One transition -/

/-- What a transition is reported with, computed from the sorted latencies. -/
def metricOf (o : ObjectTransitionTimes Phase) (filter : String → Bool)
    (transition : Transition Phase) : LatencyMetric :=
  newLatencyMetric ((latencies o filter transition).sort (· ≤ ·))

theorem valueOf_newLatencyMetric {sorted : List Int} (nonempty : 0 < sorted.length)
    (q : Percentile) :
    valueOf (newLatencyMetric sorted) q = percentile sorted nonempty q := by
  rw [newLatencyMetric, dif_pos nonempty]
  cases q <;> rfl

theorem nearestRanks_sort (s : Multiset Int) :
    NearestRanks s (newLatencyMetric (s.sort (· ≤ ·))) := by
  constructor
  · rintro rfl
    rw [Multiset.sort_zero]
    rfl
  · intro hs q
    have hlength := s.length_sort (· ≤ ·)
    have nonempty : 0 < (s.sort (· ≤ ·)).length := hlength ▸ Multiset.card_pos.mpr hs
    have hrank := q.rank_mem nonempty
    have hindex := q.index_lt nonempty
    have hnearest : nearestRank s.card q.hundredths = q.rank (s.sort (· ≤ ·)).length := by
      rw [nearestRank_eq, hlength]
      rfl
    rw [valueOf_newLatencyMetric nonempty, hnearest]
    refine ⟨by omega, by omega, ?_⟩
    rw [show ((q.rank (s.sort (· ≤ ·)).length : Int) - 1).toNat =
      q.rank (s.sort (· ≤ ·)).length - 1 by omega]
    exact List.getElem?_eq_getElem hindex

/-- The latencies alone are left in one order only. -/
theorem SortsTo.latencies {lag sorted : List LatencyData} (h : SortsTo lag sorted)
    {s : Multiset Int} (hs : (lag.map LatencyData.latency : Multiset Int) = s) :
    sorted.map LatencyData.latency = s.sort (· ≤ ·) := by
  apply eq_sort
  · exact List.pairwise_map.mpr h.ordered
  · rw [← hs, Multiset.coe_eq_coe]
    exact h.perm.map LatencyData.latency

theorem exists_sortsTo (lag : List LatencyData) : ∃ sorted, SortsTo lag sorted := by
  exact ⟨_, List.perm_insertionSort (fun a b => a.latency ≤ b.latency) lag,
    List.pairwise_insertionSort _ lag⟩

section Table
variable {o : ObjectTransitionTimes Phase} {filter : String → Bool}
  {transition : Transition Phase}

variable {entry : String × Map Phase Int}

theorem get_of_entry (h : entry ∈ o.times.entries) (phase : Phase) :
    o.get entry.1 phase = entry.2.get phase := by
  rw [ObjectTransitionTimes.get, Map.get_of_mem h, Option.bind_some]

theorem latencyOf_entry (h : entry ∈ o.times.entries) :
    latencyOf o filter transition entry.1 =
      if filter entry.1 then lag entry.2 transition else none := by
  rw [latencyOf, get_of_entry h, get_of_entry h, lag]
  cases filter entry.1 with
  | false => rfl
  | true =>
    cases entry.2.get transition.start with
    | none => rfl
    | some fromTime =>
      cases entry.2.get transition.stop with
      | none => rfl
      | some toTime =>
        simp only [if_true, sub, minDuration, maxDuration, Option.some_inj]
        omega

variable {order : List (String × Map Phase Int)}

/-- Whatever the order of the table, the loop collects the same latencies. -/
theorem coe_collect (perm : order.Perm o.times.entries) :
    ((collect filter transition order).map LatencyData.latency : Multiset Int) =
      latencies o filter transition := by
  have hcollect : (collect filter transition order).map LatencyData.latency =
      (order.map Prod.fst).filterMap (latencyOf o filter transition) := by
    rw [latency_collect, List.filterMap_map]
    exact List.filterMap_congr fun entry h => (latencyOf_entry (perm.subset h)).symm
  rw [hcollect, latencies, Multiset.filterMap_coe, Multiset.coe_eq_coe]
  exact (perm.map Prod.fst).filterMap _

theorem measures_iff {lagMetric : LatencyMetric} :
    Measures o filter transition lagMetric ↔ lagMetric = metricOf o filter transition := by
  have unique : ∀ {order sorted}, order.Perm o.times.entries →
      SortsTo (collect filter transition order) sorted →
      newLatencyMetric (sorted.map LatencyData.latency) = metricOf o filter transition :=
    fun perm sorts => by rw [sorts.latencies (coe_collect perm), metricOf]
  constructor
  · rintro ⟨order, sorted, perm, sorts, rfl⟩
    exact unique perm sorts
  · rintro rfl
    obtain ⟨sorted, sorts⟩ := exists_sortsTo (collect filter transition o.times.entries)
    exact ⟨_, sorted, .refl _, sorts, (unique (.refl _) sorts).symm⟩

end Table

/-! ## All transitions -/

section Run
variable {o : ObjectTransitionTimes Phase} {filter : String → Bool}
  {left : List (String × Transition Phase)}

/-- The run writes a metric for each transition left and touches no other. -/
theorem Loop.get {metric result : Map String LatencyMetric}
    (run : Loop o filter left metric result) (unique : (left.map Prod.fst).Nodup) :
    (∀ named ∈ left, result.get named.1 = some (metricOf o filter named.2)) ∧
      ∀ name, name ∉ left.map Prod.fst → result.get name = metric.get name := by
  induction run with
  | done => exact ⟨nofun, fun _ _ => rfl⟩
  | next measures _ ih =>
    obtain ⟨fresh, hunique⟩ := List.nodup_cons.mp unique
    obtain ⟨written, kept⟩ := ih hunique
    refine ⟨?_, ?_⟩
    · intro named hnamed
      rcases List.mem_cons.mp hnamed with rfl | hnamed
      · rw [kept _ fresh, Map.get_set, if_pos rfl, measures_iff.mp measures]
      · exact written named hnamed
    · intro other hother
      rw [List.map_cons, List.mem_cons, not_or] at hother
      rw [kept other hother.2, Map.get_set, if_neg hother.1]

theorem exists_loop (o : ObjectTransitionTimes Phase) (filter : String → Bool)
    (left : List (String × Transition Phase)) (metric : Map String LatencyMetric) :
    ∃ result, Loop o filter left metric result := by
  induction left generalizing metric with
  | nil => exact ⟨_, .done⟩
  | cons named left ih =>
    obtain ⟨result, rest⟩ := ih (metric.set named.1 (metricOf o filter named.2))
    exact ⟨result, .next (measures_iff.mpr rfl) rest⟩

end Run

section Result
variable {o : ObjectTransitionTimes Phase} {t : Map String (Transition Phase)}
  {filter : String → Bool}

theorem CalculateTransitionsLatency.get {result : Map String LatencyMetric}
    (h : CalculateTransitionsLatency o t filter result) (name : String) :
    result.get name = (t.get name).map (metricOf o filter) := by
  obtain ⟨order, perm, run⟩ := h
  have hkeys := perm.map Prod.fst
  obtain ⟨written, kept⟩ := run.get (hkeys.nodup_iff.mpr t.unique)
  cases hget : t.get name with
  | none =>
    have absent : name ∉ t.keys := by simp [Map.mem_keys, hget]
    rw [kept name fun h => absent (hkeys.mem_iff.mp h)]
    rfl
  | some transition => exact written (name, transition) (perm.mem_iff.mpr (Map.mem_of_get hget))

theorem exists_calculateTransitionsLatency (o : ObjectTransitionTimes Phase)
    (t : Map String (Transition Phase)) (filter : String → Bool) :
    ∃ result, CalculateTransitionsLatency o t filter result := by
  obtain ⟨result, run⟩ := exists_loop o filter t.entries Store.empty
  exact ⟨result, _, .refl _, run⟩

end Result

/-- Whatever the orders, each transition is reported with the values of the
nearest ranks among the latencies of its keys, and the call does return. -/
theorem transition_latencies_nearest_rank (o : ObjectTransitionTimes Phase)
    (t : Map String (Transition Phase)) (filter : String → Bool) :
    (∃ result, CalculateTransitionsLatency o t filter result) ∧
      ∃ metrics : String → Option LatencyMetric,
        (∀ name, t.get name = none → metrics name = none) ∧
        (∀ name transition, t.get name = some transition →
          ∃ metric, metrics name = some metric ∧
            NearestRanks (latencies o filter transition) metric ∧
              metric.perc50 ≤ metric.perc90 ∧ metric.perc90 ≤ metric.perc99) ∧
        ∀ result, CalculateTransitionsLatency o t filter result →
          ∀ name, result.get name = metrics name := by
  refine ⟨exists_calculateTransitionsLatency o t filter,
    fun name => (t.get name).map (metricOf o filter), ?_, ?_, fun result h => h.get⟩
  · intro name absent
    exact Option.map_eq_none_iff.mpr absent
  · intro name transition present
    have ranks := nearestRanks_sort (latencies o filter transition)
    refine ⟨metricOf o filter transition, ?_, ranks, ranks.mono⟩
    exact congrArg (Option.map (metricOf o filter)) present

/-! ## The function used by the measurements -/

/-- The order in which the maps are gone through does not show in the metrics. -/
theorem calculateTransitionsLatency_eq (o : ObjectTransitionTimes Phase)
    (transitions : List (String × Transition Phase)) (filter : String → Bool) :
    calculateTransitionsLatency o transitions filter =
      transitions.map fun named => (named.1, metricOf o filter named.2) := by
  refine List.map_congr_left fun named _ => ?_
  have hsorted : ((collect filter named.2 o.times.entries).map
      LatencyData.latency).insertionSort (· ≤ ·) = (latencies o filter named.2).sort (· ≤ ·) := by
    apply eq_sort (List.pairwise_insertionSort _ _)
    rw [← coe_collect (.refl _), Multiset.coe_eq_coe]
    exact List.perm_insertionSort _ _
  simp only [hsorted, metricOf]

/-! ## A latency that is cut -/

/-- The second phase begins 2 ^ 63 ns after the first. -/
private def distant : ObjectTransitionTimes Bool :=
  (ObjectTransitionTimes.empty.set "a" false 0).set "a" true (2 ^ 63)

private def onlyTransition : Map String (Transition Bool) :=
  ⟨[("wait", ⟨false, true⟩)], by decide⟩

/-- What is reported is not the difference of the two times. -/
theorem latency_cut : ∃ result metric,
    CalculateTransitionsLatency distant onlyTransition (fun _ => true) result ∧
      distant.get "a" false = some 0 ∧ distant.get "a" true = some (2 ^ 63) ∧
      result.get "wait" = some metric ∧ metric.perc50 = 2 ^ 63 - 1 ∧
      ¬ NearestRanks {max 0 (2 ^ 63 - 0)} metric := by
  obtain ⟨result, h⟩ :=
    exists_calculateTransitionsLatency distant onlyTransition fun _ => true
  have hsame := calculateTransitionsLatency_eq distant [("wait", ⟨false, true⟩)] fun _ => true
  have hcalculated : calculateTransitionsLatency distant [("wait", ⟨false, true⟩)]
      (fun _ => true) = [("wait", ⟨2 ^ 63 - 1, 2 ^ 63 - 1, 2 ^ 63 - 1⟩)] := by decide
  rw [hcalculated] at hsame
  have hmetric := (Prod.mk.inj (List.cons.inj hsame).1).2
  refine ⟨result, _, h, rfl, rfl, (h.get "wait").trans (congrArg some hmetric.symm), rfl, ?_⟩
  intro ranks
  have hvalue := (ranks.ranked (Multiset.singleton_ne_zero _) .perc50).value
  rw [Multiset.sort_singleton] at hvalue
  have := List.mem_singleton.mp (List.mem_of_getElem? hvalue)
  simp [valueOf] at this

end TransitionLatencies
