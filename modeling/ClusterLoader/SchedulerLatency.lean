import Mathlib.Algebra.BigOperators.Group.Finset.Piecewise
import Mathlib.Algebra.Order.BigOperators.Group.Finset
import ClusterLoader.FallibleLoops
import ClusterLoader.Histograms
import Mathlib.Algebra.Ring.Int.Defs

/-!
# Scheduler latency

SchedulingMetrics scrapes the scheduler on `start` and on `gather` and subtracts
the counts of the first scrape from those of the second, bucket by bucket. The
samples of a metric go into one histogram, whatever their labels; only the
extension points have one each.

The bounds of buckets are the values of a linear order that `strconv.ParseFloat`
reads from their labels. What the scheduler answers is given, with the samples
already extracted. The quantiles that a library computes from the buckets, and the
parameters that say where the scheduler is, are left out.
-/

namespace SchedulerLatency

open FallibleLoops KeyedStore Histograms

/-! ## The histograms -/

inductive ExtensionPoint where
  | preFilter
  | filter
  | postFilter
  | preScore
  | score
  | preBind
  | bind
  | postBind
  | reserve
  | unreserve
  | permit
  deriving DecidableEq

def ExtensionPoint.name : ExtensionPoint → String
  | .preFilter => "PreFilter"
  | .filter => "Filter"
  | .postFilter => "PostFilter"
  | .preScore => "PreScore"
  | .score => "Score"
  | .preBind => "PreBind"
  | .bind => "Bind"
  | .postBind => "PostBind"
  | .reserve => "Reserve"
  | .unreserve => "Unreserve"
  | .permit => "Permit"

def extensionPoints : List ExtensionPoint :=
  [.preFilter, .filter, .postFilter, .preScore, .score, .preBind, .bind, .postBind, .reserve,
    .unreserve, .permit]

inductive Kind where
  | e2eSchedulingDuration
  | schedulingAlgorithmDuration
  | preemptionEvaluation
  | frameworkExtensionPointDuration (ePoint : ExtensionPoint)
  deriving DecidableEq

structure LatencyMetrics where
  e2eSchedulingDurationHist : Histogram
  schedulingAlgorithmDurationHist : Histogram
  preemptionEvaluationHist : Histogram
  frameworkExtensionPointDurationHist : ExtensionPoint → Histogram

namespace LatencyMetrics

def hist (m : LatencyMetrics) : Kind → Histogram
  | .e2eSchedulingDuration => m.e2eSchedulingDurationHist
  | .schedulingAlgorithmDuration => m.schedulingAlgorithmDurationHist
  | .preemptionEvaluation => m.preemptionEvaluationHist
  | .frameworkExtensionPointDuration ePoint => m.frameworkExtensionPointDurationHist ePoint

def modify (m : LatencyMetrics) (k : Kind) (f : Histogram → Histogram) : LatencyMetrics :=
  match k with
  | .e2eSchedulingDuration =>
    { m with e2eSchedulingDurationHist := f m.e2eSchedulingDurationHist }
  | .schedulingAlgorithmDuration =>
    { m with schedulingAlgorithmDurationHist := f m.schedulingAlgorithmDurationHist }
  | .preemptionEvaluation => { m with preemptionEvaluationHist := f m.preemptionEvaluationHist }
  | .frameworkExtensionPointDuration ePoint =>
    { m with frameworkExtensionPointDurationHist := fun ep =>
        if ep = ePoint then f (m.frameworkExtensionPointDurationHist ep)
        else m.frameworkExtensionPointDurationHist ep }

theorem hist_modify (m : LatencyMetrics) (k k' : Kind) (f : Histogram → Histogram) :
    (m.modify k f).hist k' = if k' = k then f (m.hist k') else m.hist k' := by
  cases k <;> cases k' <;> simp [hist, modify]

end LatencyMetrics

/-! ## A scrape -/

/-- The histogram that a sample goes into. -/
def kindOf (metric : LabelMap) : Option Kind :=
  let name := (metric.lookup "__name__").getD ""
  if name = "scheduler_pod_scheduling_sli_duration_seconds_bucket" then
    some .e2eSchedulingDuration
  else if name = "scheduler_scheduling_algorithm_duration_seconds_bucket" then
    some .schedulingAlgorithmDuration
  else if name = "scheduler_framework_extension_point_duration_seconds_bucket" then
    let ePoint := (metric.lookup "extension_point").getD ""
    (extensionPoints.find? fun ep => ep.name = ePoint).map .frameworkExtensionPointDuration
  else if name = "scheduler_scheduling_algorithm_preemption_evaluation_seconds_bucket" then
    some .preemptionEvaluation
  else none

def newMetrics : LatencyMetrics :=
  ⟨newHistogram ∅, newHistogram ∅, newHistogram ∅, fun _ => newHistogram ∅⟩

def collect (m : LatencyMetrics) (sample : Sample) : LatencyMetrics :=
  match kindOf sample.metric with
  | none => m
  | some k => m.modify k (convertSampleToHistogram sample)

def getSchedulingMetrics (samples : List Sample) : LatencyMetrics :=
  samples.foldl collect newMetrics

/-! ## The difference of two scrapes -/

/-- A bucket that the initial histogram lacks counts as zero. -/
def histogramSub (finalHist initialHist : Histogram) : Histogram :=
  { finalHist with
    buckets := finalHist.buckets.adjust fun k n =>
      int64 (n - (initialHist.buckets.get k).getD 0) }

/-- Without an initial scrape there is nothing to subtract. -/
def LatencyMetrics.subtract (m : LatencyMetrics) : Option LatencyMetrics → LatencyMetrics
  | none => m
  | some sub =>
    { e2eSchedulingDurationHist :=
        histogramSub m.e2eSchedulingDurationHist sub.e2eSchedulingDurationHist
      schedulingAlgorithmDurationHist :=
        histogramSub m.schedulingAlgorithmDurationHist sub.schedulingAlgorithmDurationHist
      preemptionEvaluationHist :=
        histogramSub m.preemptionEvaluationHist sub.preemptionEvaluationHist
      frameworkExtensionPointDurationHist := fun ep =>
        histogramSub (m.frameworkExtensionPointDurationHist ep)
          (sub.frameworkExtensionPointDurationHist ep) }

theorem hist_subtract (m sub : LatencyMetrics) (k : Kind) :
    (m.subtract (some sub)).hist k = histogramSub (m.hist k) (sub.hist k) := by
  cases k <;> rfl

/-! ## The measurement -/

/-- The histograms in the order in which their quantiles are set. -/
def kinds : List Kind :=
  [.e2eSchedulingDuration, .schedulingAlgorithmDuration] ++
    extensionPoints.map .frameworkExtensionPointDuration ++ [.preemptionEvaluation]

inductive Outcome (B : Type) where
  | failed (err : String)
  | gathered (buckets : List (List (B × Nat)))

section Measurement
variable {B : Type} [LinearOrder B] (parseFloat : String → Except String B)

def setQuantiles (m : LatencyMetrics) : Except String (List (List (B × Nat))) :=
  kinds.mapM fun k => (m.hist k).quantileBuckets parseFloat

def getSchedulingLatency (initialLatency : Option LatencyMetrics)
    (response : Except String (List Sample)) : Outcome B :=
  match response with
  | .error err => .failed err
  | .ok samples =>
    match setQuantiles parseFloat ((getSchedulingMetrics samples).subtract initialLatency) with
    | .error err => .failed err
    | .ok buckets => .gathered buckets

end Measurement

/-! ## Counts by scrape -/

def inBucket (k : Kind) (le : String) (s : Sample) : Bool :=
  kindOf s.metric = some k ∧ s.bucket = le

/-- What a scrape counts in a bucket of a histogram, over all label sets. -/
def total (samples : List Sample) (k : Kind) (le : String) : Int :=
  ((samples.filter (inBucket k le)).map (·.value)).sum

/-- Whether a scrape has the bucket. -/
def HasBucket (samples : List Sample) (k : Kind) (le : String) : Prop :=
  ∃ s ∈ samples, inBucket k le s = true

instance (samples : List Sample) (k : Kind) (le : String) : Decidable (HasBucket samples k le) :=
  inferInstanceAs (Decidable (∃ s ∈ samples, inBucket k le s = true))

theorem get_convertSampleToHistogram (s : Sample) (h : Histogram) (le : String) :
    (convertSampleToHistogram s h).buckets.get le =
      if le = s.bucket then some (int64 ((h.buckets.get le).getD 0 + s.value))
      else h.buckets.get le := by
  change (h.buckets.set _ _).get le = _
  rw [Map.get_set]
  by_cases same : le = s.bucket
  · rw [if_pos same, if_pos same, same]
  · rw [if_neg same, if_neg same]

theorem get_collect (m : LatencyMetrics) (s : Sample) (k : Kind) (le : String) :
    ((collect m s).hist k).buckets.get le =
      if inBucket k le s = true then some (int64 (((m.hist k).buckets.get le).getD 0 + s.value))
      else (m.hist k).buckets.get le := by
  unfold collect
  cases hkind : kindOf s.metric with
  | none => simp [inBucket, hkind]
  | some k' =>
    simp only [LatencyMetrics.hist_modify, inBucket, hkind, Option.some.injEq, decide_eq_true_iff]
    by_cases same : k = k'
    · subst same
      rw [if_pos rfl, get_convertSampleToHistogram]
      simp only [true_and, eq_comm]
    · rw [if_neg same, if_neg fun both => same both.1.symm]

theorem total_cons (s : Sample) (rest : List Sample) (k : Kind) (le : String) :
    total (s :: rest) k le = (if inBucket k le s = true then s.value else 0) + total rest k le := by
  rw [total, List.filter_cons]
  by_cases h : inBucket k le s = true
  · rw [if_pos h, if_pos h, List.map_cons]
    rfl
  · rw [if_neg h, if_neg h, Int.zero_add]
    rfl

variable {le : String}

theorem hasBucket_cons {s : Sample} {rest : List Sample} {k : Kind} :
    HasBucket (s :: rest) k le ↔ inBucket k le s = true ∨ HasBucket rest k le :=
  List.exists_mem_cons_iff ..

variable {samples : List Sample}

theorem total_of_not_hasBucket {k : Kind} (absent : ¬ HasBucket samples k le) :
    total samples k le = 0 := by
  have hnone := List.filter_eq_nil_iff.mpr fun s hs h => absent ⟨s, hs, h⟩
  rw [total, hnone]
  rfl

theorem get_foldl_collect (samples : List Sample) (m : LatencyMetrics) (k : Kind) (le : String) :
    ((samples.foldl collect m).hist k).buckets.get le =
      if HasBucket samples k le then
        some (int64 (((m.hist k).buckets.get le).getD 0 + total samples k le))
      else (m.hist k).buckets.get le := by
  induction samples generalizing m with
  | nil => rfl
  | cons s rest ih =>
    rw [List.foldl_cons, ih, get_collect, total_cons]
    simp only [hasBucket_cons]
    by_cases h : inBucket k le s = true
    · by_cases hrest : HasBucket rest k le
      · simp only [h, hrest, or_self, if_true, Option.getD_some, int64_absorbs, Int.add_assoc]
      · simp only [h, hrest, if_true, if_false, or_false, total_of_not_hasBucket hrest,
          Int.add_zero]
    · simp only [h, Bool.false_eq_true, if_false, false_or, Int.zero_add]

theorem get_getSchedulingMetrics (samples : List Sample) (k : Kind) (le : String) :
    ((getSchedulingMetrics samples).hist k).buckets.get le =
      if HasBucket samples k le then some (int64 (total samples k le)) else none := by
  have hempty : (newMetrics.hist k).buckets.get le = none := by
    cases k <;> rfl
  rw [getSchedulingMetrics, get_foldl_collect, hempty, Option.getD_none, Int.zero_add]

/-- What the scheduler has counted between two scrapes, as the measurement sees it. -/
def difference (initial final : List Sample) : LatencyMetrics :=
  (getSchedulingMetrics final).subtract (some (getSchedulingMetrics initial))

theorem get_difference (initial final : List Sample) (k : Kind) (le : String) :
    ((difference initial final).hist k).buckets.get le =
      if HasBucket final k le then some (int64 (total final k le - total initial k le))
      else none := by
  rw [difference, hist_subtract, histogramSub, Map.get_adjust, get_getSchedulingMetrics,
    get_getSchedulingMetrics]
  by_cases hfinal : HasBucket final k le
  · rw [if_pos hfinal, if_pos hfinal, Option.map_some]
    by_cases hinitial : HasBucket initial k le
    · rw [if_pos hinitial, Option.getD_some, int64_sub_int64]
    · rw [if_neg hinitial, total_of_not_hasBucket hinitial, Option.getD_none, Int.sub_zero,
        Int.sub_zero, int64_int64]
  · rw [if_neg hfinal, if_neg hfinal, Option.map_none]

/-! ## What a histogram has to be -/

section Cumulative
variable {B : Type} [LinearOrder B] (parseFloat : String → Except String B)

/-- The bound of one bucket is at most that of another. -/
def below (le le' : String) : Bool :=
  match parseFloat le, parseFloat le' with
  | .ok b, .ok b' => b ≤ b'
  | _, _ => false

/-- Every key is a bound, and the counts are not negative and do not fall. -/
structure Cumulative (h : Histogram) : Prop where
  bounded : ∀ le n, h.buckets.get le = some n → (parseFloat le).isOk = true
  nonneg : ∀ le n, h.buckets.get le = some n → 0 ≤ n
  mono : ∀ le n le' n', h.buckets.get le = some n → h.buckets.get le' = some n' →
    below parseFloat le le' = true → n ≤ n'

/-- The samples that go into histograms have bounds, and for each label set one count
for a bucket, which is not negative and does not fall. -/
structure Scrape where
  samples : List Sample
  bounded : ∀ s ∈ samples, kindOf s.metric ≠ none → (parseFloat s.bucket).isOk = true
  unique : ((samples.filter fun s => kindOf s.metric ≠ none).map fun s =>
    (s.labels, s.bucket)).Nodup
  nonneg : ∀ s ∈ samples, kindOf s.metric ≠ none → 0 ≤ s.value
  mono : ∀ s ∈ samples, ∀ t ∈ samples, kindOf s.metric ≠ none → s.labels = t.labels →
    below parseFloat s.bucket t.bucket = true → s.value ≤ t.value

/-- Every histogram that is handed to Quantile is one. -/
def StayHistograms (initial final : List Sample) : Prop :=
  ∀ k, Cumulative parseFloat ((difference initial final).hist k)

/-- No bucket of the final scrape and no interval between two of them has lost
observations, all label sets taken together. -/
structure NothingLost (initial final : List Sample) (k : Kind) : Prop where
  bucket : ∀ le, HasBucket final k le → total initial k le ≤ total final k le
  interval : ∀ le le', HasBucket final k le → HasBucket final k le' →
    below parseFloat le le' = true →
      total initial k le' - total initial k le ≤ total final k le' - total final k le

end Cumulative

section
variable {B : Type} [LinearOrder B] {parseFloat : String → Except String B}

theorem below_of_le {le le' : String} {b b' : B} (hb : parseFloat le = .ok b)
    (hb' : parseFloat le' = .ok b') (h : b ≤ b') : below parseFloat le le' = true := by
  rw [below, hb, hb']
  exact decide_eq_true h

/-- What Quantile hands on of such a histogram is in order, by bound and by count. -/
theorem quantileBuckets_cumulative {h : Histogram} (cumulative : Cumulative parseFloat h)
    (fits : ∀ le n, h.buckets.get le = some n → n < 2 ^ 64) :
    ∃ buckets, h.quantileBuckets parseFloat = .ok buckets ∧
      buckets.Pairwise fun b b' => b.1 ≤ b'.1 ∧ b.2 ≤ b'.2 := by
  have hok : ∀ e ∈ h.buckets.entries, ∃ bucket,
      ((parseFloat e.1).map fun upper => (upper, uint64 e.2)) = .ok bucket := by
    intro e he
    have hbounded := cumulative.bounded e.1 e.2 (Map.get_of_mem he)
    cases hb : parseFloat e.1 with
    | error err => rw [hb] at hbounded; cases hbounded
    | ok b => exact ⟨_, rfl⟩
  obtain ⟨buckets, hbuckets⟩ := exists_mapM_ok.mpr hok
  have hentry : ∀ bucket ∈ buckets, ∃ e ∈ h.buckets.entries,
      parseFloat e.1 = .ok bucket.1 ∧ (bucket.2 : Int) = e.2 := by
    intro bucket hbucket
    obtain ⟨e, he, heq⟩ := (mem_of_mapM_ok hbuckets).mp hbucket
    have hget := Map.get_of_mem he
    cases hb : parseFloat e.1 with
    | error err => rw [hb] at heq; cases heq
    | ok b =>
      rw [hb] at heq
      obtain rfl := Except.ok.inj heq
      exact ⟨e, he, hb, uint64_of_nonneg (cumulative.nonneg _ _ hget) (fits _ _ hget)⟩
  refine ⟨buckets.mergeSort fun b b' => b.1 ≤ b'.1, ?_, ?_⟩
  · rw [Histogram.quantileBuckets, hbuckets]
    rfl
  · have hsorted : (buckets.mergeSort fun b b' => b.1 ≤ b'.1).Pairwise fun b b' =>
        decide (b.1 ≤ b'.1) = true :=
      List.pairwise_mergeSort
        (fun a b c hab hbc => decide_eq_true
          ((of_decide_eq_true hab).trans (of_decide_eq_true hbc)))
        (fun a b => by simpa using le_total a.1 b.1) buckets
    refine hsorted.imp_of_mem fun {b b'} hb hb' hle => ?_
    obtain ⟨e, he, hparse, hcount⟩ := hentry b (List.mem_mergeSort.mp hb)
    obtain ⟨e', he', hparse', hcount'⟩ := hentry b' (List.mem_mergeSort.mp hb')
    have hmono := cumulative.mono _ _ _ _ (Map.get_of_mem he) (Map.get_of_mem he')
      (below_of_le hparse hparse' (of_decide_eq_true hle))
    exact ⟨of_decide_eq_true hle, by omega⟩

theorem get_difference_eq_some {initial final : List Sample} {k : Kind} {n : Int} :
    ((difference initial final).hist k).buckets.get le = some n ↔
      HasBucket final k le ∧ int64 (total final k le - total initial k le) = n := by
  rw [get_difference]
  by_cases h : HasBucket final k le
  · rw [if_pos h, Option.some.injEq]
    exact (and_iff_right h).symm
  · rw [if_neg h]
    exact ⟨nofun, fun both => absurd both.1 h⟩

theorem Scrape.total_nonneg (scrape : Scrape parseFloat) (k : Kind) (le : String) :
    0 ≤ total scrape.samples k le := by
  refine List.sum_nonneg fun n hn => ?_
  obtain ⟨s, hs, rfl⟩ := List.mem_map.mp hn
  obtain ⟨hs, hin⟩ := List.mem_filter.mp hs
  exact scrape.nonneg s hs (by rw [(of_decide_eq_true hin).1]; nofun)

variable {initial final : Scrape parseFloat}

/-- What is left of a bucket does not wrap around. -/
theorem stayHistograms_of_nothingLost
    (lost : ∀ k, NothingLost parseFloat initial.samples final.samples k)
    (fits : ∀ k le, total final.samples k le < 2 ^ 63) :
    StayHistograms parseFloat initial.samples final.samples := by
  intro k
  have left : ∀ le n, ((difference initial.samples final.samples).hist k).buckets.get le = some n →
      HasBucket final.samples k le ∧
        n = total final.samples k le - total initial.samples k le := by
    intro le n hn
    obtain ⟨has, rfl⟩ := get_difference_eq_some.mp hn
    have hbucket := (lost k).bucket le has
    have hinitial := initial.total_nonneg k le
    have hfinal := fits k le
    exact ⟨has, int64_of_fits (by omega) (by omega)⟩
  refine ⟨fun le n hn => ?_, fun le n hn => ?_, fun le n le' n' hn hn' hbelow => ?_⟩
  · obtain ⟨⟨s, hs, hin⟩, _⟩ := left le n hn
    obtain ⟨hkind, rfl⟩ := of_decide_eq_true hin
    exact final.bounded s hs (by rw [hkind]; nofun)
  · obtain ⟨has, rfl⟩ := left le n hn
    have := (lost k).bucket le has
    omega
  · obtain ⟨has, rfl⟩ := left le n hn
    obtain ⟨has', rfl⟩ := left le' n' hn'
    have := (lost k).interval le le' has has' hbelow
    omega

/-- Where the differences are histograms a gather succeeds, and all that it hands on is
in order, by bound and by count. -/
theorem gathered_in_order {initial final : List Sample}
    (stay : StayHistograms parseFloat initial final) :
    ∃ buckets, getSchedulingLatency parseFloat (some (getSchedulingMetrics initial)) (.ok final) =
        .gathered buckets ∧
      ∀ hist ∈ buckets, hist.Pairwise fun b b' => b.1 ≤ b'.1 ∧ b.2 ≤ b'.2 := by
  have hquantile : ∀ k, ∃ hist,
      ((difference initial final).hist k).quantileBuckets parseFloat = .ok hist ∧
        hist.Pairwise fun b b' => b.1 ≤ b'.1 ∧ b.2 ≤ b'.2 := by
    intro k
    refine quantileBuckets_cumulative (stay k) fun le n hn => ?_
    obtain ⟨_, rfl⟩ := get_difference_eq_some.mp hn
    exact (int64_bounds _).2.trans (by decide)
  have hok : ∀ k ∈ kinds, ∃ hist,
      ((difference initial final).hist k).quantileBuckets parseFloat = .ok hist := by
    intro k _
    obtain ⟨hist, hhist, _⟩ := hquantile k
    exact ⟨hist, hhist⟩
  obtain ⟨buckets, hbuckets⟩ := exists_mapM_ok.mpr hok
  have hset : setQuantiles parseFloat (difference initial final) = .ok buckets := hbuckets
  refine ⟨buckets, ?_, fun hist hhist => ?_⟩
  · rw [difference] at hset
    simp only [getSchedulingLatency, hset]
  · obtain ⟨k, _, hk⟩ := (mem_of_mapM_ok hbuckets).mp hhist
    obtain ⟨hist', hhist', sorted⟩ := hquantile k
    obtain rfl := Except.ok.inj (hk.symm.trans hhist')
    exact sorted

/-! ## A scheduler that kept running -/

/-- What a scrape counts in a bucket for one label set. -/
def countOf (samples : List Sample) (labels : LabelMap) (le : String) : Int :=
  ((samples.filter fun s => (s.labels, s.bucket) = (labels, le)).map (·.value)).sum

/-- The label sets of the initial scrape have lost nothing, and those that are new
have all the buckets of their histogram. -/
structure KeptRunning (initial final : Scrape parseFloat) : Prop where
  bucket : ∀ s ∈ initial.samples, ∀ t ∈ final.samples, kindOf s.metric ≠ none →
    kindOf t.metric = kindOf s.metric →
      countOf initial.samples s.labels t.bucket ≤ countOf final.samples s.labels t.bucket
  interval : ∀ s ∈ initial.samples, ∀ t ∈ final.samples, ∀ u ∈ final.samples,
    kindOf s.metric ≠ none → kindOf t.metric = kindOf s.metric →
    kindOf u.metric = kindOf s.metric → below parseFloat t.bucket u.bucket = true →
      countOf initial.samples s.labels u.bucket - countOf initial.samples s.labels t.bucket ≤
        countOf final.samples s.labels u.bucket - countOf final.samples s.labels t.bucket
  complete : ∀ s ∈ final.samples, ∀ u ∈ final.samples, kindOf s.metric ≠ none →
    kindOf u.metric = kindOf s.metric → (∀ t ∈ initial.samples, t.labels ≠ s.labels) →
      ∃ t ∈ final.samples, t.labels = s.labels ∧ t.bucket = u.bucket

theorem kindOf_labels (s : Sample) : kindOf s.labels = kindOf s.metric := by
  have hname : s.labels.lookup "__name__" = s.metric.lookup "__name__" :=
    Finmap.lookup_erase_ne (by decide)
  have hpoint : s.labels.lookup "extension_point" = s.metric.lookup "extension_point" :=
    Finmap.lookup_erase_ne (by decide)
  simp only [kindOf, hname, hpoint]

theorem countOf_cons (s : Sample) (rest : List Sample) (labels : LabelMap) (le : String) :
    countOf (s :: rest) labels le =
      (if (s.labels, s.bucket) = (labels, le) then s.value else 0) + countOf rest labels le := by
  rw [countOf, List.filter_cons]
  by_cases h : (s.labels, s.bucket) = (labels, le)
  · rw [if_pos (decide_eq_true h), if_pos h, List.map_cons]
    rfl
  · rw [if_neg fun hd => h (of_decide_eq_true hd), if_neg h, Int.zero_add]
    rfl

/-- The count of a bucket is the sum over the label sets. -/
theorem total_eq_sum {k : Kind} {sets : Finset LabelMap}
    (all : ∀ s ∈ samples, kindOf s.metric = some k → s.labels ∈ sets)
    (only : ∀ labels ∈ sets, kindOf labels = some k) (le : String) :
    total samples k le = ∑ labels ∈ sets, countOf samples labels le := by
  induction samples with
  | nil => exact (Finset.sum_eq_zero fun _ _ => rfl).symm
  | cons s rest ih =>
    have hrest := ih fun t ht => all t (List.mem_cons_of_mem s ht)
    simp only [countOf_cons, Finset.sum_add_distrib, total_cons]
    congr 1
    -- Of the label sets only that of the sample gets its value.
    by_cases h : inBucket k le s = true
    · obtain ⟨hkind, rfl⟩ := of_decide_eq_true h
      have hmem := all s List.mem_cons_self hkind
      simp only [if_pos h, Prod.mk.injEq, and_true, Finset.sum_ite_eq, if_pos hmem]
    · rw [if_neg h]
      refine (Finset.sum_eq_zero fun labels hlabels => if_neg fun heq => h ?_).symm
      obtain ⟨rfl, rfl⟩ := Prod.mk.inj heq
      exact decide_eq_true ⟨(kindOf_labels s).symm.trans (only _ hlabels), rfl⟩

theorem countOf_of_mem {scrape : Scrape parseFloat} {s : Sample} (hs : s ∈ scrape.samples)
    (hkind : kindOf s.metric ≠ none) :
    countOf scrape.samples s.labels s.bucket = s.value := by
  have hfilter : (scrape.samples.filter fun t => (t.labels, t.bucket) = (s.labels, s.bucket)) =
      (scrape.samples.filter fun t => kindOf t.metric ≠ none).filter fun t =>
        (t.labels, t.bucket) = (s.labels, s.bucket) := by
    rw [List.filter_filter]
    refine List.filter_congr fun t _ => ?_
    by_cases same : (t.labels, t.bucket) = (s.labels, s.bucket)
    · have hkindt : kindOf t.metric ≠ none := by
        rwa [← kindOf_labels, (Prod.mk.inj same).1, kindOf_labels]
      simp [hkindt]
    · simp [same]
  have hmem : s ∈ scrape.samples.filter fun t => kindOf t.metric ≠ none :=
    List.mem_filter.mpr ⟨hs, decide_eq_true hkind⟩
  have hfind := (Store.find?_key_eq_some scrape.unique).mpr ⟨hmem, rfl⟩
  rw [countOf, hfilter, Store.filter_key scrape.unique, hfind]
  simp

theorem countOf_of_absent {labels : LabelMap} (absent : ∀ s ∈ samples, s.labels ≠ labels) :
    countOf samples labels le = 0 := by
  have hnone : (samples.filter fun s => (s.labels, s.bucket) = (labels, le)) = [] :=
    List.filter_eq_nil_iff.mpr fun s hs h => absent s hs (Prod.mk.inj (of_decide_eq_true h)).1
  rw [countOf, hnone]
  rfl

section
variable {initial final : Scrape parseFloat} (kept : KeptRunning initial final) {k : Kind}
  {labels : LabelMap} (hkind : kindOf labels = some k)
  (occurs : ∃ s ∈ initial.samples ++ final.samples, s.labels = labels)

include kept hkind occurs

/-- One label set has lost nothing, be it an old one or a new one. -/
theorem countOf_kept :
    (∀ le, HasBucket final.samples k le →
      countOf initial.samples labels le ≤ countOf final.samples labels le) ∧
    (∀ le le', HasBucket final.samples k le → HasBucket final.samples k le' →
      below parseFloat le le' = true →
        countOf initial.samples labels le' - countOf initial.samples labels le ≤
          countOf final.samples labels le' - countOf final.samples labels le) := by
  by_cases old : ∃ s ∈ initial.samples, s.labels = labels
  · obtain ⟨s, hs, rfl⟩ := old
    have hmetric := (kindOf_labels s).symm.trans hkind
    have hsome : kindOf s.metric ≠ none := by rw [hmetric]; nofun
    refine ⟨?_, ?_⟩
    · rintro le ⟨t, ht, hin⟩
      obtain ⟨hkindt, rfl⟩ := of_decide_eq_true hin
      exact kept.bucket s hs t ht hsome (hkindt.trans hmetric.symm)
    · rintro le le' ⟨t, ht, hin⟩ ⟨u, hu, hin'⟩
      obtain ⟨hkindt, rfl⟩ := of_decide_eq_true hin
      obtain ⟨hkindu, rfl⟩ := of_decide_eq_true hin'
      exact kept.interval s hs t ht u hu hsome (hkindt.trans hmetric.symm)
        (hkindu.trans hmetric.symm)
  · have absent : ∀ t ∈ initial.samples, t.labels ≠ labels := fun t ht h => old ⟨t, ht, h⟩
    obtain ⟨s, hs, rfl⟩ := occurs
    have hfinal : s ∈ final.samples :=
      (List.mem_append.mp hs).resolve_left fun h => absent s h rfl
    have hcount : ∀ le, HasBucket final.samples k le → ∃ t ∈ final.samples,
        kindOf t.metric ≠ none ∧ t.labels = s.labels ∧ t.bucket = le ∧
          countOf final.samples s.labels le = t.value := by
      rintro le ⟨u, hu, hin⟩
      obtain ⟨hkindu, rfl⟩ := of_decide_eq_true hin
      have hmetric := (kindOf_labels s).symm.trans hkind
      obtain ⟨t, ht, hlabels, hbucket⟩ := kept.complete s hfinal u hu (by rw [hmetric]; nofun)
        (hkindu.trans hmetric.symm) absent
      have hkindt : kindOf t.metric ≠ none := by
        rw [← kindOf_labels, hlabels, hkind]
        nofun
      exact ⟨t, ht, hkindt, hlabels, hbucket, hbucket ▸ hlabels ▸ countOf_of_mem ht hkindt⟩
    constructor
    · intro le has
      obtain ⟨t, ht, hkindt, -, -, hvalue⟩ := hcount le has
      rw [countOf_of_absent absent, hvalue]
      exact final.nonneg t ht hkindt
    · intro le le' has has' hbelow
      obtain ⟨t, ht, hkindt, hlabels, rfl, hvalue⟩ := hcount le has
      obtain ⟨t', ht', -, hlabels', rfl, hvalue'⟩ := hcount le' has'
      have hmono := final.mono t ht t' ht' hkindt (hlabels.trans hlabels'.symm) hbelow
      rw [countOf_of_absent absent, countOf_of_absent absent]
      omega

end

theorem nothingLost_of_keptRunning (kept : KeptRunning initial final) (k : Kind) :
    NothingLost parseFloat initial.samples final.samples k := by
  let sets : Finset LabelMap := (((initial.samples ++ final.samples).filter fun s =>
    kindOf s.metric = some k).map (·.labels)).toFinset
  have hsets : ∀ labels, labels ∈ sets ↔ ∃ s ∈ initial.samples ++ final.samples,
      kindOf s.metric = some k ∧ s.labels = labels := by
    intro labels
    simp only [sets, List.mem_toFinset, List.mem_map, List.mem_filter, decide_eq_true_iff,
      and_assoc]
  have only : ∀ labels ∈ sets, kindOf labels = some k := by
    intro labels hlabels
    obtain ⟨s, _, hkind, rfl⟩ := (hsets labels).mp hlabels
    exact (kindOf_labels s).trans hkind
  have occurs : ∀ labels ∈ sets, ∃ s ∈ initial.samples ++ final.samples, s.labels = labels := by
    intro labels hlabels
    obtain ⟨s, hs, _, h⟩ := (hsets labels).mp hlabels
    exact ⟨s, hs, h⟩
  have hinitial := @total_eq_sum initial.samples k sets
    (fun s hs hkind => (hsets _).mpr ⟨s, List.mem_append_left _ hs, hkind, rfl⟩) only
  have hfinal := @total_eq_sum final.samples k sets
    (fun s hs hkind => (hsets _).mpr ⟨s, List.mem_append_right _ hs, hkind, rfl⟩) only
  constructor
  · intro le has
    rw [hinitial, hfinal]
    exact Finset.sum_le_sum fun labels h =>
      (countOf_kept kept (only labels h) (occurs labels h)).1 le has
  · intro le le' has has' hbelow
    rw [hinitial, hinitial, hfinal, hfinal, ← Finset.sum_sub_distrib, ← Finset.sum_sub_distrib]
    exact Finset.sum_le_sum fun labels h =>
      (countOf_kept kept (only labels h) (occurs labels h)).2 le le' has has' hbelow

end

def twoBounds : String → Except String Nat
  | "1" => .ok 0
  | "+Inf" => .ok 1
  | _ => .error "invalid syntax"

def e2eSample (result le : String) (value : Int) : Sample :=
  ⟨[⟨"__name__", "scheduler_pod_scheduling_sli_duration_seconds_bucket"⟩, ⟨"result", result⟩,
    ⟨"le", le⟩].toFinmap, value⟩

def running : Scrape twoBounds where
  samples := [e2eSample "scheduled" "1" 5, e2eSample "scheduled" "+Inf" 10]
  bounded := by decide +kernel
  unique := by decide +kernel
  nonneg := by decide +kernel
  mono := by decide +kernel

/-- Later the scheduler has counted more, and has a second label set. -/
def continued : Scrape twoBounds where
  samples := [e2eSample "scheduled" "1" 7, e2eSample "scheduled" "+Inf" 13,
    e2eSample "error" "1" 0, e2eSample "error" "+Inf" 2]
  bounded := by decide +kernel
  unique := by decide +kernel
  nonneg := by decide +kernel
  mono := by decide +kernel

theorem keptRunning_continued : KeptRunning running continued :=
  ⟨by decide +kernel, by decide +kernel, by decide +kernel⟩

/-- A bucket never counts more than all samples together. -/
theorem total_lt_of_sum (nonneg : ∀ s ∈ samples, 0 ≤ s.value)
    (sum : (samples.map (·.value)).sum < 2 ^ 63) (k : Kind) (le : String) :
    total samples k le < 2 ^ 63 := by
  refine lt_of_le_of_lt ?_ sum
  refine (List.filter_sublist.map _).sum_le_sum fun n hn => ?_
  obtain ⟨s, hs, rfl⟩ := List.mem_map.mp hn
  exact nonneg s hs

theorem fits_continued : ∀ k le, total continued.samples k le < 2 ^ 63 :=
  total_lt_of_sum (by decide +kernel) (by decide +kernel)

theorem gathered_in_order_continued : ∃ buckets,
    getSchedulingLatency twoBounds (some (getSchedulingMetrics running.samples))
        (.ok continued.samples) = .gathered buckets ∧
      ∀ hist ∈ buckets, hist.Pairwise fun b b' => b.1 ≤ b'.1 ∧ b.2 ≤ b'.2 :=
  gathered_in_order (stayHistograms_of_nothingLost
    (nothingLost_of_keptRunning keptRunning_continued) fits_continued)

end SchedulerLatency
