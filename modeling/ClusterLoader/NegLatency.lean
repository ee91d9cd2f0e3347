import Mathlib.Data.List.Induction
import ClusterLoader.QueryWindows

/-!
# SLOs of the NEG latencies

For each of three metrics the samples of all windows are put into one map by
bucket, and the events in the SLO's bucket are compared with all events. What a
later window returns for a bucket replaces what an earlier one returned.

Percentages are exact rationals. The text of a bucket's bound comes from
`strconv.FormatFloat` and is left open. A parameter that is not set, cannot be
read or is zero is replaced by its default. Log output is left out.
-/

namespace NegLatency

open KeyedStore QueryWindows

inductive Param where
  | absent
  | invalid
  | value (x : ℚ)

abbrev Params := String → Param

/-- `GetFloat64OrDefault` and the test behind it. -/
def Param.orDefault (default : ℚ) : Param → ℚ
  | absent => default
  | invalid => default
  | value x => if x = 0 then default else x

/-- Buckets by metric. -/
abbrev NegLatencyMetricMap := Map String (Map String Int)

/-- The bucket counts of a metric, where what is not there counts as zero. -/
def count (result : NegLatencyMetricMap) (metricName bucket : String) : Int :=
  ((result.get metricName).bind (·.get bucket)).getD 0

/-! ## Gathering -/

def addSample (metricName : String) (result : NegLatencyMetricMap) (sample : Sample) :
    NegLatencyMetricMap :=
  result.set metricName
    (((result.get metricName).getD Store.empty).set sample.le sample.value)

section
variable (answers : NegMetric → Answers) (startTime endTime : Int) (fuel : Nat)

def gatherAndProcessSamples (metric : NegMetric) (result : NegLatencyMetricMap) :
    Option NegLatencyMetricMap :=
  (negQueries metric (answers metric) startTime endTime fuel).map fun r =>
    r.2.foldl (addSample metric.name) result

def gatherMetrics : Option NegLatencyMetricMap := do
  let result ← gatherAndProcessSamples answers startTime endTime fuel .initialization Store.empty
  let result ← gatherAndProcessSamples answers startTime endTime fuel .attachEndpoint result
  gatherAndProcessSamples answers startTime endTime fuel .detachEndpoint result

end

/-! ## The verdict -/

/-- The parts of the message of a violation. -/
structure Violation where
  metricName : String
  bucketSLO : String
  within : Int
  expected : Int
  buckets : Map String Int

structure SLO where
  metricName : String
  bucketName : String
  percentileName : String
  defaultBucketSLO : ℚ
  defaultPercentileSLO : ℚ

def slo (metric : NegMetric) : SLO :=
  match metric with
  | .initialization => ⟨metric.name, "negInitBucketSLO", "negInitPercentileSLO", 16, 95⟩
  | .attachEndpoint => ⟨metric.name, "negAttachBucketSLO", "negAttachPercentileSLO", 64, 95⟩
  | .detachEndpoint => ⟨metric.name, "negDetachBucketSLO", "negDetachPercentileSLO", 32, 95⟩

section
variable (formatFloat : ℚ → String) (params : Params)

def SLO.bucket (s : SLO) : String :=
  formatFloat ((params s.bucketName).orDefault s.defaultBucketSLO)

def SLO.percentile (s : SLO) : ℚ :=
  (params s.percentileName).orDefault s.defaultPercentileSLO

def validateNegSLO (result : NegLatencyMetricMap) (s : SLO) : Option Violation :=
  match result.get s.metricName with
  | none => none
  | some buckets =>
    let totalEvents := (buckets.get "+Inf").getD 0
    if totalEvents ≠ 0 then
      let acceptedEvents := (buckets.get (s.bucket formatFloat params)).getD 0
      let perc : ℚ := acceptedEvents / totalEvents * 100
      if perc < s.percentile params then
        some ⟨s.metricName, s.bucket formatFloat params, ⌊perc⌋, ⌊s.percentile params⌋, buckets⟩
      else none
    else none

def validateNegSLOs (result : NegLatencyMetricMap) : Option Violation :=
  match validateNegSLO formatFloat params result (slo .initialization) with
  | some err => some err
  | none =>
    match validateNegSLO formatFloat params result (slo .attachEndpoint) with
    | some err => some err
    | none => validateNegSLO formatFloat params result (slo .detachEndpoint)

def gather (answers : NegMetric → Answers) (startTime endTime : Int) (fuel : Nat) :
    Option (NegLatencyMetricMap × Option Violation) :=
  (gatherMetrics answers startTime endTime fuel).map fun negMetrics =>
    (negMetrics, validateNegSLOs formatFloat params negMetrics)

end

/-! ## What the map holds -/

/-- The values the samples bring for a bucket, in their order. -/
def valuesFor (samples : List Sample) (bucket : String) : List Int :=
  (samples.filter fun s => s.le = bucket).map Sample.value

theorem valuesFor_concat (samples : List Sample) (s : Sample) (bucket : String) :
    valuesFor (samples ++ [s]) bucket =
      valuesFor samples bucket ++ if s.le = bucket then [s.value] else [] := by
  by_cases same : s.le = bucket
  · simp [valuesFor, same]
  · simp [valuesFor, same]

variable (metricName : String)

theorem get_addSample (result : NegLatencyMetricMap) (s : Sample) (metricName' : String) :
    (addSample metricName result s).get metricName' =
      if metricName' = metricName then
        some (((result.get metricName).getD Store.empty).set s.le s.value)
      else result.get metricName' := Map.get_set ..

theorem count_addSample (result : NegLatencyMetricMap) (s : Sample) (bucket : String) :
    count (addSample metricName result s) metricName bucket =
      if bucket = s.le then s.value else count result metricName bucket := by
  rw [count, get_addSample, if_pos rfl, Option.bind_some, Map.get_set]
  by_cases same : bucket = s.le
  · rw [if_pos same, if_pos same]
    rfl
  · rw [if_neg same, if_neg same, count]
    cases result.get metricName <;> rfl

/-- Of several samples for a bucket the last one is kept. -/
theorem count_foldl (result : NegLatencyMetricMap) (samples : List Sample) (bucket : String) :
    count (samples.foldl (addSample metricName) result) metricName bucket =
      (valuesFor samples bucket).getLast?.getD (count result metricName bucket) := by
  induction samples using List.reverseRecOn with
  | nil => rfl
  | append_singleton samples s ih =>
    rw [List.foldl_append, List.foldl_cons, List.foldl_nil, count_addSample, valuesFor_concat]
    by_cases same : s.le = bucket
    · rw [if_pos same.symm, if_pos same, List.getLast?_concat]
      rfl
    · rw [if_neg (Ne.symm same), if_neg same, List.append_nil, ih]

variable {metricName metricName' : String}

/-- No other metric is touched. -/
theorem get_foldl_of_ne (hne : metricName' ≠ metricName) (result : NegLatencyMetricMap)
    (samples : List Sample) :
    (samples.foldl (addSample metricName) result).get metricName' = result.get metricName' := by
  induction samples generalizing result with
  | nil => rfl
  | cons s samples ih => rw [List.foldl_cons, ih, get_addSample, if_neg hne]

theorem count_foldl_of_ne (hne : metricName' ≠ metricName) (result : NegLatencyMetricMap)
    (samples : List Sample) (bucket : String) :
    count (samples.foldl (addSample metricName) result) metricName' bucket =
      count result metricName' bucket := by
  rw [count, get_foldl_of_ne hne, count]

def windowCount (startTime endTime : Int) : Nat :=
  (max 1 ⌈((endTime - startTime : Int) : ℚ) / (queryInterval : Int)⌉).toNat

section Gathered
variable (answers : NegMetric → Answers) {startTime endTime : Int} {fuel : Nat}

/-- The samples of all windows of the measurement. -/
def samplesOf (startTime endTime : Int) (metric : NegMetric) : List Sample :=
  answered (answers metric) 0 (windowCount startTime endTime)

theorem gatherAndProcessSamples_eq (h : startTime ≤ endTime)
    (enough : windowCount startTime endTime ≤ fuel) (metric : NegMetric)
    (result : NegLatencyMetricMap) :
    gatherAndProcessSamples answers startTime endTime fuel metric result =
      some ((samplesOf answers startTime endTime metric).foldl (addSample metric.name) result) := by
  obtain ⟨queries, covers, returns⟩ :=
    queryLoop_covers metric.query (answers metric) h
  have hnumber : queries.length = windowCount startTime endTime := by
    rw [windowCount, ← covers.number, Int.toNat_natCast]
  rw [hnumber] at returns
  have hqueries : negQueries metric (answers metric) startTime endTime fuel =
      some (queries, samplesOf answers startTime endTime metric) := returns fuel enough
  rw [gatherAndProcessSamples, hqueries]
  rfl

/-- The map is filled metric by metric and holds for each bucket its last value. -/
theorem gatherMetrics_spec (h : startTime ≤ endTime)
    (enough : windowCount startTime endTime ≤ fuel) :
    ∃ result, gatherMetrics answers startTime endTime fuel = some result ∧
      ∀ metric bucket, count result (NegMetric.name metric) bucket =
        (valuesFor (samplesOf answers startTime endTime metric) bucket).getLast?.getD 0 := by
  have hgather : gatherMetrics answers startTime endTime fuel =
      some ((samplesOf answers startTime endTime .detachEndpoint).foldl
        (addSample (NegMetric.name .detachEndpoint))
        ((samplesOf answers startTime endTime .attachEndpoint).foldl
          (addSample (NegMetric.name .attachEndpoint))
          ((samplesOf answers startTime endTime .initialization).foldl
            (addSample (NegMetric.name .initialization)) Store.empty))) := by
    rw [gatherMetrics, gatherAndProcessSamples_eq answers h enough, Option.bind_eq_bind,
      Option.bind_some, gatherAndProcessSamples_eq answers h enough, Option.bind_some,
      gatherAndProcessSamples_eq answers h enough]
  refine ⟨_, hgather, ?_⟩
  intro metric bucket
  cases metric with
  | initialization =>
    rw [count_foldl_of_ne (by decide), count_foldl_of_ne (by decide), count_foldl]
    rfl
  | attachEndpoint =>
    rw [count_foldl_of_ne (by decide), count_foldl, count_foldl_of_ne (by decide)]
    rfl
  | detachEndpoint =>
    rw [count_foldl, count_foldl_of_ne (by decide), count_foldl_of_ne (by decide)]
    rfl

end Gathered

/-! ## What the verdict says -/

/-- The accepted events are below the required percentage of all events. -/
def Below (percentile : ℚ) (accepted total : Int) : Prop :=
  total ≠ 0 ∧ (accepted : ℚ) / total * 100 < percentile

section Verdict
variable (formatFloat : ℚ → String) (params : Params) (result : NegLatencyMetricMap)

theorem validateNegSLO_isSome (s : SLO) :
    (validateNegSLO formatFloat params result s).isSome = true ↔
      Below (s.percentile params) (count result s.metricName (s.bucket formatFloat params))
        (count result s.metricName "+Inf") := by
  unfold validateNegSLO Below count
  cases result.get s.metricName with
  | none => simp
  | some buckets =>
    simp only [Option.bind_some]
    split_ifs with htotal hbelow
    · simp [htotal, hbelow]
    · simp [hbelow]
    · simp only [Option.isSome_none, Bool.false_eq_true, false_iff]
      intro h
      exact htotal h.1

theorem validateNegSLOs_isSome :
    (validateNegSLOs formatFloat params result).isSome = true ↔
      ∃ metric, (validateNegSLO formatFloat params result (slo metric)).isSome = true := by
  constructor
  · intro h
    unfold validateNegSLOs at h
    cases hinit : validateNegSLO formatFloat params result (slo .initialization) with
    | some err => exact ⟨.initialization, by rw [hinit]; rfl⟩
    | none =>
      cases hattach : validateNegSLO formatFloat params result (slo .attachEndpoint) with
      | some err => exact ⟨.attachEndpoint, by rw [hattach]; rfl⟩
      | none =>
        simp only [hinit, hattach] at h
        exact ⟨.detachEndpoint, h⟩
  · rintro ⟨metric, h⟩
    unfold validateNegSLOs
    cases hinit : validateNegSLO formatFloat params result (slo .initialization) with
    | some err => rfl
    | none =>
      cases hattach : validateNegSLO formatFloat params result (slo .attachEndpoint) with
      | some err => rfl
      | none =>
        cases metric with
        | initialization => rw [hinit] at h; cases h
        | attachEndpoint => rw [hattach] at h; cases h
        | detachEndpoint => exact h

end Verdict

/-! ## The whole test -/

section Whole
variable (formatFloat : ℚ → String) (params : Params) (answers : NegMetric → Answers)
  (startTime endTime : Int)

/-- The events in a bucket over all windows. -/
def events (metric : NegMetric) (bucket : String) : Int :=
  (valuesFor (samplesOf answers startTime endTime metric) bucket).sum

/-- The metric misses its SLO over the whole measurement. -/
def Violated (metric : NegMetric) : Prop :=
  Below ((slo metric).percentile params)
    (events answers startTime endTime metric ((slo metric).bucket formatFloat params))
    (events answers startTime endTime metric "+Inf")

/-- gather returns, its counts are sums over all windows, and each verdict and the
outcome are those of the whole measurement. -/
def JudgesWhole : Prop :=
  ∀ fuel, windowCount startTime endTime ≤ fuel →
    ∃ result, gather formatFloat params answers startTime endTime fuel =
        some (result, validateNegSLOs formatFloat params result) ∧
      (∀ metric bucket, count result (NegMetric.name metric) bucket =
        events answers startTime endTime metric bucket) ∧
      (∀ metric, (validateNegSLO formatFloat params result (slo metric)).isSome = true ↔
        Violated formatFloat params answers startTime endTime metric) ∧
      ((validateNegSLOs formatFloat params result).isSome = true ↔
        ∃ metric, Violated formatFloat params answers startTime endTime metric)

/-- What a bucket was given before its last sample adds up to nothing. -/
def LastDecides : Prop :=
  ∀ metric bucket,
    (valuesFor (samplesOf answers startTime endTime metric) bucket).dropLast.sum = 0

end Whole

/-- The last of some numbers is their sum exactly if the others add up to zero. -/
theorem getLast_eq_sum_iff (xs : List Int) :
    xs.getLast?.getD 0 = xs.sum ↔ xs.dropLast.sum = 0 := by
  induction xs using List.reverseRecOn with
  | nil => exact Iff.rfl
  | append_singleton xs x _ =>
    rw [List.getLast?_concat, List.dropLast_concat, List.sum_append, List.sum_singleton,
      Option.getD_some]
    omega

/-- The SLOs judge the whole measurement exactly if no bucket was given anything
before its last sample. -/
theorem judgesWhole_iff (formatFloat : ℚ → String) (params : Params)
    (answers : NegMetric → Answers) (startTime endTime : Int) (h : startTime ≤ endTime) :
    JudgesWhole formatFloat params answers startTime endTime ↔
      LastDecides answers startTime endTime := by
  constructor
  · intro judges metric bucket
    obtain ⟨result, hgather, counts, -, -⟩ := judges _ (Nat.le_refl _)
    obtain ⟨result', hresult', last⟩ := gatherMetrics_spec answers h (Nat.le_refl _)
    rw [gather, hresult'] at hgather
    cases hgather
    rw [← getLast_eq_sum_iff, ← last]
    exact counts metric bucket
  · intro decides fuel enough
    obtain ⟨result, hresult, last⟩ := gatherMetrics_spec answers h enough
    have counts : ∀ metric bucket, count result (NegMetric.name metric) bucket =
        events answers startTime endTime metric bucket := by
      intro metric bucket
      rw [last]
      exact (getLast_eq_sum_iff _).mpr (decides metric bucket)
    have verdicts : ∀ metric,
        (validateNegSLO formatFloat params result (slo metric)).isSome = true ↔
          Violated formatFloat params answers startTime endTime metric := by
      intro metric
      have hname : (slo metric).metricName = metric.name := by cases metric <;> rfl
      rw [validateNegSLO_isSome, hname, counts, counts]
      rfl
    refine ⟨result, ?_, counts, verdicts, ?_⟩
    · rw [gather, hresult]
      rfl
    · rw [validateNegSLOs_isSome]
      simp only [verdicts]

/-! ## A slow first window -/

/-- Of 100 initializations in the first ten minutes none is fast; the 10 in the
second ten minutes all are. -/
def slowStart : NegMetric → Answers
  | .initialization, 0 => .ok [⟨"16", "t", 0⟩, ⟨"+Inf", "t", 100⟩]
  | .initialization, 1 => .ok [⟨"16", "u", 10⟩, ⟨"+Inf", "u", 10⟩]
  | _, _ => .ok []

theorem windowCount_slowStart : windowCount 0 1200000000000 = 2 := by
  have hceil : ⌈((1200000000000 - 0 : Int) : ℚ) / (queryInterval : Int)⌉ = 2 := by
    simp only [queryInterval, second]
    norm_num
  rw [windowCount, hceil]
  rfl

theorem samplesOf_slowStart :
    samplesOf slowStart 0 1200000000000 .initialization =
        [⟨"16", "t", 0⟩, ⟨"+Inf", "t", 100⟩, ⟨"16", "u", 10⟩, ⟨"+Inf", "u", 10⟩] ∧
      samplesOf slowStart 0 1200000000000 .attachEndpoint = [] ∧
        samplesOf slowStart 0 1200000000000 .detachEndpoint = [] := by
  simp only [samplesOf, windowCount_slowStart]
  decide

/-- Only the second window is judged: ten fast events of 110 pass for all of them. -/
theorem slow_start_not_judged :
    events slowStart 0 1200000000000 .initialization "16" = 10 ∧
      events slowStart 0 1200000000000 .initialization "+Inf" = 110 ∧
      (∃ result, gather (fun x => toString x.num) (fun _ => .absent) slowStart 0 1200000000000 2 =
        some (result, none)) ∧
      ¬ JudgesWhole (fun x => toString x.num) (fun _ => .absent) slowStart 0 1200000000000 := by
  obtain ⟨hinit, hattach, hdetach⟩ := samplesOf_slowStart
  have hevents : events slowStart 0 1200000000000 .initialization "16" = 10 ∧
      events slowStart 0 1200000000000 .initialization "+Inf" = 110 := by
    simp only [events, hinit]
    decide
  obtain ⟨result, hresult, last⟩ :=
    gatherMetrics_spec slowStart (by decide : (0 : Int) ≤ 1200000000000)
    (Nat.le_of_eq windowCount_slowStart)
  have hbucket : (slo .initialization).bucket (fun x => toString x.num) (fun _ => .absent) =
      "16" := by decide
  have hpasses : validateNegSLOs (fun x => toString x.num) (fun _ => .absent) result = none := by
    rw [← Option.not_isSome_iff_eq_none, validateNegSLOs_isSome]
    rintro ⟨metric, hsome⟩
    rw [validateNegSLO_isSome] at hsome
    obtain ⟨htotal, hbelow⟩ := hsome
    cases metric with
    | initialization =>
      have haccepted : count result (slo .initialization).metricName "16" = 10 := by
        refine (last .initialization "16").trans ?_
        rw [hinit]
        decide
      have hall : count result (slo .initialization).metricName "+Inf" = 10 := by
        refine (last .initialization "+Inf").trans ?_
        rw [hinit]
        decide
      rw [hbucket, haccepted, hall, SLO.percentile] at hbelow
      norm_num [Param.orDefault, slo] at hbelow
    | attachEndpoint =>
      refine htotal ((last .attachEndpoint "+Inf").trans ?_)
      rw [hattach]
      rfl
    | detachEndpoint =>
      refine htotal ((last .detachEndpoint "+Inf").trans ?_)
      rw [hdetach]
      rfl
  refine ⟨hevents.1, hevents.2, ⟨result, ?_⟩, fun judges => ?_⟩
  · rw [gather, hresult, Option.map_some, hpasses]
  · obtain ⟨result', hgather, counts, -, -⟩ := judges 2 (Nat.le_of_eq windowCount_slowStart)
    rw [gather, hresult] at hgather
    cases hgather
    have hcount := (last .initialization "+Inf").symm.trans (counts .initialization "+Inf")
    rw [hevents.2, hinit] at hcount
    exact absurd hcount (by decide)

/-- In one window, what the SLO judges is the whole measurement. -/
theorem single_window_judged :
    JudgesWhole (fun x => toString x.num) (fun _ => .absent)
      (fun _ _ => .ok [⟨"16", "t", 9⟩, ⟨"+Inf", "t", 10⟩]) 0 1000000000 := by
  have hceil : ⌈((1000000000 - 0 : Int) : ℚ) / (queryInterval : Int)⌉ = 1 := by
    simp only [queryInterval, second]
    norm_num
  refine (judgesWhole_iff _ _ _ 0 1000000000 (by decide)).mpr fun metric bucket => ?_
  have hsamples :
      samplesOf (fun _ _ => .ok [⟨"16", "t", 9⟩, ⟨"+Inf", "t", 10⟩]) 0 1000000000 metric =
      [⟨"16", "t", 9⟩, ⟨"+Inf", "t", 10⟩] := by
    rw [samplesOf, windowCount, hceil]
    rfl
  rw [hsamples, valuesFor]
  by_cases hfast : "16" = bucket
  · subst hfast
    decide
  · by_cases hall : "+Inf" = bucket
    · subst hall
      decide
    · simp [hfast, hall]

end NegLatency
