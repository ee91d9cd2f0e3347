import ClusterLoader.FallibleLoops
import ClusterLoader.KeyedStore
import ClusterLoader.LastValues
import Mathlib.Algebra.Group.Nat.Defs

/-!
# Checking API call latencies against the SLO

Prometheus samples of latencies, of counts and of counts of fast calls are
collected under a key of four labels, then each call is checked against its
threshold. What the floating point library makes of a label or of a value is
left open in `Conversions`: a latency is the duration a value is converted to.

The metrics are kept in a Go map, so they come in any order; which of them are
logged is not modelled.
-/

namespace APIResponsiveness

open FallibleLoops KeyedStore LastValues

structure Call where
  resource : String
  subresource : String
  verb : String
  scope : String
  deriving DecidableEq

def buildKey (c : Call) : String :=
  c.resource ++ "|" ++ c.subresource ++ "|" ++ c.verb ++ "|" ++ c.scope

inductive Quantile where
  | perc50
  | perc90
  | perc99
  | unsupported
  deriving DecidableEq

structure Sample (Value : Type) where
  call : Call
  quantile : String
  value : Value

structure Conversions (Value : Type) where
  /-- `strconv.ParseFloat`, as far as `SetQuantile` looks at the number. -/
  parseFloat : String → Except String Quantile
  /-- `time.Duration(float64(v) * float64(time.Second))`. -/
  duration : Value → Int
  /-- `int(math.Round(float64(v)))`. -/
  round : Value → Int

structure LatencyMetric where
  perc50 : Int
  perc90 : Int
  perc99 : Int

namespace LatencyMetric

def setQuantile (m : LatencyMetric) (quantile : Quantile) (latency : Int) : LatencyMetric :=
  match quantile with
  | .perc50 => { m with perc50 := latency }
  | .perc90 => { m with perc90 := latency }
  | .perc99 => { m with perc99 := latency }
  | .unsupported => m

def verifyThreshold (m : LatencyMetric) (threshold : Int) : Bool :=
  if threshold < m.perc50 then false
  else if threshold < m.perc90 then false
  else if threshold < m.perc99 then false
  else true

end LatencyMetric

structure APICallMetric where
  call : Call
  latency : LatencyMetric
  count : Int
  slowCount : Int

abbrev APICallMetrics := Map String APICallMetric

structure CustomThresholdEntry where
  call : Call
  threshold : Int

def second : Int := 1000000000

def singleResourceThreshold : Int := 1 * second
def multipleResourcesThreshold : Int := 30 * second

def getSLOThreshold (c : Call) : Int :=
  if c.scope = "resource" then singleResourceThreshold else multipleResourcesThreshold

/-! ## Collecting the samples -/

namespace APICallMetrics

/-- The entry of the call, a new one if there is none. -/
def getAPICall (m : APICallMetrics) (c : Call) : APICallMetric :=
  (m.get (buildKey c)).getD ⟨c, ⟨0, 0, 0⟩, 0, 0⟩

def put (m : APICallMetrics) (c : Call) (entry : APICallMetric) : APICallMetrics :=
  Map.set m (buildKey c) entry

def setLatency (m : APICallMetrics) (c : Call) (quantile : Quantile) (latency : Int) :
    APICallMetrics :=
  let call := getAPICall m c
  put m c { call with latency := call.latency.setQuantile quantile latency }

def setCount (m : APICallMetrics) (c : Call) (count : Int) : APICallMetrics :=
  if count = 0 then m else put m c { getAPICall m c with count := count }

/-- Asking for the count of a call enters the call. -/
def getCount (m : APICallMetrics) (c : Call) : Int × APICallMetrics :=
  ((getAPICall m c).count, put m c (getAPICall m c))

def setSlowCount (m : APICallMetrics) (c : Call) (count : Int) : APICallMetrics :=
  if count = 0 then m else put m c { getAPICall m c with slowCount := count }

end APICallMetrics

open APICallMetrics

section
variable {Value : Type} (conv : Conversions Value)

def addLatency (m : APICallMetrics) (sample : Sample Value) : Except String APICallMetrics := do
  let quantile ← conv.parseFloat sample.quantile
  return setLatency m sample.call quantile (conv.duration sample.value)

def addCount (m : APICallMetrics) (sample : Sample Value) : APICallMetrics :=
  setCount m sample.call (conv.round sample.value)

/-- The difference of two ints, which have 64 bits. -/
def slowCountOf (count fastCount : Int) : Int := (count - fastCount).bmod (2 ^ 64)

def addFastCount (m : APICallMetrics) (sample : Sample Value) : APICallMetrics :=
  setSlowCount (getCount m sample.call).2 sample.call
    (slowCountOf (getCount m sample.call).1 (conv.round sample.value))

def newFromSamples (latencySamples countSamples countFastSamples : List (Sample Value)) :
    Except String APICallMetrics := do
  let m ← latencySamples.foldlM (addLatency conv) Store.empty
  return countFastSamples.foldl (addFastCount conv) (countSamples.foldl (addCount conv) m)

/-! ## The queries -/

inductive Query where
  | latency
  | simpleLatency (quantile : String)
  | watchListLatency (quantile : String)
  | count
  | watchListCount
  | countFast (filter : String)

/-- Watch lists have no verb of their own, and samples of several groups agree
in the labels that are looked at. -/
def asWatchList (sample : Sample Value) : Sample Value :=
  { sample with call.verb := "WATCHLIST" }

def withQuantile (quantile : String) (sample : Sample Value) : Sample Value :=
  { sample with quantile := quantile }

/-- The samples for one quantile of the simple query. -/
def simpleSamples (executor : Query → Except String (List (Sample Value))) (quantile : String) :
    Except String (List (Sample Value)) := do
  let samples ← executor (.simpleLatency quantile)
  let watchLists ← executor (.watchListLatency quantile)
  return samples.map (withQuantile quantile) ++
    watchLists.map fun sample => asWatchList (withQuantile quantile sample)

def filterGetAndMutating : String := "verb!~\"WATCH|LIST\", subresource!=\"proxy\", le=\"1\""
def filterNamespaceList : String := "scope!=\"cluster\", verb=\"LIST\", le=\"5\""
def filterClusterList : String := "scope=\"cluster\", verb=\"LIST\", le=\"30\""

def queryLatencies (executor : Query → Except String (List (Sample Value))) (useSimple : Bool) :
    Except String (List (Sample Value)) := do
  if useSimple then return (← ["0.50", "0.90", "0.99"].mapM (simpleSamples executor)).flatten
  else executor .latency

def gatherAPICalls (executor : Query → Except String (List (Sample Value))) (useSimple : Bool) :
    Except String APICallMetrics := do
  let latencySamples ← queryLatencies executor useSimple
  let countSamples ← executor .count
  let watchListCountSamples ← executor .watchListCount
  let countFastSamples ←
    [filterGetAndMutating, filterNamespaceList, filterClusterList].mapM fun filter =>
      executor (.countFast filter)
  newFromSamples conv latencySamples (countSamples ++ watchListCountSamples.map asWatchList)
    countFastSamples.flatten

/-! ## The check -/

/-- Thresholds of calls that have no entry are left out. -/
def addThreshold (metrics : APICallMetrics) (thresholds : Map String Int)
    (entry : CustomThresholdEntry) : Except String (Map String Int) :=
  if entry.threshold = 0 then
    .error "custom threshold must be set to a positive time duration"
  else if (metrics.get (buildKey entry.call)).isSome then
    .ok (thresholds.set (buildKey entry.call) entry.threshold)
  else .ok thresholds

def getCustomThresholds (entries : List CustomThresholdEntry) (metrics : APICallMetrics) :
    Except String (Map String Int) :=
  entries.foldlM (addThreshold metrics) Store.empty

/-- `got: %+v; expected perc99 <= %v`. -/
structure Violation where
  metric : APICallMetric
  threshold : Int

def validate (ap : APICallMetric) (allowedSlowCalls threshold : Int) : Option Violation :=
  if 0 < allowedSlowCalls ∧ ap.slowCount ≤ allowedSlowCalls then none
  else if ap.latency.verifyThreshold threshold then none
  else some ⟨ap, threshold⟩

def validateAPICalls (allowedSlowCalls : Int) (calls : List APICallMetric)
    (customThresholds : Map String Int) : List Violation :=
  calls.filterMap fun apiCall =>
    validate apiCall allowedSlowCalls
      ((customThresholds.get (buildKey apiCall.call)).getD (getSLOThreshold apiCall.call))

def values (metrics : APICallMetrics) : List APICallMetric := metrics.entries.map Prod.snd

/-! ## What the samples say -/

/-- The threshold of a call: its last custom one, else that of the SLO. -/
def thresholdOf (entries : List CustomThresholdEntry) (c : Call) : Int :=
  (lastSome (fun entry =>
    if entry.call = c then some entry.threshold else none) entries).getD (getSLOThreshold c)

/-- The threshold that is found for a call, by its key. -/
def thresholdFound (entries : List CustomThresholdEntry) (c : Call) : Int :=
  (lastSome (fun entry =>
    if buildKey entry.call = buildKey c then some entry.threshold else none) entries).getD
      (getSLOThreshold c)

/-- The queries' answers. -/
structure Samples (Value : Type) where
  latency : List (Sample Value)
  count : List (Sample Value)
  countFast : List (Sample Value)

/-- Some latency sample of the call, at a quantile that is looked at, is too high. -/
def Slow (samples : Samples Value) (entries : List CustomThresholdEntry) (c : Call) : Prop :=
  ∃ s ∈ samples.latency, s.call = c ∧
    (∃ q, q ≠ .unsupported ∧ conv.parseFloat s.quantile = .ok q) ∧
    thresholdOf entries c < conv.duration s.value

/-- The last count of the samples that are counted in; a count of zero says nothing. -/
def countOf (mine : Call → Prop) [DecidablePred mine] (samples : Samples Value) : Int :=
  (lastSome (fun s : Sample Value =>
    if mine s.call ∧ conv.round s.value ≠ 0 then some (conv.round s.value) else none)
      samples.count).getD 0

def fastCountOf (c : Call) (samples : Samples Value) : Int :=
  (lastSome (fun s : Sample Value =>
    if s.call = c then some (conv.round s.value) else none) samples.countFast).getD 0

/-- The count samples show no more slow calls than are allowed. -/
def Excused (samples : Samples Value) (allowedSlowCalls : Int) (c : Call) : Prop :=
  0 < allowedSlowCalls ∧
    countOf conv (· = c) samples - fastCountOf conv c samples ≤ allowedSlowCalls

/-- Every slow call that is not excused is reported, in whatever order the map
is gone through. -/
def NoneEscapes (samples : Samples Value) (allowedSlowCalls : Int)
    (entries : List CustomThresholdEntry) : Prop :=
  ∀ metrics thresholds calls,
    newFromSamples conv samples.latency samples.count samples.countFast = .ok metrics →
    getCustomThresholds entries metrics = .ok thresholds →
    calls.Perm (values metrics) →
    ∀ c, Slow conv samples entries c → ¬ Excused conv samples allowedSlowCalls c →
      ∃ v ∈ validateAPICalls allowedSlowCalls calls thresholds, v.metric.call = c

/-! ## What is left of the samples -/

/-- The last latency under a key at a quantile. -/
def latencyAt (key : String) (q : Quantile) (samples : List (Sample Value)) : Option Int :=
  lastSome (fun s =>
    if buildKey s.call = key ∧ conv.parseFloat s.quantile = .ok q then
      some (conv.duration s.value)
    else none) samples

/-- Count minus fast count, from the last fast count under the key that differs
from the count. -/
def slowCountAt (key : String) (samples : Samples Value) : Option Int :=
  let count := countOf conv (buildKey · = key) samples
  lastSome (fun s =>
    if buildKey s.call = key ∧ slowCountOf count (conv.round s.value) ≠ 0 then
      some (slowCountOf count (conv.round s.value))
    else none) samples.countFast

/-- A slow call is caught: the entry under its key is its own, at one of the
quantiles the last latency is above the threshold found, and where slow calls are allowed a fast
count shows that there are more. -/
structure Caught (samples : Samples Value) (allowedSlowCalls : Int)
    (entries : List CustomThresholdEntry) (c : Call) : Prop where
  own : (samples.latency.find? fun s => buildKey s.call = buildKey c).map Sample.call = some c
  last : ∃ q, q ≠ .unsupported ∧
    thresholdFound entries c < (latencyAt conv (buildKey c) q samples.latency).getD 0
  shown : 0 < allowedSlowCalls →
    ∃ n, slowCountAt conv (buildKey c) samples = some n ∧ allowedSlowCalls < n

/-- The entry that the samples make under a key. -/
def entryAt (key : String) (samples : Samples Value) (c : Call) : APICallMetric where
  call := c
  latency := ⟨(latencyAt conv key .perc50 samples.latency).getD 0,
    (latencyAt conv key .perc90 samples.latency).getD 0,
    (latencyAt conv key .perc99 samples.latency).getD 0⟩
  count := countOf conv (buildKey · = key) samples
  slowCount := (slowCountAt conv key samples).getD 0

/-- Every entry lies under its own key. -/
def Keyed (m : APICallMetrics) : Prop := ∀ key entry, m.get key = some entry →
  buildKey entry.call = key

end

theorem get_put (m : APICallMetrics) (c : Call) (entry : APICallMetric) (key : String) :
    (put m c entry).get key = if key = buildKey c then some entry else m.get key :=
  Map.get_set m (buildKey c) key entry

theorem Keyed.getAPICall {m : APICallMetrics} (keyed : Keyed m) (c : Call) :
    buildKey (getAPICall m c).call = buildKey c := by
  rw [APICallMetrics.getAPICall]
  cases h : m.get (buildKey c) with
  | none => rfl
  | some entry => exact keyed _ _ h

variable {entry : APICallMetric}

theorem Keyed.put {m : APICallMetrics} (keyed : Keyed m) {c : Call}
    (h : buildKey entry.call = buildKey c) : Keyed (put m c entry) := by
  intro key other hget
  rw [get_put] at hget
  split at hget
  · rename_i same
    cases hget
    exact h.trans same.symm
  · exact keyed key other hget

section
variable {Value : Type} {conv : Conversions Value}
variable {s : Sample Value}

theorem addLatency_of_ok {q : Quantile}
    (h : conv.parseFloat s.quantile = .ok q) (m : APICallMetrics) :
    addLatency conv m s = .ok (setLatency m s.call q (conv.duration s.value)) := by
  rw [addLatency, h]
  rfl

variable {m m' : APICallMetrics}

theorem quantile_of_addLatency
    (h : addLatency conv m s = .ok m') : ∃ q, conv.parseFloat s.quantile = .ok q := by
  cases hq : conv.parseFloat s.quantile with
  | ok q => exact ⟨q, rfl⟩
  | error text =>
    rw [addLatency, hq] at h
    cases h

variable {samples : List (Sample Value)}

/-- One more latency sample at the end of the list. -/
theorem latencies_concat (h : (samples ++ [s]).foldlM (addLatency conv) m = .ok m') :
    ∃ before q, samples.foldlM (addLatency conv) m = .ok before ∧
      conv.parseFloat s.quantile = .ok q ∧
      m' = setLatency before s.call q (conv.duration s.value) := by
  obtain ⟨before, hbefore, hlast⟩ := foldlM_concat_ok.mp h
  obtain ⟨q, hq⟩ := quantile_of_addLatency hlast
  rw [addLatency_of_ok hq] at hlast
  exact ⟨before, q, hbefore, hq, (Except.ok.inj hlast).symm⟩

theorem Keyed.latencies (keyed : Keyed m) (h : samples.foldlM (addLatency conv) m = .ok m') :
    Keyed m' := by
  induction samples using List.reverseRecOn generalizing m' with
  | nil => exact Except.ok.inj h ▸ keyed
  | append_singleton rest s ih =>
    obtain ⟨before, q, hbefore, _, rfl⟩ := latencies_concat h
    exact (ih hbefore).put ((ih hbefore).getAPICall s.call)

theorem Keyed.counts (keyed : Keyed m) (samples : List (Sample Value)) :
    Keyed (samples.foldl (addCount conv) m) := by
  refine List.foldlRecOn samples _ keyed fun m keyed s _ => ?_
  rw [addCount, setCount]
  split
  · exact keyed
  · exact keyed.put (keyed.getAPICall s.call)

theorem Keyed.fastCounts (keyed : Keyed m)
    (samples : List (Sample Value)) : Keyed (samples.foldl (addFastCount conv) m) := by
  refine List.foldlRecOn samples _ keyed fun m keyed s _ => ?_
  have entered := keyed.put (keyed.getAPICall s.call)
  rw [addFastCount, setSlowCount]
  split
  · exact entered
  · exact entered.put (entered.getAPICall s.call)

/-- The latencies under a key, as the samples leave them. -/
def latencyOf (conv : Conversions Value) (key : String) (samples : List (Sample Value)) :
    LatencyMetric :=
  ⟨(latencyAt conv key .perc50 samples).getD 0, (latencyAt conv key .perc90 samples).getD 0,
    (latencyAt conv key .perc99 samples).getD 0⟩

theorem latencyAt_concat (key : String) (q : Quantile) (samples : List (Sample Value))
    {p : Quantile} (h : conv.parseFloat s.quantile = .ok p) :
    latencyAt conv key q (samples ++ [s]) =
      if buildKey s.call = key ∧ p = q then some (conv.duration s.value)
      else latencyAt conv key q samples := by
  rw [latencyAt, lastSome_concat, h]
  simp only [Except.ok.injEq]
  split <;> rfl

theorem latencyOf_concat (key : String) (samples : List (Sample Value))
    {p : Quantile} (h : conv.parseFloat s.quantile = .ok p) :
    latencyOf conv key (samples ++ [s]) =
      if buildKey s.call = key then
        (latencyOf conv key samples).setQuantile p (conv.duration s.value)
      else latencyOf conv key samples := by
  rw [latencyOf, latencyAt_concat key _ samples h, latencyAt_concat key _ samples h,
    latencyAt_concat key _ samples h]
  by_cases same : buildKey s.call = key
  · cases p <;> simp [same, LatencyMetric.setQuantile, latencyOf]
  · simp [same, latencyOf]

/-- After the latencies an entry has the call of its first sample and, at each
quantile, the last latency. -/
theorem get_latencies (h : samples.foldlM (addLatency conv) Store.empty = .ok m) (key : String) :
    m.get key = (samples.find? fun s => buildKey s.call = key).map fun first =>
      ⟨first.call, latencyOf conv key samples, 0, 0⟩ := by
  induction samples using List.reverseRecOn generalizing m with
  | nil =>
    obtain rfl := Except.ok.inj h
    rfl
  | append_singleton rest s ih =>
    obtain ⟨before, q, hbefore, hq, rfl⟩ := latencies_concat h
    have hkey := ih hbefore
    rw [setLatency, get_put, latencyOf_concat key rest hq, List.find?_append]
    by_cases same : key = buildKey s.call
    · subst same
      rw [if_pos rfl, if_pos rfl, getAPICall, hkey]
      cases hfirst : rest.find? fun s' => buildKey s'.call = buildKey s.call with
      | some first => rfl
      | none =>
        have hnone : ∀ p, latencyAt conv (buildKey s.call) p rest = none := by
          intro p
          refine lastSome_eq_none.mpr fun other hother => if_neg fun both => ?_
          exact absurd (decide_eq_true both.1) (List.find?_eq_none.mp hfirst other hother)
        simp [latencyOf, hnone]
    · rw [if_neg same, if_neg (Ne.symm same), hkey]
      have hskip : [s].find? (fun s' => buildKey s'.call = key) = none := by
        simp [Ne.symm same]
      rw [hskip, Option.or_none]

variable {key : String}

/-- Counts change the count of the entries there are, and nothing else of them. -/
theorem get_counts (h : m.get key = some entry) (samples : List (Sample Value)) :
    (samples.foldl (addCount conv) m).get key = some { entry with
      count := (lastSome (fun s : Sample Value =>
        if buildKey s.call = key ∧ conv.round s.value ≠ 0 then some (conv.round s.value)
        else none) samples).getD entry.count } := by
  induction samples using List.reverseRecOn with
  | nil => exact h
  | append_singleton rest s ih =>
    rw [List.foldl_append, List.foldl_cons, List.foldl_nil, lastSome_concat, addCount, setCount]
    by_cases zero : conv.round s.value = 0
    · rw [if_pos zero, ih, if_neg fun both => both.2 zero, Option.none_or]
    · rw [if_neg zero, get_put]
      by_cases same : buildKey s.call = key
      · subst same
        rw [if_pos rfl, if_pos ⟨rfl, zero⟩, getAPICall, ih]
        rfl
      · rw [if_neg (Ne.symm same), ih, if_neg fun both => same both.1, Option.none_or]

theorem get_addFastCount (m : APICallMetrics) (s : Sample Value) (key : String) :
    (addFastCount conv m s).get key =
      if key = buildKey s.call then
        some { getAPICall m s.call with
          slowCount := if slowCountOf (getAPICall m s.call).count (conv.round s.value) = 0 then
            (getAPICall m s.call).slowCount
          else slowCountOf (getAPICall m s.call).count (conv.round s.value) }
      else m.get key := by
  have hentered : getAPICall (getCount m s.call).2 s.call = getAPICall m s.call := by
    rw [getAPICall, getCount, get_put, if_pos rfl]
    rfl
  change (if slowCountOf (getAPICall m s.call).count (conv.round s.value) = 0 then _ else _ :
    APICallMetrics).get key = _
  split
  · rw [getCount, get_put]
  · rw [get_put, hentered, getCount, get_put]
    by_cases same : key = buildKey s.call
    · rw [if_pos same, if_pos same]
    · rw [if_neg same, if_neg same, if_neg same]

/-- Fast counts change the slow count of the entries there are. -/
theorem get_fastCounts (h : m.get key = some entry) (samples : List (Sample Value)) :
    (samples.foldl (addFastCount conv) m).get key = some { entry with
      slowCount := (lastSome (fun s : Sample Value =>
        if buildKey s.call = key ∧ slowCountOf entry.count (conv.round s.value) ≠ 0 then
          some (slowCountOf entry.count (conv.round s.value))
        else none) samples).getD entry.slowCount } := by
  induction samples using List.reverseRecOn with
  | nil => exact h
  | append_singleton rest s ih =>
    rw [List.foldl_append, List.foldl_cons, List.foldl_nil, lastSome_concat, get_addFastCount]
    by_cases same : buildKey s.call = key
    · subst same
      rw [if_pos rfl, getAPICall, ih, Option.getD_some]
      by_cases zero : slowCountOf entry.count (conv.round s.value) = 0
      · rw [if_pos zero, if_neg fun both => both.2 zero, Option.none_or]
      · rw [if_neg zero, if_pos ⟨rfl, zero⟩]
        rfl
    · rw [if_neg (Ne.symm same), ih, if_neg fun both => same both.1, Option.none_or]

variable {samples : Samples Value} {metrics : APICallMetrics}

section
variable (h : newFromSamples conv samples.latency samples.count samples.countFast = .ok metrics)
include h

/-- The entry of a call with a latency sample. -/
theorem get_newFromSamples {first : Sample Value}
    (hfirst : samples.latency.find? (fun s => buildKey s.call = key) = some first) :
    metrics.get key = some (entryAt conv key samples first.call) := by
  obtain ⟨m, hm, h⟩ := bind_eq_ok.mp h
  obtain rfl := Except.ok.inj h
  have hlatencies := get_latencies hm key
  rw [hfirst] at hlatencies
  rw [get_fastCounts (get_counts hlatencies samples.count) samples.countFast]
  rfl

theorem keyed_newFromSamples : Keyed metrics := by
  obtain ⟨m, hm, h⟩ := bind_eq_ok.mp h
  obtain rfl := Except.ok.inj h
  have keyed : Keyed (Store.empty : APICallMetrics) := nofun
  exact ((keyed.latencies hm).counts _).fastCounts _

end

theorem exists_newFromSamples (h : ∀ s ∈ samples.latency, ∃ q, conv.parseFloat s.quantile = .ok q) :
    ∃ metrics, newFromSamples conv samples.latency samples.count samples.countFast =
      .ok metrics := by
  have readable : ∃ m, samples.latency.foldlM (addLatency conv) Store.empty = .ok m := by
    refine exists_foldlM_ok (fun s hs before => ?_) Store.empty
    obtain ⟨q, hq⟩ := h s hs
    exact ⟨_, addLatency_of_ok hq before⟩
  obtain ⟨m, hm⟩ := readable
  rw [newFromSamples, hm]
  exact ⟨_, rfl⟩

theorem quantiles_of_newFromSamples
    (h : newFromSamples conv samples.latency samples.count samples.countFast = .ok metrics) :
    ∀ s ∈ samples.latency, ∃ q, conv.parseFloat s.quantile = .ok q := by
  intro s hs
  obtain ⟨m, hm, -⟩ := bind_eq_ok.mp h
  obtain ⟨before, after, hadd⟩ := forall_of_foldlM_ok hm s hs
  exact quantile_of_addLatency hadd

/-! ## Thresholds -/

variable {entries : List CustomThresholdEntry}

theorem exists_thresholds (h : ∀ e ∈ entries, e.threshold ≠ 0) (metrics : APICallMetrics) :
    ∃ thresholds, getCustomThresholds entries metrics = .ok thresholds := by
  refine exists_foldlM_ok (fun e he before => ?_) Store.empty
  rw [addThreshold, if_neg (h e he)]
  split
  · exact ⟨_, rfl⟩
  · exact ⟨before, rfl⟩

variable {thresholds : Map String Int}

theorem nonzero_of_thresholds {start : Map String Int}
    (h : entries.foldlM (addThreshold metrics) start = .ok thresholds) :
    ∀ e ∈ entries, e.threshold ≠ 0 := by
  intro e he zero
  obtain ⟨before, after, hadd⟩ := forall_of_foldlM_ok h e he
  rw [addThreshold, if_pos zero] at hadd
  cases hadd

theorem get_thresholds (h : getCustomThresholds entries metrics = .ok thresholds)
    (known : (metrics.get key).isSome = true) :
    thresholds.get key = lastSome (fun entry : CustomThresholdEntry =>
      if buildKey entry.call = key then some entry.threshold else none) entries := by
  induction entries using List.reverseRecOn generalizing thresholds with
  | nil =>
    obtain rfl := Except.ok.inj h
    rfl
  | append_singleton rest e ih =>
    obtain ⟨mid, hmid, hlast⟩ := foldlM_concat_ok.mp h
    rw [lastSome_concat, ← ih hmid]
    rw [addThreshold] at hlast
    split at hlast
    · cases hlast
    · split at hlast
      · obtain rfl := Except.ok.inj hlast
        rw [Map.get_set]
        by_cases same : buildKey e.call = key
        · rw [if_pos same.symm, if_pos same]
          rfl
        · rw [if_neg (Ne.symm same), if_neg same, Option.none_or]
      · rename_i unknown
        obtain rfl := Except.ok.inj hlast
        have other : buildKey e.call ≠ key := by
          rintro rfl
          exact unknown known
        rw [if_neg other, Option.none_or]

/-! ## The verdict -/

variable {threshold : Int}

theorem verifyThreshold_eq_false {m : LatencyMetric} : m.verifyThreshold threshold = false ↔
      threshold < m.perc50 ∨ threshold < m.perc90 ∨ threshold < m.perc99 := by
  rw [LatencyMetric.verifyThreshold]
  split
  · simp [*]
  · split
    · simp [*]
    · split <;> simp [*]

variable {allowedSlowCalls : Int}

theorem validate_eq_some {ap : APICallMetric}
    {v : Violation} : validate ap allowedSlowCalls threshold = some v ↔
      (0 < allowedSlowCalls → allowedSlowCalls < ap.slowCount) ∧
        ap.latency.verifyThreshold threshold = false ∧ v = ⟨ap, threshold⟩ := by
  rw [validate]
  split
  · rename_i excused
    constructor
    · nofun
    · rintro ⟨shown, _⟩
      omega
  · rename_i unexcused
    have shown : 0 < allowedSlowCalls → allowedSlowCalls < ap.slowCount := by
      intro allowed
      by_contra few
      exact unexcused ⟨allowed, by omega⟩
    split
    · rename_i low
      rw [low]
      exact ⟨nofun, fun h => nomatch h.2.1⟩
    · rename_i high
      rw [Option.some.injEq, Bool.eq_false_iff.mpr high]
      exact ⟨fun h => ⟨shown, rfl, h.symm⟩, fun h => h.2.2.symm⟩

theorem mem_values {ap : APICallMetric} :
    ap ∈ values metrics ↔ ∃ key, metrics.get key = some ap := by
  rw [values, List.mem_map]
  constructor
  · rintro ⟨e, he, rfl⟩
    exact ⟨e.1, Map.get_of_mem he⟩
  · rintro ⟨key, h⟩
    rw [Map.get, Option.map_eq_some_iff] at h
    obtain ⟨e, he, rfl⟩ := h
    exact ⟨e, (Store.lookup_eq_some.mp he).1, rfl⟩

/-- The verdict on the entry under a key. -/
theorem validate_entryAt {c : Call} :
    (∃ v, validate (entryAt conv key samples c) allowedSlowCalls threshold = some v ∧
        v.metric.call = c) ↔
      (∃ q, q ≠ .unsupported ∧ threshold < (latencyAt conv key q samples.latency).getD 0) ∧
        (0 < allowedSlowCalls →
          ∃ n, slowCountAt conv key samples = some n ∧ allowedSlowCalls < n) := by
  have hslow : (0 < allowedSlowCalls → allowedSlowCalls < (slowCountAt conv key samples).getD 0) ↔
      (0 < allowedSlowCalls →
        ∃ n, slowCountAt conv key samples = some n ∧ allowedSlowCalls < n) := by
    refine imp_congr_right fun allowed => ?_
    cases slowCountAt conv key samples with
    | none =>
      rw [Option.getD_none]
      exact ⟨fun h => by omega, nofun⟩
    | some n => simp
  have hlast : (entryAt conv key samples c).latency.verifyThreshold threshold = false ↔
      ∃ q, q ≠ .unsupported ∧
        threshold < (latencyAt conv key q samples.latency).getD 0 := by
    rw [verifyThreshold_eq_false]
    constructor
    · rintro (h | h | h)
      · exact ⟨.perc50, nofun, h⟩
      · exact ⟨.perc90, nofun, h⟩
      · exact ⟨.perc99, nofun, h⟩
    · rintro ⟨q, supported, h⟩
      cases q with
      | perc50 => exact .inl h
      | perc90 => exact .inr (.inl h)
      | perc99 => exact .inr (.inr h)
      | unsupported => exact absurd rfl supported
  simp only [validate_eq_some]
  constructor
  · rintro ⟨v, ⟨shown, high, _⟩, _⟩
    exact ⟨hlast.mp high, hslow.mp shown⟩
  · rintro ⟨high, shown⟩
    exact ⟨_, ⟨hslow.mpr shown, hlast.mpr high, rfl⟩, rfl⟩

/-- A call with a latency sample is reported exactly if it is caught. -/
theorem reported_iff_caught {calls : List APICallMetric} {c : Call}
    (hmetrics : newFromSamples conv samples.latency samples.count samples.countFast =
      .ok metrics)
    (hthresholds : getCustomThresholds entries metrics = .ok thresholds)
    (order : calls.Perm (values metrics)) (sampled : ∃ s ∈ samples.latency, s.call = c) :
    (∃ v ∈ validateAPICalls allowedSlowCalls calls thresholds, v.metric.call = c) ↔
      Caught conv samples allowedSlowCalls entries c := by
  obtain ⟨s, hs, rfl⟩ := sampled
  obtain ⟨first, hfirst⟩ : ∃ first, samples.latency.find? (fun s' =>
      buildKey s'.call = buildKey s.call) = some first := by
    cases hfind : samples.latency.find? fun s' => buildKey s'.call = buildKey s.call with
    | some first => exact ⟨first, rfl⟩
    | none => exact absurd (decide_eq_true rfl) (List.find?_eq_none.mp hfind s hs)
  have hentry := get_newFromSamples hmetrics hfirst
  have hthreshold : (thresholds.get (buildKey s.call)).getD (getSLOThreshold s.call) =
      thresholdFound entries s.call := by
    rw [get_thresholds hthresholds (by rw [hentry]; rfl)]
    rfl
  constructor
  · rintro ⟨v, hv, hcall⟩
    obtain ⟨ap, hap, hvalid⟩ := List.mem_filterMap.mp hv
    have hmetric : v.metric = ap := by rw [(validate_eq_some.mp hvalid).2.2]
    rw [hmetric] at hcall
    obtain ⟨key, hkey⟩ := mem_values.mp (order.mem_iff.mp hap)
    obtain rfl : buildKey s.call = key := by
      rw [← hcall]
      exact keyed_newFromSamples hmetrics key ap hkey
    obtain rfl := Option.some.inj (hkey.symm.trans hentry)
    have hown : first.call = s.call := hcall
    rw [hown] at hvalid
    change validate _ _ ((thresholds.get (buildKey s.call)).getD (getSLOThreshold s.call)) = _
      at hvalid
    rw [hthreshold] at hvalid
    have hcaught := validate_entryAt.mp ⟨v, hvalid, by rw [hmetric]; exact hown⟩
    refine ⟨?_, hcaught.1, hcaught.2⟩
    rw [hfirst, Option.map_some, hown]
  · intro caught
    have hown : first.call = s.call := by
      have h := caught.own
      rw [hfirst] at h
      exact Option.some.inj h
    rw [hown] at hentry
    obtain ⟨v, hvalid, hcall⟩ := validate_entryAt.mpr ⟨caught.last, caught.shown⟩
    refine ⟨v, List.mem_filterMap.mpr ⟨_, order.mem_iff.mpr (mem_values.mpr ⟨_, hentry⟩), ?_⟩,
      hcall⟩
    change validate _ _ ((thresholds.get (buildKey s.call)).getD (getSLOThreshold s.call)) = _
    rw [hthreshold]
    exact hvalid

end

/-- From the queries to the violations: of the calls that the queries have
returned, those that are caught are reported. -/
theorem gathered_reported_iff {Value : Type} {conv : Conversions Value}
    {executor : Query → Except String (List (Sample Value))} {useSimple : Bool}
    {latency count watchListCount : List (Sample Value)} {countFast : List (List (Sample Value))}
    (latencies : queryLatencies executor useSimple = .ok latency)
    (counts : executor .count = .ok count)
    (watchLists : executor .watchListCount = .ok watchListCount)
    (fast : [filterGetAndMutating, filterNamespaceList, filterClusterList].mapM
      (fun filter => executor (.countFast filter)) = .ok countFast)
    {metrics : APICallMetrics} (gathered : gatherAPICalls conv executor useSimple = .ok metrics)
    {entries : List CustomThresholdEntry} {thresholds : Map String Int}
    (custom : getCustomThresholds entries metrics = .ok thresholds)
    {calls : List APICallMetric} (order : calls.Perm (values metrics)) (allowedSlowCalls : Int)
    {c : Call} (sampled : ∃ s ∈ latency, s.call = c) :
    (∃ v ∈ validateAPICalls allowedSlowCalls calls thresholds, v.metric.call = c) ↔
      Caught conv ⟨latency, count ++ watchListCount.map asWatchList, countFast.flatten⟩
        allowedSlowCalls entries c := by
  rw [gatherAPICalls, latencies, counts, watchLists, fast] at gathered
  exact reported_iff_caught gathered custom order sampled

/-- No slow call escapes exactly if, where the samples and thresholds can be
read, each slow call that is not excused is caught. -/
theorem none_escapes_iff {Value : Type} (conv : Conversions Value) (samples : Samples Value)
    (allowedSlowCalls : Int) (entries : List CustomThresholdEntry) :
    NoneEscapes conv samples allowedSlowCalls entries ↔
      ((∀ s ∈ samples.latency, ∃ q, conv.parseFloat s.quantile = .ok q) →
        (∀ e ∈ entries, e.threshold ≠ 0) →
        ∀ c, Slow conv samples entries c → ¬ Excused conv samples allowedSlowCalls c →
          Caught conv samples allowedSlowCalls entries c) := by
  have sampled : ∀ c, Slow conv samples entries c → ∃ s ∈ samples.latency, s.call = c :=
    fun c ⟨s, hs, hcall, _⟩ => ⟨s, hs, hcall⟩
  constructor
  · intro none readable nonzero c slow unexcused
    obtain ⟨metrics, hmetrics⟩ := exists_newFromSamples readable
    obtain ⟨thresholds, hthresholds⟩ := exists_thresholds nonzero metrics
    refine (reported_iff_caught hmetrics hthresholds (.refl _) (sampled c slow)).mp ?_
    exact none metrics thresholds _ hmetrics hthresholds (.refl _) c slow unexcused
  · intro caught metrics thresholds calls hmetrics hthresholds order c slow unexcused
    refine (reported_iff_caught hmetrics hthresholds order (sampled c slow)).mpr ?_
    exact caught (quantiles_of_newFromSamples hmetrics) (nonzero_of_thresholds hthresholds) c
      slow unexcused

/-- Values in whole seconds, and one quantile. -/
def inSeconds : Conversions Int where
  parseFloat label := if label = "0.99" then .ok .perc99 else .error "invalid syntax"
  duration v := v * second
  round v := v

def watchPods : Call := ⟨"pods", "", "WATCHLIST", "cluster"⟩

/-- Watch lists of two groups: the later sample replaces the earlier one. -/
def twoGroups : Samples Int := ⟨[⟨watchPods, "0.99", 40⟩, ⟨watchPods, "0.99", 1⟩], [], []⟩

def listPods : Call := ⟨"pods", "", "LIST", "cluster"⟩

/-- The watch lists of two groups, and a list with ten calls of which six are fast. -/
def answers : Query → Except String (List (Sample Int))
  | .latency => .ok (twoGroups.latency ++ [⟨listPods, "0.99", 40⟩])
  | .count => .ok [⟨listPods, "", 10⟩]
  | .countFast filter => .ok (if filter = filterClusterList then [⟨listPods, "", 6⟩] else [])
  | _ => .ok []

/-- The list is reported where three slow calls are allowed, and the watch lists are
not, since the later sample is low. -/
theorem gathered_reported_iff_lists : ∃ metrics thresholds,
    gatherAPICalls inSeconds answers false = .ok metrics ∧
      getCustomThresholds [⟨listPods, 35 * second⟩] metrics = .ok thresholds ∧
      (∃ v ∈ validateAPICalls 3 (values metrics) thresholds, v.metric.call = listPods) ∧
      ¬ ∃ v ∈ validateAPICalls 3 (values metrics) thresholds, v.metric.call = watchPods := by
  have iff {c : Call} := @gathered_reported_iff Int inSeconds answers false _ _ _ _ rfl rfl rfl rfl
    _ rfl [⟨listPods, 35 * second⟩] _ rfl _ (.refl _) 3 c
  refine ⟨_, _, rfl, rfl, (iff ⟨_, .tail _ (.tail _ (.head _)), rfl⟩).mpr ?_, ?_⟩
  · exact ⟨rfl, ⟨.perc99, nofun, by decide⟩, fun _ => ⟨4, rfl, by decide⟩⟩
  · rw [iff ⟨_, .head _, rfl⟩]
    rintro ⟨-, ⟨q, supported, high⟩, -⟩
    cases q with
    | unsupported => exact absurd rfl supported
    | _ => exact absurd high (by decide)

/-- Ten calls, and no sample of fast ones. -/
def noFastCount : Samples Int := ⟨[⟨watchPods, "0.99", 40⟩], [⟨watchPods, "", 10⟩], []⟩

theorem slow_calls_escape : ¬ NoneEscapes inSeconds twoGroups 0 [] ∧
    ¬ NoneEscapes inSeconds noFastCount 1 [] := by
  constructor
  · intro none
    have slow : Slow inSeconds twoGroups [] watchPods :=
      ⟨⟨watchPods, "0.99", 40⟩, .head _, rfl, ⟨.perc99, nofun, rfl⟩, by decide⟩
    have unexcused : ¬ Excused inSeconds twoGroups 0 watchPods := fun h => nomatch h.1
    obtain ⟨v, hv, _⟩ := none _ _ _ rfl rfl (.refl _) _ slow unexcused
    have empty : validateAPICalls 0 [⟨watchPods, ⟨0, 0, second⟩, 0, 0⟩] Store.empty = [] := rfl
    exact absurd (empty ▸ hv : v ∈ []) List.not_mem_nil
  · intro none
    have slow : Slow inSeconds noFastCount [] watchPods :=
      ⟨⟨watchPods, "0.99", 40⟩, .head _, rfl, ⟨.perc99, nofun, rfl⟩, by decide⟩
    have unexcused : ¬ Excused inSeconds noFastCount 1 watchPods := by
      rintro ⟨_, few⟩
      exact absurd few (by decide)
    obtain ⟨v, hv, _⟩ := none _ _ _ rfl rfl (.refl _) _ slow unexcused
    have empty :
        validateAPICalls 1 [⟨watchPods, ⟨0, 0, 40 * second⟩, 10, 0⟩] Store.empty = [] := rfl
    exact absurd (empty ▸ hv : v ∈ []) List.not_mem_nil

end APIResponsiveness
