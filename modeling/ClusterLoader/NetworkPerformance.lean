import ClusterLoader.PodPairs
import Mathlib.Algebra.Ring.Int.Defs

/-!
# Waiting for the network test requests

A test request is created for every pair of pods. Updates of the requests are
handled one after the other, and `gather` polls how many responses there are.
What JSON makes of a status is left open in `getMetricResponse`. The values are
numbers of JSON, so none of them is a NaN and they are ordered linearly.
-/

namespace NetworkPerformance

open KeyedStore PodPairs

structure MetricResponse (Value : Type) where
  metrics : List Value
  error : String

/-- What comes with an update: the request with its `status`, if that is a map. -/
inductive NewObj (Status : Type) where
  | unexpected
  | unconvertible (request : Nat)
  | object (request : Nat) (status : Option Status)

inductive PodRatio where
  | oneToOne
  | manyToOne
  | manyToMany
  | invalid

def getPodRatioType (numberOfClients numberOfServers : Nat) : PodRatio :=
  if numberOfClients = numberOfServers ∧ numberOfClients = 1 then .oneToOne
  else if numberOfServers < numberOfClients ∧ numberOfServers = 1 then .manyToOne
  else if numberOfClients = numberOfServers then .manyToMany
  else .invalid

section
variable {Status Value : Type} (getMetricResponse : Status → MetricResponse Value × Option String)

/-- A status that cannot be read is logged, and what was read of it is kept. -/
def handleUpdateNetworkTestEvents (metricVal : List (List Value)) :
    NewObj Status → List (List Value)
  | .unexpected => metricVal
  | .unconvertible _ => metricVal
  | .object _ none => metricVal
  | .object _ (some metricMap) => metricVal ++ [(getMetricResponse metricMap).1.metrics]

def checkResponseReceivedFromPods (numberOfClients : Nat) (metricVal : List (List Value)) : Bool :=
  metricVal.length = numberOfClients

/-! ## Aggregation -/

def udpLatencyAverage : Nat := 6

variable [LinearOrder Value] [Zero Value]

structure MetricPercentiles (Value : Type) where
  percentile05 : Value
  percentile50 : Value
  percentile95 : Value

/-- `values[int(math.Ceil(float64(length*p)/100))-1]`. -/
def nearest (p : Nat) (values : List Value) : Value :=
  values.getD ((values.length * p + 99) / 100 - 1) 0

def getPercentile (values : List Value) : MetricPercentiles Value :=
  if values.length = 0 then ⟨0, 0, 0⟩
  else
    let values := values.mergeSort
    ⟨nearest 5 values, nearest 50 values, nearest 95 values⟩

/-- A response that is too short cannot be indexed. -/
def metricOf (metricIndex : Nat) (metricResponse : List Value) : Option Value := do
  let metric ← metricResponse[metricIndex]?
  return if metricIndex = udpLatencyAverage ∧ metric < 0 then 0 else metric

def aggregatePodPairMetrics (metricIndex : Nat) (metricVal : List (List Value)) :
    Option (List Value) :=
  (metricVal.filter fun metricResponse => 0 < metricResponse.length).mapM (metricOf metricIndex)

def setValue (metricIndex : Nat) (data : Map String Value) (metricResponse : List Value) :
    Option (Map String Value) :=
  if 0 < metricResponse.length then metricResponse[metricIndex]?.map (data.set "Value")
  else some (data.set "Value" 0)

def setPercentiles (data : Map String Value) (percentile : MetricPercentiles Value) :
    Map String Value :=
  ((data.set "Perc05" percentile.percentile05).set "Perc50" percentile.percentile50).set
    "Perc95" percentile.percentile95

def calculateMetricDataValue (podRatioType : PodRatio) (metricVal : List (List Value))
    (data : Map String Value) (metricIndex : Nat) : Option (Map String Value) :=
  match podRatioType with
  | .oneToOne => metricVal.foldlM (setValue metricIndex) data
  | .manyToMany =>
    (aggregatePodPairMetrics metricIndex metricVal).map fun values =>
      setPercentiles data (getPercentile values)
  | .manyToOne => some data
  | .invalid => some data

end

/-! ## Requests and reports -/

/-- The pods that are listed, and the order in which the map of their nodes is
gone through. -/
structure Placement where
  pods : List Pod
  order : List (String × List WorkerPodData)
  perm : order.Perm (storeWorkerPods pods).entries

def Placement.pairs (placement : Placement) : List PodPair :=
  formUniquePodPair (storeWorkerPods placement.pods) placement.order

/-- The indices of the pairs whose request could be created. -/
def createCustomResourcePerUniquePodPair (pairs : List PodPair) (applies : Nat → Bool) :
    List Nat :=
  (List.range pairs.length).filter applies

section
variable {Status Value : Type}

def NewObj.report : NewObj Status → Option (Nat × Status)
  | .object request (some status) => some (request, status)
  | _ => none

def reports (seen : List (NewObj Status)) : List (Nat × Status) := seen.filterMap NewObj.report

/-- An update has shown a status other than the one that the request was created with. -/
def Reported (created : Status) (seen : List (NewObj Status)) (request : Nat) : Prop :=
  ∃ report ∈ reports seen, report.1 = request ∧ report.2 ≠ created

instance [DecidableEq Status] (created : Status) (seen : List (NewObj Status)) (request : Nat) :
    Decidable (Reported created seen request) :=
  inferInstanceAs (Decidable (∃ report ∈ reports seen, report.1 = request ∧ report.2 ≠ created))

end

/-- A measurement that has been started: `validate` has accepted the numbers, and
`start` knows what to do for their ratio. -/
structure Started (Status Value : Type) where
  getMetricResponse : Status → MetricResponse Value × Option String
  numberOfClients : Nat
  numberOfServers : Nat
  positive : 0 < numberOfClients ∧ 0 < numberOfServers
  known : getPodRatioType numberOfClients numberOfServers = .oneToOne ∨
    getPodRatioType numberOfClients numberOfServers = .manyToMany
  placement : Placement
  /-- Which requests could be created. -/
  applies : Nat → Bool
  /-- The status in the manifest of the request. -/
  created : Status

namespace Started

section
variable {Status Value : Type} (m : Started Status Value)

def podRatioType : PodRatio := getPodRatioType m.numberOfClients m.numberOfServers

def requests : List Nat := createCustomResourcePerUniquePodPair m.placement.pairs m.applies

def metricVal (seen : List (NewObj Status)) : List (List Value) :=
  seen.foldl (handleUpdateNetworkTestEvents m.getMetricResponse) []

def metrics (status : Status) : List Value := (m.getMetricResponse status).1.metrics

/-- How many requests there are, from the numbers of pods on the nodes. -/
def requestCount : Nat := ((List.range (pairCount m.placement.pods)).filter m.applies).length

/-- Every status that is shown is new, and of a request that has shown none before. -/
structure Orderly (updates : List (NewObj Status)) : Prop where
  once : ((reports updates).map Prod.fst).Nodup
  own : ∀ report ∈ reports updates, report.1 ∈ m.requests ∧ report.2 ≠ m.created

variable [DecidableEq Status]

def reporting (seen : List (NewObj Status)) : List Nat :=
  m.requests.filter fun request => Reported m.created seen request

/-- After the updates `seen` the wait is over exactly if all requests have
reported, and each one that has counts once. -/
structure Exact [LinearOrder Value] [Zero Value] (seen : List (NewObj Status)) : Prop where
  wait : checkResponseReceivedFromPods m.numberOfClients (m.metricVal seen) = true ↔
    ∀ request ∈ m.requests, Reported m.created seen request
  values : ∃ answer : Nat → Status,
    (∀ request ∈ m.reporting seen,
      (request, answer request) ∈ reports seen ∧ answer request ≠ m.created) ∧
    (m.metricVal seen).Perm ((m.reporting seen).map fun request => m.metrics (answer request)) ∧
    ∀ metricIndex data,
      calculateMetricDataValue m.podRatioType (m.metricVal seen) data metricIndex =
        calculateMetricDataValue m.podRatioType
          ((m.reporting seen).map fun request => m.metrics (answer request)) data metricIndex

end

end Started

/-! ## Aggregation does not depend on the order -/

theorem eq_of_perm_of_length_le_one {α : Type} {xs ys : List α} (perm : xs.Perm ys)
    (h : xs.length ≤ 1) : xs = ys := by
  match xs with
  | [] => exact perm.nil_eq
  | [x] => exact (List.perm_singleton.mp perm.symm).symm

theorem perm_mapM {α β : Type} {f : α → Option β} {xs ys : List α} (perm : xs.Perm ys)
    {us : List β} (h : xs.mapM f = some us) : ∃ vs, ys.mapM f = some vs ∧ us.Perm vs := by
  induction perm generalizing us with
  | nil => exact ⟨us, h, .refl us⟩
  | cons x _ ih =>
    simp only [List.mapM_cons, Option.bind_eq_bind, Option.bind_eq_some_iff, Option.pure_def,
      Option.some.injEq] at h ⊢
    obtain ⟨u, hu, rest, hrest, rfl⟩ := h
    obtain ⟨vs, hvs, hperm⟩ := ih hrest
    exact ⟨u :: vs, ⟨u, hu, vs, hvs, rfl⟩, hperm.cons u⟩
  | swap x y rest =>
    simp only [List.mapM_cons, Option.bind_eq_bind, Option.bind_eq_some_iff, Option.pure_def,
      Option.some.injEq] at h ⊢
    obtain ⟨u, hu, _, ⟨v, hv, ws, hws, rfl⟩, rfl⟩ := h
    exact ⟨v :: u :: ws, ⟨v, hv, u :: ws, ⟨u, hu, ws, hws, rfl⟩, rfl⟩, .swap v u ws⟩
  | trans _ _ ih ih' =>
    obtain ⟨vs, hvs, hperm⟩ := ih h
    obtain ⟨ws, hws, hperm'⟩ := ih' hvs
    exact ⟨ws, hws, hperm.trans hperm'⟩

section
variable {Value : Type} [LinearOrder Value] [Zero Value]

theorem getPercentile_perm {values others : List Value} (perm : values.Perm others) :
    getPercentile values = getPercentile others := by
  have hsort : values.mergeSort = others.mergeSort := by
    have hvalues := List.mergeSort_perm values (fun a b => decide (a ≤ b))
    have hothers := List.mergeSort_perm others (fun a b => decide (a ≤ b))
    have hsame := (hvalues.trans perm).trans hothers.symm
    have hantisymm : ∀ a b : Value, a ∈ values.mergeSort → b ∈ others.mergeSort → a ≤ b →
        b ≤ a → a = b := fun a b _ _ => le_antisymm
    exact hsame.eq_of_pairwise hantisymm (List.pairwise_mergeSort' (· ≤ ·) values)
      (List.pairwise_mergeSort' (· ≤ ·) others)
  rw [getPercentile, getPercentile, perm.length_eq, hsort]

theorem calculateMetricDataValue_perm {metricVal others : List (List Value)}
    (perm : metricVal.Perm others) (data : Map String Value) (metricIndex : Nat) :
    calculateMetricDataValue .manyToMany metricVal data metricIndex =
      calculateMetricDataValue .manyToMany others data metricIndex := by
  have hkept := perm.filter fun metricResponse => 0 < metricResponse.length
  rw [calculateMetricDataValue, calculateMetricDataValue]
  cases h : aggregatePodPairMetrics metricIndex metricVal with
  | some values =>
    obtain ⟨values', h', hperm⟩ := perm_mapM hkept h
    rw [aggregatePodPairMetrics, h', Option.map_some, Option.map_some, getPercentile_perm hperm]
  | none =>
    cases h' : aggregatePodPairMetrics metricIndex others with
    | none => rfl
    | some values' =>
      obtain ⟨values, hsome, _⟩ := perm_mapM hkept.symm h'
      cases h.symm.trans hsome

end

/-! ## Counting the reports -/

theorem reports_concat {Status : Type} (seen : List (NewObj Status)) (newObj : NewObj Status) :
    reports (seen ++ [newObj]) = reports seen ++ newObj.report.toList := by
  rw [reports, reports]
  cases h : newObj.report <;> simp [h]

/-- Updates can be cut off after any number of reports. -/
theorem exists_reports_length {Status : Type} {updates : List (NewObj Status)} {k : Nat}
    (h : k ≤ (reports updates).length) :
    ∃ seen later, updates = seen ++ later ∧ (reports seen).length = k := by
  induction updates using List.reverseRecOn with
  | nil => exact ⟨[], [], rfl, (Nat.le_zero.mp h).symm⟩
  | append_singleton updates newObj ih =>
    by_cases hk : k ≤ (reports updates).length
    · obtain ⟨seen, later, rfl, hseen⟩ := ih hk
      exact ⟨seen, later ++ [newObj], List.append_assoc _ _ _, hseen⟩
    · refine ⟨updates ++ [newObj], [], (List.append_nil _).symm, ?_⟩
      have hone := Option.length_toList_le (o := newObj.report)
      rw [reports_concat, List.length_append] at h ⊢
      omega

namespace Started

variable {Status Value : Type} (m : Started Status Value)

theorem metricVal_eq (seen : List (NewObj Status)) :
    m.metricVal seen = (reports seen).map fun report => m.metrics report.2 := by
  induction seen using List.reverseRecOn with
  | nil => rfl
  | append_singleton seen newObj ih =>
    rw [reports_concat, List.map_append, ← ih, metricVal, List.foldl_append]
    match newObj with
    | .unexpected => exact (List.append_nil _).symm
    | .unconvertible _ => exact (List.append_nil _).symm
    | .object _ none => exact (List.append_nil _).symm
    | .object _ (some _) => rfl

theorem length_metricVal (seen : List (NewObj Status)) :
    (m.metricVal seen).length = (reports seen).length := by
  rw [metricVal_eq, List.length_map]

theorem nodup_requests : m.requests.Nodup := List.nodup_range.filter _

theorem requests_eq :
    m.requests = (List.range (pairCount m.placement.pods)).filter m.applies := by
  rw [requests, createCustomResourcePerUniquePodPair, Placement.pairs,
    length_formUniquePodPair m.placement.perm]

theorem length_requests : m.requests.length = m.requestCount := by
  rw [requests_eq, requestCount]

section
variable [DecidableEq Status]
variable {seen : List (NewObj Status)}

theorem mem_reporting {request : Nat} : request ∈ m.reporting seen ↔
      request ∈ m.requests ∧ Reported m.created seen request := by
  rw [reporting, List.mem_filter, decide_eq_true_iff]

theorem nodup_reporting (seen : List (NewObj Status)) : (m.reporting seen).Nodup :=
  m.nodup_requests.filter _

theorem all_reported_iff (seen : List (NewObj Status)) :
    (∀ request ∈ m.requests, Reported m.created seen request) ↔
      (m.reporting seen).length = m.requestCount := by
  rw [← length_requests, reporting, List.length_filter_eq_length_iff]
  simp only [decide_eq_true_iff]

variable {m}

omit [DecidableEq Status] in
theorem Orderly.of_append {later : List (NewObj Status)}
    (orderly : m.Orderly (seen ++ later)) : m.Orderly seen := by
  have hreports : reports (seen ++ later) = reports seen ++ reports later :=
    List.filterMap_append
  obtain ⟨once, own⟩ := orderly
  rw [hreports] at once own
  rw [List.map_append] at once
  exact ⟨once.of_append_left, fun report h => own report (List.mem_append_left _ h)⟩

/-- Where each request reports once, the reports and the requests that have
reported are the same. -/
theorem Orderly.perm (orderly : m.Orderly seen) :
    ((reports seen).map Prod.fst).Perm (m.reporting seen) := by
  rw [List.perm_ext_iff_of_nodup orderly.once (m.nodup_reporting seen)]
  intro request
  rw [mem_reporting]
  constructor
  · intro h
    obtain ⟨report, hreport, rfl⟩ := List.mem_map.mp h
    obtain ⟨hrequest, hnew⟩ := orderly.own report hreport
    exact ⟨hrequest, report, hreport, rfl, hnew⟩
  · rintro ⟨_, report, hreport, rfl, _⟩
    exact List.mem_map.mpr ⟨report, hreport, rfl⟩

theorem Orderly.length (orderly : m.Orderly seen) :
    (reports seen).length = (m.reporting seen).length := by
  rw [← orderly.perm.length_eq, List.length_map]

/-- Otherwise there are more reports than requests that have reported. -/
theorem orderly_of_length
    (h : (reports seen).length = (m.reporting seen).length) : m.Orderly seen := by
  let good : Nat × Status → Bool := fun report =>
    report.1 ∈ m.requests ∧ report.2 ≠ m.created
  have hsub : m.reporting seen ⊆ ((reports seen).filter good).map Prod.fst := by
    intro request hrequest
    obtain ⟨hmem, report, hreport, rfl, hnew⟩ := m.mem_reporting.mp hrequest
    have hgood : good report = true := decide_eq_true ⟨hmem, hnew⟩
    exact List.mem_map.mpr ⟨report, List.mem_filter.mpr ⟨hreport, hgood⟩, rfl⟩
  have hsubperm := List.subperm_of_subset (m.nodup_reporting seen) hsub
  have hle := hsubperm.length_le
  have hfilter := List.length_filter_le good (reports seen)
  rw [List.length_map] at hle
  have hall : (reports seen).filter good = reports seen :=
    List.filter_eq_self.mpr (List.length_filter_eq_length_iff.mp (by omega))
  have hperm := hsubperm.perm_of_length_le (by rw [List.length_map]; omega)
  rw [hall] at hperm
  constructor
  · exact hperm.nodup_iff.mp (m.nodup_reporting seen)
  · intro report hreport
    rw [← hall] at hreport
    exact of_decide_eq_true (List.mem_filter.mp hreport).2

theorem Orderly.values (orderly : m.Orderly seen) : ∃ answer : Nat → Status,
      (∀ request ∈ m.reporting seen,
        (request, answer request) ∈ reports seen ∧ answer request ≠ m.created) ∧
      (m.metricVal seen).Perm
        ((m.reporting seen).map fun request => m.metrics (answer request)) := by
  let answers : Map Nat Status := ⟨reports seen, orderly.once⟩
  have hanswer : ∀ report ∈ reports seen,
      (answers.get report.1).getD m.created = report.2 := by
    intro report hreport
    rw [Map.get_of_mem hreport]
    rfl
  refine ⟨fun request => (answers.get request).getD m.created, ?_, ?_⟩
  · intro request hrequest
    obtain ⟨report, hreport, rfl⟩ := List.mem_map.mp (orderly.perm.mem_iff.mpr hrequest)
    simp only [hanswer report hreport]
    exact ⟨hreport, (orderly.own report hreport).2⟩
  · refine List.Perm.trans (.of_eq ?_) (orderly.perm.map _)
    rw [metricVal_eq, List.map_map]
    refine List.map_congr_left fun report hreport => ?_
    simp only [Function.comp_apply, hanswer report hreport]

omit [DecidableEq Status] in
theorem oneToOne_numberOfClients (h : m.podRatioType = .oneToOne) : m.numberOfClients = 1 := by
  rw [podRatioType, getPodRatioType] at h
  split at h
  · rename_i hone
    exact hone.2
  · split at h
    · cases h
    · split at h <;> cases h

variable [LinearOrder Value] [Zero Value]

theorem exact_of_orderly (orderly : m.Orderly seen) (enough : m.requestCount = m.numberOfClients ∨
      (reports seen).length < min m.requestCount m.numberOfClients) : m.Exact seen := by
  constructor
  · rw [all_reported_iff, ← orderly.length, checkResponseReceivedFromPods, decide_eq_true_iff,
      length_metricVal]
    omega
  · obtain ⟨answer, hanswer, hperm⟩ := orderly.values
    refine ⟨answer, hanswer, hperm, fun metricIndex data => ?_⟩
    rcases m.known with hratio | hratio
    · -- one client: there is at most one response, so that no order is left
      have hone := oneToOne_numberOfClients hratio
      have hle := List.length_filter_le (fun request => Reported m.created seen request)
        m.requests
      have hlength := orderly.length
      rw [reporting] at hlength
      rw [length_requests] at hle
      have hshort : (m.metricVal seen).length ≤ 1 := by
        rw [length_metricVal]
        omega
      rw [eq_of_perm_of_length_le_one hperm hshort]
    · rw [podRatioType, hratio]
      exact calculateMetricDataValue_perm hperm data metricIndex

theorem Exact.orderly (exact : m.Exact seen) : m.Orderly seen := by
  obtain ⟨answer, _, hperm, _⟩ := exact.values
  apply orderly_of_length
  rw [← length_metricVal, hperm.length_eq, List.length_map]

end

end Started

/-- The wait and the values are exact after every update exactly if each status
shown is the first of its request, and there are as many requests as clients or
fewer reports than either. -/
theorem gather_exact_iff {Status Value : Type} [DecidableEq Status] [LinearOrder Value]
    [Zero Value] (m : Started Status Value) (updates : List (NewObj Status)) :
    (∀ seen later, updates = seen ++ later → m.Exact seen) ↔
      m.Orderly updates ∧ (m.requestCount = m.numberOfClients ∨
        (reports updates).length < min m.requestCount m.numberOfClients) := by
  constructor
  · intro always
    refine ⟨(always updates [] (List.append_nil _).symm).orderly, ?_⟩
    by_contra hcounts
    rw [not_or] at hcounts
    obtain ⟨hne, hmany⟩ := hcounts
    obtain ⟨seen, later, rfl, hseen⟩ := exists_reports_length (Nat.le_of_not_lt hmany)
    have hexact := always seen later rfl
    have hlength := hexact.orderly.length
    have hwait := hexact.wait
    rw [m.all_reported_iff, checkResponseReceivedFromPods, decide_eq_true_iff,
      m.length_metricVal] at hwait
    omega
  · rintro ⟨orderly, enough⟩ seen later rfl
    have hreports : reports (seen ++ later) = reports seen ++ reports later :=
      List.filterMap_append
    rw [hreports, List.length_append] at enough
    exact Started.exact_of_orderly orderly.of_append (by omega)

/-- One pod for each name of a node. -/
def onNodes (nodes : List String) : Placement where
  pods := nodes.map fun node => ⟨"worker", node, "10.0.0.1"⟩
  order := (storeWorkerPods (nodes.map fun node => ⟨"worker", node, "10.0.0.1"⟩)).entries
  perm := .refl _

/-- The status is the list of metrics. -/
def trial (nodes : List String) (n : Nat) : Started (List Int) Int where
  getMetricResponse status := (⟨status, ""⟩, none)
  numberOfClients := n + 1
  numberOfServers := n + 1
  positive := ⟨n.succ_pos, n.succ_pos⟩
  known := by
    cases n with
    | zero => exact .inl rfl
    | succ n =>
      right
      simp [getPodRatioType]
  placement := onNodes nodes
  applies _ := true
  created := []

/-- The status of one request, delivered twice, ends the wait for two. Pods on a
single node give no request at all, and the wait for it cannot end well. -/
theorem gather_not_exact :
    ¬ (trial ["a", "b", "a", "b"] 1).Exact
        [.object 0 (some [0, 7]), .object 0 (some [0, 7])] ∧
      ¬ (trial ["a", "a"] 0).Exact [] := by
  constructor
  · intro exact
    have hmem : 1 ∈ (trial ["a", "b", "a", "b"] 1).requests := by
      decide +kernel
    exact absurd (exact.wait.mp (by decide) 1 hmem) (by decide)
  · intro exact
    have hnone : (trial ["a", "a"] 0).requests = [] := by
      decide +kernel
    have hover := exact.wait.mpr (by simp [hnone])
    cases hover

end NetworkPerformance
