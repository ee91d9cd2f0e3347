import ClusterLoader.KeyedStore
import ClusterLoader.NearestRank
import ClusterLoader.SeparatedNames
import Mathlib.Data.List.Induction
import Mathlib.Data.List.ProdSigma

/-!
# Resource usage of containers, gathered by workers

Every worker samples the containers of its node. When the gathering stops, the
percentiles of each finished worker are computed and merged into one table, and
the table becomes the summary. A worker that has not sampled anything has an
empty table of percentiles, and merging it drops what was merged before.

The values of the CPU are of any type with a decidable comparison; no statement
is made about them. The index of a percentile is the exact ceiling of a
hundredth: the floating point quotient of the source differs from it only for
series that no memory holds. An index out of bounds and a missing entry are
panics, modelled by `none`.
-/

namespace ResourceUsage

open KeyedStore KeyedStore.Store NearestRank

structure ContainerResourceUsage (C : Type) where
  name : String
  cpuUsageInCores : C
  memoryUsageInBytes : Nat
  memoryWorkingSetInBytes : Nat

abbrev ResourceUsagePerContainer (C : Type) := Map String (ContainerResourceUsage C)

structure UsageDataPerContainer (C : Type) where
  cpuData : List C
  memUseData : List Nat
  memWorkSetData : List Nat

structure SingleContainerSummary (C : Type) where
  name : String
  cpu : C
  mem : Nat
  deriving DecidableEq

abbrev Percentiles (C : Type) := Map Int (ResourceUsagePerContainer C)

abbrev ResourceUsageSummary (C : Type) := Map String (List (SingleContainerSummary C))

structure Worker (C : Type) where
  nodeName : String
  finished : Bool
  dataSeries : List (ResourceUsagePerContainer C)

section Model
variable {C : Type}

def UsageDataPerContainer.add (v : UsageDataPerContainer C) (data : ContainerResourceUsage C) :
    UsageDataPerContainer C where
  cpuData := v.cpuData ++ [data.cpuUsageInCores]
  memUseData := v.memUseData ++ [data.memoryUsageInBytes]
  memWorkSetData := v.memWorkSetData ++ [data.memoryWorkingSetInBytes]

def noData : UsageDataPerContainer C := ⟨[], [], []⟩

def addSample (dataMap : Map String (UsageDataPerContainer C))
    (e : String × ContainerResourceUsage C) : Map String (UsageDataPerContainer C) :=
  dataMap.set e.1 (((dataMap.get e.1).getD noData).add e.2)

def collect (timeSeries : List (ResourceUsagePerContainer C)) :
    Map String (UsageDataPerContainer C) :=
  timeSeries.foldl (fun dataMap sample => sample.entries.foldl addSample dataMap) empty

def percentileIndex (length : Nat) (perc : Int) : Int := (length * perc + 99) / 100 - 1

def at? {A : Type} (xs : List A) (i : Int) : Option A := if 0 ≤ i then xs[i.toNat]? else none

def percentileUsage (perc : Int) (name : String) (v : UsageDataPerContainer C) :
    Option (ContainerResourceUsage C) := do
  let i := percentileIndex v.cpuData.length perc
  let cpu ← at? v.cpuData i
  let memUse ← at? v.memUseData i
  let memWorkSet ← at? v.memWorkSetData i
  return ⟨name, cpu, memUse, memWorkSet⟩

/-- One percentile of every container. -/
def percentileData (dataMap : Map String (UsageDataPerContainer C)) (perc : Int) :
    Option (ResourceUsagePerContainer C) :=
  dataMap.entries.foldlM (fun data e => (percentileUsage perc e.1 e.2).map (Map.set data e.1))
    empty

def leftMergeData (left right : Percentiles C) : Percentiles C :=
  left.adjust fun percentile data =>
    match right.get percentile with
    | none => data
    | some other => data.merge other

def usageAt (data : Percentiles C) (perc : Int) (name : String) :
    Option (ContainerResourceUsage C) :=
  (data.get perc).bind (Map.get · name)

def addEntry (data : Percentiles C) (perc : Int) (summary : ResourceUsageSummary C)
    (name : String) : Option (ResourceUsageSummary C) :=
  (usageAt data perc name).map fun usage =>
    summary.set (toString perc) ((summary.get (toString perc)).getD [] ++
      [⟨name, usage.cpuUsageInCores, usage.memoryWorkingSetInBytes⟩])

def summarize (data : Percentiles C) (sortedKeys : List String) (percentiles : List Int) :
    Option (ResourceUsageSummary C) :=
  percentiles.foldlM (fun summary perc => sortedKeys.foldlM (addEntry data perc) summary) empty

def sortedKeys (data : Percentiles C) (perc : Int) : List String :=
  (((data.get perc).map Map.keys).getD []).insertionSort (· ≤ ·)

variable [LE C] [DecidableLE C]

def UsageDataPerContainer.sort (v : UsageDataPerContainer C) : UsageDataPerContainer C where
  cpuData := v.cpuData.insertionSort (· ≤ ·)
  memUseData := v.memUseData.insertionSort (· ≤ ·)
  memWorkSetData := v.memWorkSetData.insertionSort (· ≤ ·)

def sortAll (dataMap : Map String (UsageDataPerContainer C)) :
    Map String (UsageDataPerContainer C) :=
  dataMap.adjust fun _ v => v.sort

def computePercentiles (timeSeries : List (ResourceUsagePerContainer C)) (percentiles : List Int) :
    Option (Percentiles C) :=
  if timeSeries = [] then some empty
  else Map.fill (percentileData (sortAll (collect timeSeries))) percentiles empty

def mergeWorkers (percentiles : List Int) (workers : List (Worker C)) : Option (Percentiles C) :=
  workers.foldlM (fun data w =>
    if w.finished then
      (computePercentiles w.dataSeries percentiles).map (leftMergeData · data)
    else some data) empty

def stopAndSummarize (workers : List (Worker C)) :
    List Int → Option (Except String (ResourceUsageSummary C))
  | [] => some (.error "failed to get any resource usage data")
  | perc :: percentiles => do
    let data ← mergeWorkers (perc :: percentiles) workers
    let summary ← summarize data (sortedKeys data perc) (perc :: percentiles)
    return .ok summary

end Model

variable {name : String}

section Collecting
variable {C : Type}

/-- What a series says of one container, sample by sample. -/
def usagesOf (timeSeries : List (ResourceUsagePerContainer C)) (name : String) :
    List (ContainerResourceUsage C) :=
  timeSeries.filterMap (Map.get · name)

def dataOf (usages : List (ContainerResourceUsage C)) : UsageDataPerContainer C where
  cpuData := usages.map ContainerResourceUsage.cpuUsageInCores
  memUseData := usages.map ContainerResourceUsage.memoryUsageInBytes
  memWorkSetData := usages.map ContainerResourceUsage.memoryWorkingSetInBytes

theorem dataOf_add (usages : List (ContainerResourceUsage C)) (u : ContainerResourceUsage C) :
    (dataOf usages).add u = dataOf (usages ++ [u]) := by
  simp only [dataOf, UsageDataPerContainer.add, List.map_append, List.map_singleton]

/-- What is known of a container after these samples of it. -/
def known (usages : List (ContainerResourceUsage C)) : Option (UsageDataPerContainer C) :=
  if usages = [] then none else some (dataOf usages)

theorem known_getD (usages : List (ContainerResourceUsage C)) :
    (known usages).getD noData = dataOf usages := by
  rw [known]
  split
  next h =>
    subst h
    rfl
  next => rfl

variable {dataMap : Map String (UsageDataPerContainer C)}

theorem get_addSample {usages : List (ContainerResourceUsage C)}
    (h : dataMap.get name = known usages) (e : String × ContainerResourceUsage C) :
    (addSample dataMap e).get name = known (usages ++ if e.1 = name then [e.2] else []) := by
  rw [addSample, Map.get_set]
  by_cases same : name = e.1
  · subst same
    rw [if_pos rfl, if_pos rfl, h, known_getD, dataOf_add, known,
      if_neg (List.append_ne_nil_of_right_ne_nil _ (List.cons_ne_nil _ _))]
  · rw [if_neg same, if_neg (Ne.symm same), List.append_nil, h]

theorem get_addSamples {usages : List (ContainerResourceUsage C)}
    (h : dataMap.get name = known usages) (es : List (String × ContainerResourceUsage C)) :
    (es.foldl addSample dataMap).get name =
      known (usages ++ (es.filter fun e => e.1 = name).map Prod.snd) := by
  induction es generalizing dataMap usages with
  | nil =>
    rw [List.filter_nil, List.map_nil, List.append_nil]
    exact h
  | cons e es ih =>
    rw [List.foldl_cons, ih (get_addSample h e), List.append_assoc]
    by_cases same : e.1 = name
    · rw [if_pos same, List.filter_cons_of_pos (by simpa using same)]
      rfl
    · rw [if_neg same, List.filter_cons_of_neg (by simpa using same)]
      rfl

theorem collect_get (timeSeries : List (ResourceUsagePerContainer C)) (name : String) :
    (collect timeSeries).get name = known (usagesOf timeSeries name) := by
  have general : ∀ (dataMap : Map String (UsageDataPerContainer C)) usages,
      dataMap.get name = known usages →
        (timeSeries.foldl (fun dataMap sample => sample.entries.foldl addSample dataMap)
          dataMap).get name = known (usages ++ usagesOf timeSeries name) := by
    induction timeSeries with
    | nil =>
      intro dataMap usages h
      rw [usagesOf, List.filterMap_nil, List.append_nil]
      exact h
    | cons sample rest ih =>
      intro dataMap usages h
      rw [List.foldl_cons, ih _ _ (get_addSamples h sample.entries), Map.filter_entries,
        List.append_assoc, usagesOf, usagesOf, List.filterMap_cons]
      cases sample.get name <;> rfl
  exact general empty [] rfl

end Collecting

section Percentiles
variable {C : Type}

def Valid (perc : Int) : Prop := 1 ≤ perc ∧ perc ≤ 100

variable {perc : Int}

theorem percentileIndex_spec {n : Nat} (pos : 0 < n) (valid : Valid perc) :
    ∃ i : Nat, percentileIndex n perc = i ∧ i < n ∧ 100 * i < perc.toNat * n ∧
      perc.toNat * n ≤ 100 * (i + 1) := by
  have hlow := valid.1
  have hhigh := valid.2
  obtain ⟨p, rfl⟩ := Int.eq_ofNat_of_zero_le (show 0 ≤ perc by omega)
  obtain ⟨i, hi, hrank, before, covers⟩ :=
    @exists_nearestRank n p pos (by omega) (by omega)
  refine ⟨i, ?_, hi, before, covers⟩
  have hmul := (Int.natCast_mul n p).symm
  rw [nearestRank_eq] at hrank
  rw [percentileIndex]
  omega

theorem at?_of_lt {A : Type} {xs : List A} {i : Nat} (h : i < xs.length) :
    at? xs i = some xs[i] := by
  rw [at?, if_pos (Int.natCast_nonneg i), Int.toNat_natCast, List.getElem?_eq_getElem h]

theorem percentileData_eq_fill (dataMap : Map String (UsageDataPerContainer C)) (perc : Int) :
    percentileData dataMap perc =
      Map.fill (fun k => (dataMap.get k).bind (percentileUsage perc k)) dataMap.keys empty := by
  have general : ∀ es : List (String × UsageDataPerContainer C), es ⊆ dataMap.entries →
      ∀ data : ResourceUsagePerContainer C,
      es.foldlM (fun data e => (percentileUsage perc e.1 e.2).map (Map.set data e.1)) data =
        Map.fill (fun k => (dataMap.get k).bind (percentileUsage perc k)) (es.map Prod.fst)
          data := by
    intro es
    induction es with
    | nil => exact fun _ _ => rfl
    | cons e es ih =>
      intro hsub data
      rw [List.cons_subset] at hsub
      rw [Map.fill, List.map_cons, List.foldlM_cons, List.foldlM_cons, Map.get_of_mem hsub.1,
        Option.bind_some]
      cases percentileUsage perc e.1 e.2 with
      | none => rfl
      | some u => exact ih hsub.2 _
  exact general dataMap.entries (List.Subset.refl _) empty

/-- The working sets that a series has of one container. -/
def workingSets (timeSeries : List (ResourceUsagePerContainer C)) (name : String) : List Nat :=
  (usagesOf timeSeries name).map ContainerResourceUsage.memoryWorkingSetInBytes

variable [LE C] [DecidableLE C]

theorem sortAll_get (dataMap : Map String (UsageDataPerContainer C)) (name : String) :
    (sortAll dataMap).get name = (dataMap.get name).map UsageDataPerContainer.sort :=
  Map.get_adjust dataMap _ name

theorem percentileUsage_sort (valid : Valid perc) (name : String)
    {usages : List (ContainerResourceUsage C)} (some : usages ≠ []) :
    ∃ u, percentileUsage perc name (dataOf usages).sort = Option.some u ∧
      IsPercentile perc.toNat (usages.map ContainerResourceUsage.memoryWorkingSetInBytes)
        u.memoryWorkingSetInBytes := by
  set v := (dataOf usages).sort
  have hcpu : v.cpuData.length = usages.length := by simp [v, UsageDataPerContainer.sort, dataOf]
  have huse : v.memUseData.length = usages.length := by
    simp [v, UsageDataPerContainer.sort, dataOf]
  have hset : v.memWorkSetData.Perm
      (usages.map ContainerResourceUsage.memoryWorkingSetInBytes) := List.perm_insertionSort _ _
  have hlength : v.memWorkSetData.length = usages.length := by
    rw [hset.length_eq, List.length_map]
  have sorted : v.memWorkSetData.Pairwise (· ≤ ·) := List.pairwise_insertionSort (· ≤ ·) _
  obtain ⟨i, hindex, hi, before, covers⟩ :=
    percentileIndex_spec (List.length_pos_iff.mpr some) valid
  refine ⟨⟨name, v.cpuData[i], v.memUseData[i], v.memWorkSetData[i]⟩, ?_, ?_⟩
  · rw [← hcpu] at hindex
    rw [percentileUsage, hindex, at?_of_lt (by omega), at?_of_lt (by omega),
      at?_of_lt (by omega)]
    rfl
  · rw [← hlength] at before covers
    exact (sorted_isPercentile sorted (by omega) before covers).perm hset

/-- For a container of the series there is a percentile, for any other none. -/
theorem percentileData_collect (valid : Valid perc)
    (timeSeries : List (ResourceUsagePerContainer C)) :
    ∃ data, percentileData (sortAll (collect timeSeries)) perc = some data ∧ ∀ name,
      (usagesOf timeSeries name = [] → data.get name = none) ∧
      (usagesOf timeSeries name ≠ [] → ∃ u, data.get name = some u ∧
        IsPercentile perc.toNat (workingSets timeSeries name) u.memoryWorkingSetInBytes) := by
  set dataMap := sortAll (collect timeSeries)
  have hget : ∀ name, dataMap.get name =
      (known (usagesOf timeSeries name)).map UsageDataPerContainer.sort := by
    intro name
    rw [sortAll_get, collect_get]
  have husage : ∀ name, usagesOf timeSeries name ≠ [] → ∃ u,
      (dataMap.get name).bind (percentileUsage perc name) = some u ∧
        IsPercentile perc.toNat (workingSets timeSeries name) u.memoryWorkingSetInBytes := by
    intro name hne
    rw [hget, known, if_neg hne]
    exact percentileUsage_sort valid name hne
  have hnone : ∀ name, usagesOf timeSeries name = [] → dataMap.get name = none := by
    intro name heq
    rw [hget, known, if_pos heq]
    rfl
  have defined : ∀ name ∈ dataMap.keys,
      ((dataMap.get name).bind (percentileUsage perc name)).isSome = true := by
    intro name hmem
    by_cases heq : usagesOf timeSeries name = []
    · rw [Map.mem_keys, hnone name heq] at hmem
      cases hmem
    · obtain ⟨u, hu, -⟩ := husage name heq
      rw [hu]
      rfl
  rw [percentileData_eq_fill]
  obtain ⟨data, hfill, hdata⟩ := Map.fill_eq_some defined empty
  refine ⟨data, hfill, fun name => ⟨fun heq => ?_, fun hne => ?_⟩⟩
  · rw [hdata, hnone name heq]
    split <;> rfl
  · obtain ⟨u, hu, hpercentile⟩ := husage name hne
    refine ⟨u, ?_, hpercentile⟩
    rw [hdata, if_pos, hu]
    rw [Map.mem_keys]
    cases hget : dataMap.get name with
    | none =>
      rw [hget] at hu
      cases hu
    | some v => rfl

end Percentiles

section Tables
variable {C : Type}

/-- The table has the percentile of every container of `series`, and of no other. -/
def Tells (percentiles : List Int) (series : List (ResourceUsagePerContainer C))
    (data : Percentiles C) : Prop :=
  ∀ perc ∈ percentiles, ∀ name,
    (usagesOf series name = [] → usageAt data perc name = none) ∧
    (usagesOf series name ≠ [] → ∃ u, usageAt data perc name = some u ∧
      IsPercentile perc.toNat (workingSets series name) u.memoryWorkingSetInBytes)

/-- Where the left table has the percentile, the entries of both are there, and
those of the right one prevail. -/
theorem usageAt_leftMergeData {left right : Percentiles C} {perc : Int}
    (h : (left.get perc).isSome = true) (name : String) :
    usageAt (leftMergeData left right) perc name =
      (usageAt right perc name).or (usageAt left perc name) := by
  obtain ⟨data, hdata⟩ := Option.isSome_iff_exists.mp h
  rw [usageAt, leftMergeData, Map.get_adjust, usageAt, usageAt, hdata]
  cases hright : right.get perc with
  | none => rfl
  | some other => exact Map.get_merge data other name

/-- Every container name is observed by one worker only. -/
def OwnContainers (workers : List (Worker C)) : Prop :=
  workers.Pairwise fun w v => ∀ name,
    usagesOf w.dataSeries name = [] ∨ usagesOf v.dataSeries name = []

/-- The table has the percentiles of the containers of these workers. -/
structure Holds (percentiles : List Int) (workers : List (Worker C)) (data : Percentiles C) :
    Prop where
  has : ∀ perc ∈ percentiles, ∀ w ∈ workers, ∀ name, usagesOf w.dataSeries name ≠ [] →
    ∃ u, usageAt data perc name = some u ∧
      IsPercentile perc.toNat (workingSets w.dataSeries name) u.memoryWorkingSetInBytes
  only : ∀ perc ∈ percentiles, ∀ name, (∀ w ∈ workers, usagesOf w.dataSeries name = []) →
    usageAt data perc name = none

/-- A worker that has sampled something is added to the table. -/
theorem Holds.merge {percentiles : List Int} {workers : List (Worker C)}
    {data stats : Percentiles C} {w : Worker C} (holds : Holds percentiles workers data)
    (own : ∀ v ∈ workers, ∀ name,
      usagesOf v.dataSeries name = [] ∨ usagesOf w.dataSeries name = [])
    (whole : ∀ perc ∈ percentiles, (stats.get perc).isSome = true)
    (tells : Tells percentiles w.dataSeries stats) :
    Holds percentiles (workers ++ [w]) (leftMergeData stats data) := by
  constructor
  · intro perc hperc v hv name observed
    rw [usageAt_leftMergeData (whole perc hperc)]
    rcases List.mem_append.mp hv with hv | hv
    · obtain ⟨u, hu, hpercentile⟩ := holds.has perc hperc v hv name observed
      exact ⟨u, by rw [hu]; rfl, hpercentile⟩
    · obtain rfl := List.mem_singleton.mp hv
      have hnew : usageAt data perc name = none := by
        refine holds.only perc hperc name fun v' hv' => ?_
        rcases own v' hv' name with h | h
        · exact h
        · exact absurd h observed
      rw [hnew]
      exact (tells perc hperc name).2 observed
  · intro perc hperc name none
    have hold := holds.only perc hperc name fun v hv => none v (List.mem_append_left _ hv)
    have hnew := (tells perc hperc name).1 (none w (by simp))
    rw [usageAt_leftMergeData (whole perc hperc), hold, hnew]
    rfl

/-- The workers up to the last one without a sample, and those after it. -/
theorem exists_dropped (workers : List (Worker C)) :
    ∃ dropped live, workers = dropped ++ live ∧ (∀ w ∈ live, w.dataSeries ≠ []) ∧
      (dropped = [] ∨ ∃ before last, dropped = before ++ [last] ∧ last.dataSeries = []) := by
  induction workers using List.reverseRecOn with
  | nil => exact ⟨[], [], rfl, nofun, .inl rfl⟩
  | append_singleton workers w ih =>
    obtain ⟨dropped, live, rfl, sampled, ends⟩ := ih
    by_cases none : w.dataSeries = []
    · exact ⟨(dropped ++ live) ++ [w], [], by rw [List.append_nil], nofun,
        .inr ⟨dropped ++ live, w, rfl, none⟩⟩
    · refine ⟨dropped, live ++ [w], by rw [List.append_assoc], ?_, ends⟩
      exact List.forall_mem_append.mpr ⟨sampled, List.forall_mem_singleton.mpr none⟩

end Tables

section Merging
variable {C : Type} [LE C] [DecidableLE C]
variable {percentiles : List Int}

theorem computePercentiles_tells (valid : ∀ perc ∈ percentiles, Valid perc)
    {series : List (ResourceUsagePerContainer C)} (some : series ≠ []) :
    ∃ stats, computePercentiles series percentiles = Option.some stats ∧
      (∀ perc ∈ percentiles, (stats.get perc).isSome = true) ∧ Tells percentiles series stats := by
  have defined : ∀ perc ∈ percentiles,
      (percentileData (sortAll (collect series)) perc).isSome = true := by
    intro perc hperc
    obtain ⟨data, hdata, -⟩ := percentileData_collect (valid perc hperc) series
    rw [hdata]
    rfl
  obtain ⟨stats, hfill, hget⟩ := Map.fill_eq_some defined empty
  rw [computePercentiles, if_neg some]
  refine ⟨stats, hfill, fun perc hperc => ?_, fun perc hperc name => ?_⟩
  · rw [hget, if_pos hperc]
    exact defined perc hperc
  · obtain ⟨data, hdata, hnames⟩ := percentileData_collect (valid perc hperc) series
    rw [usageAt, hget, if_pos hperc, hdata]
    exact hnames name

def mergeAll (percentiles : List Int) (workers : List (Worker C)) (data : Percentiles C) :
    Option (Percentiles C) :=
  workers.foldlM (fun data w =>
    (computePercentiles w.dataSeries percentiles).map (leftMergeData · data)) data

theorem mergeWorkers_eq (percentiles : List Int) (workers : List (Worker C)) :
    mergeWorkers percentiles workers =
      mergeAll percentiles (workers.filter Worker.finished) empty := by
  rw [mergeWorkers, mergeAll]
  generalize (empty : Percentiles C) = data
  induction workers generalizing data with
  | nil => rfl
  | cons w workers ih =>
    cases hfinished : w.finished with
    | true =>
      rw [List.filter_cons_of_pos hfinished, List.foldlM_cons,
        if_pos hfinished]
      exact congrArg _ (funext ih)
    | false =>
      have hnot : ¬ w.finished = true := Bool.not_eq_true _ ▸ hfinished
      rw [List.filter_cons_of_neg hnot, List.foldlM_cons, if_neg hnot]
      exact ih data

section
variable (valid : ∀ perc ∈ percentiles, Valid perc)
include valid

theorem computePercentiles_total (series : List (ResourceUsagePerContainer C)) :
    ∃ stats, computePercentiles series percentiles = some stats := by
  by_cases none : series = []
  · exact ⟨empty, if_pos none⟩
  · obtain ⟨stats, hstats, -⟩ := computePercentiles_tells valid none
    exact ⟨stats, hstats⟩

theorem mergeAll_total (workers : List (Worker C)) (data : Percentiles C) :
    ∃ data', mergeAll percentiles workers data = some data' := by
  induction workers generalizing data with
  | nil => exact ⟨data, rfl⟩
  | cons w workers ih =>
    obtain ⟨stats, hstats⟩ := computePercentiles_total valid w.dataSeries
    obtain ⟨data', hdata'⟩ := ih (leftMergeData stats data)
    refine ⟨data', ?_⟩
    rw [mergeAll, List.foldlM_cons, hstats]
    exact hdata'

/-- While every worker has sampled something, nothing is dropped. -/
theorem mergeAll_holds {before workers : List (Worker C)} {data : Percentiles C}
    (holds : Holds percentiles before data) (own : OwnContainers (before ++ workers))
    (sampled : ∀ w ∈ workers, w.dataSeries ≠ []) :
    ∃ data', mergeAll percentiles workers data = some data' ∧
      Holds percentiles (before ++ workers) data' := by
  induction workers generalizing before data with
  | nil =>
    rw [List.append_nil]
    exact ⟨data, rfl, holds⟩
  | cons w workers ih =>
    obtain ⟨hw, hworkers⟩ := List.forall_mem_cons.mp sampled
    obtain ⟨stats, hstats, whole, tells⟩ := computePercentiles_tells valid hw
    have hown : ∀ v ∈ before, ∀ name,
        usagesOf v.dataSeries name = [] ∨ usagesOf w.dataSeries name = [] := by
      intro v hv
      exact (List.pairwise_append.mp own).2.2 v hv w List.mem_cons_self
    rw [List.append_cons] at own ⊢
    obtain ⟨data', hdata', hholds⟩ := ih (holds.merge hown whole tells) own hworkers
    refine ⟨data', ?_, hholds⟩
    rw [mergeAll, List.foldlM_cons, hstats]
    exact hdata'

/-- Only the workers after the last one without a sample are in the table. -/
theorem mergeAll_append {dropped live : List (Worker C)} (own : OwnContainers (dropped ++ live))
    (sampled : ∀ w ∈ live, w.dataSeries ≠ [])
    (ends : dropped = [] ∨ ∃ before last, dropped = before ++ [last] ∧ last.dataSeries = []) :
    ∃ data, mergeAll percentiles (dropped ++ live) empty = some data ∧
      Holds percentiles live data := by
  have hdropped : mergeAll percentiles dropped empty = some empty := by
    rcases ends with rfl | ⟨before, last, rfl, none⟩
    · rfl
    · obtain ⟨data, hdata⟩ := mergeAll_total valid before empty
      rw [mergeAll] at hdata
      rw [mergeAll, List.foldlM_append, hdata]
      have hlast : computePercentiles last.dataSeries percentiles = some empty := if_pos none
      simp only [List.foldlM_cons, hlast]
      rfl
  have hempty : Holds percentiles ([] : List (Worker C)) empty :=
    ⟨fun _ _ => nofun, fun _ _ _ _ => rfl⟩
  have hown : OwnContainers live := (List.pairwise_append.mp own).2.1
  obtain ⟨data, hdata, holds⟩ := mergeAll_holds valid hempty hown sampled
  refine ⟨data, ?_, holds⟩
  rw [mergeAll] at hdropped hdata
  rw [mergeAll, List.foldlM_append, hdropped]
  exact hdata

end

end Merging

section Summarizing
variable {C : Type}
variable {data : Percentiles C} {perc : Int}

theorem mem_sortedKeys :
    name ∈ sortedKeys data perc ↔ (usageAt data perc name).isSome = true := by
  rw [sortedKeys, List.mem_insertionSort, usageAt]
  cases data.get perc with
  | none => exact iff_of_false List.not_mem_nil Bool.false_ne_true
  | some m => exact Map.mem_keys

/-- What the summary has after the entries of `visited` have been added. -/
structure Written (data : Percentiles C) (visited : List (Int × String))
    (summary : ResourceUsageSummary C) : Prop where
  has : ∀ v ∈ visited, ∃ entries, summary.get (toString v.1) = some entries ∧
    ∃ e ∈ entries, e.name = v.2
  only : ∀ key entries, summary.get key = some entries → ∀ e ∈ entries, ∃ perc u,
    (perc, e.name) ∈ visited ∧ toString perc = key ∧ usageAt data perc e.name = some u ∧
      e.mem = u.memoryWorkingSetInBytes

variable {visited : List (Int × String)} {summary : ResourceUsageSummary C}

section
variable (written : Written data visited summary)
include written

theorem Written.addEntry {u : ContainerResourceUsage C} (hu : usageAt data perc name = some u) :
    ∃ summary', addEntry data perc summary name = some summary' ∧
      Written data (visited ++ [(perc, name)]) summary' := by
  rw [ResourceUsage.addEntry, hu]
  refine ⟨_, rfl, ?_, ?_⟩
  · intro v hv
    rw [Map.get_set]
    split
    next same =>
      refine ⟨_, rfl, ?_⟩
      rcases List.mem_append.mp hv with hv | hv
      · obtain ⟨entries, hget, e, he, hname⟩ := written.has v hv
        rw [← same, hget]
        exact ⟨e, List.mem_append_left _ he, hname⟩
      · rw [List.mem_singleton.mp hv]
        exact ⟨_, List.mem_append_right _ List.mem_cons_self, rfl⟩
    next other =>
      rcases List.mem_append.mp hv with hv | hv
      · exact written.has v hv
      · rw [List.mem_singleton.mp hv] at other
        exact absurd rfl other
  · intro key entries hget e he
    have hold : ∀ entries, summary.get key = some entries → e ∈ entries → ∃ perc' u,
        (perc', e.name) ∈ visited ++ [(perc, name)] ∧ toString perc' = key ∧
          usageAt data perc' e.name = some u ∧ e.mem = u.memoryWorkingSetInBytes := by
      intro entries hget he
      obtain ⟨perc', u', hmem, hrest⟩ := written.only key entries hget e he
      exact ⟨perc', u', List.mem_append_left _ hmem, hrest⟩
    rw [Map.get_set] at hget
    split at hget
    next same =>
      cases hget
      rcases List.mem_append.mp he with he | he
      · cases hold' : summary.get (toString perc) with
        | none =>
          rw [hold'] at he
          cases he
        | some entries =>
          rw [hold'] at he
          exact hold entries (same ▸ hold') he
      · rw [List.mem_singleton.mp he]
        exact ⟨perc, u, by simp, same.symm, hu, rfl⟩
    next other => exact hold entries hget he

theorem Written.names {names : List String}
    (defined : ∀ name ∈ names, (usageAt data perc name).isSome = true) :
    ∃ summary', names.foldlM (ResourceUsage.addEntry data perc) summary = some summary' ∧
      Written data (visited ++ names.map (perc, ·)) summary' := by
  induction names generalizing visited summary with
  | nil =>
    rw [List.map_nil, List.append_nil]
    exact ⟨summary, rfl, written⟩
  | cons name names ih =>
    obtain ⟨hname, hnames⟩ := List.forall_mem_cons.mp defined
    obtain ⟨u, hu⟩ := Option.isSome_iff_exists.mp hname
    obtain ⟨next, hnext, written'⟩ := written.addEntry hu
    obtain ⟨last, hlast, written''⟩ := ih written' hnames
    rw [List.map_cons, List.append_cons]
    refine ⟨last, ?_, written''⟩
    rw [List.foldlM_cons, hnext]
    exact hlast

theorem Written.percentiles {names : List String} {percentiles : List Int}
    (defined : ∀ perc ∈ percentiles, ∀ name ∈ names, (usageAt data perc name).isSome = true) :
    ∃ summary', percentiles.foldlM (fun summary perc =>
        names.foldlM (ResourceUsage.addEntry data perc) summary) summary = some summary' ∧
      Written data (visited ++ percentiles ×ˢ names) summary' := by
  induction percentiles generalizing visited summary with
  | nil =>
    rw [List.nil_product, List.append_nil]
    exact ⟨summary, rfl, written⟩
  | cons perc percentiles ih =>
    obtain ⟨hperc, hpercentiles⟩ := List.forall_mem_cons.mp defined
    obtain ⟨next, hnext, written'⟩ := written.names hperc
    obtain ⟨last, hlast, written''⟩ := ih written' hpercentiles
    rw [List.product_cons, ← List.append_assoc]
    refine ⟨last, ?_, written''⟩
    rw [List.foldlM_cons, hnext]
    exact hlast

end

theorem toString_inj {perc' : Int} (valid : Valid perc) (valid' : Valid perc')
    (h : toString perc = toString perc') : perc = perc' :=
  SeparatedNames.toString_inj_of_nonneg (by have := valid.1; omega) (by have := valid'.1; omega) h

end Summarizing

/-- The summary has the container among its entries for the percentile, and
with the nearest-rank percentile of the samples. -/
def Reports {C : Type} (summary : ResourceUsageSummary C) (perc : Int) (name : String)
    (samples : List Nat) : Prop :=
  ∃ entries, summary.get (toString perc) = some entries ∧ (∃ e ∈ entries, e.name = name) ∧
    ∀ e ∈ entries, e.name = name → IsPercentile perc.toNat samples e.mem

section Result
variable {C : Type} [LE C] [DecidableLE C]

def Observed (w : Worker C) (name : String) : Prop := usagesOf w.dataSeries name ≠ []

omit [LE C] [DecidableLE C] in
theorem Holds.usageAt_isSome_iff {percentiles : List Int} {workers : List (Worker C)}
    {data : Percentiles C} (holds : Holds percentiles workers data) {perc : Int}
    (hperc : perc ∈ percentiles) (name : String) :
    (usageAt data perc name).isSome = true ↔ ∃ w ∈ workers, Observed w name := by
  constructor
  · intro h
    by_contra none
    push Not at none
    rw [holds.only perc hperc name fun w hw => not_not.mp (none w hw)] at h
    cases h
  · rintro ⟨w, hw, observed⟩
    obtain ⟨u, hu, -⟩ := holds.has perc hperc w hw name observed
    rw [hu]
    rfl

/-- Of the finished workers, those after the last one without a sample are in
the summary, and no others. -/
theorem stopAndSummarize_live {workers dropped live : List (Worker C)} {percentiles : List Int}
    (some : percentiles ≠ []) (valid : ∀ perc ∈ percentiles, Valid perc)
    (hsplit : workers.filter Worker.finished = dropped ++ live)
    (own : OwnContainers (dropped ++ live)) (sampled : ∀ w ∈ live, w.dataSeries ≠ [])
    (ends : dropped = [] ∨ ∃ before last, dropped = before ++ [last] ∧ last.dataSeries = []) :
    ∃ summary, stopAndSummarize workers percentiles = Option.some (.ok summary) ∧
      (∀ perc ∈ percentiles, ∀ w ∈ live, ∀ name, Observed w name →
        Reports summary perc name (workingSets w.dataSeries name)) ∧
      ∀ perc ∈ percentiles, ∀ name samples, Reports summary perc name samples →
        ∃ w ∈ live, Observed w name := by
  obtain ⟨data, hdata, holds⟩ := mergeAll_append valid own sampled ends
  cases percentiles with
  | nil => exact absurd rfl some
  | cons first rest =>
    have keys : ∀ name, name ∈ sortedKeys data first ↔ ∃ w ∈ live, Observed w name := by
      intro name
      rw [mem_sortedKeys]
      exact holds.usageAt_isSome_iff List.mem_cons_self name
    have defined : ∀ perc ∈ first :: rest, ∀ name ∈ sortedKeys data first,
        (usageAt data perc name).isSome = true := by
      intro perc hperc name hname
      exact (holds.usageAt_isSome_iff hperc name).mpr ((keys name).mp hname)
    have start : Written data [] (empty : ResourceUsageSummary C) := ⟨nofun, nofun⟩
    obtain ⟨summary, hsummary, written⟩ := start.percentiles defined
    refine ⟨summary, ?_, ?_, ?_⟩
    · rw [stopAndSummarize, mergeWorkers_eq, hsplit, hdata, Option.bind_eq_bind, Option.bind_some,
        summarize, hsummary]
      rfl
    · intro perc hperc w hw name observed
      have hname := (keys name).mpr ⟨w, hw, observed⟩
      obtain ⟨entries, hget, hentry⟩ :=
        written.has (perc, name) (List.mem_product.mpr ⟨hperc, hname⟩)
      refine ⟨entries, hget, hentry, ?_⟩
      rintro e he rfl
      obtain ⟨perc', u, hmem, hkey, hu, hmemory⟩ := written.only _ entries hget e he
      have hperc' := (List.mem_product.mp hmem).1
      obtain rfl := toString_inj (valid perc' hperc') (valid perc hperc) hkey
      obtain ⟨u', hu', hpercentile⟩ := holds.has perc' hperc w hw e.name observed
      obtain rfl := Option.some.inj (hu.symm.trans hu')
      rw [hmemory]
      exact hpercentile
    · rintro perc hperc name samples ⟨entries, hget, ⟨e, he, rfl⟩, -⟩
      obtain ⟨perc', u, hmem, -⟩ := written.only _ entries hget e he
      exact (keys e.name).mp (List.mem_product.mp hmem).2

omit [LE C] [DecidableLE C] in
/-- Nothing is dropped if and only if no worker without a sample follows one
that has observed a container. -/
theorem dropped_unobserved_iff {dropped live : List (Worker C)}
    (sampled : ∀ w ∈ live, w.dataSeries ≠ [])
    (ends : dropped = [] ∨ ∃ before last, dropped = before ++ [last] ∧ last.dataSeries = []) :
    (∀ w ∈ dropped, ∀ name, ¬ Observed w name) ↔
      (dropped ++ live).Pairwise fun w v => (∃ name, Observed w name) → v.dataSeries ≠ [] := by
  constructor
  · intro unobserved
    refine List.pairwise_append.mpr ⟨?_, ?_, ?_⟩
    · refine List.pairwise_of_forall_mem_list fun w hw v _ => ?_
      rintro ⟨name, observed⟩
      exact absurd observed (unobserved w hw name)
    · exact List.pairwise_of_forall_mem_list fun w _ v hv _ => sampled v hv
    · exact fun w _ v hv _ => sampled v hv
  · intro ordered w hw name observed
    rcases ends with rfl | ⟨before, last, rfl, none⟩
    · cases hw
    · have hpairs := (List.pairwise_append.mp (List.pairwise_append.mp ordered).1).2.2
      rcases List.mem_append.mp hw with hw | hw
      · exact hpairs w hw last List.mem_cons_self ⟨name, observed⟩ none
      · rw [List.mem_singleton.mp hw, Observed, none] at observed
        exact observed rfl

/-- Every container of every finished worker is in the summary, with its
nearest-rank percentiles, if and only if no finished worker without a sample
stands after a finished worker that has observed a container. -/
theorem containers_reported_iff {workers : List (Worker C)} {percentiles : List Int}
    (some : percentiles ≠ []) (valid : ∀ perc ∈ percentiles, Valid perc)
    (own : OwnContainers workers) :
    (∃ summary, stopAndSummarize workers percentiles = Option.some (.ok summary) ∧
      ∀ perc ∈ percentiles, ∀ w ∈ workers, w.finished = true → ∀ name, Observed w name →
        Reports summary perc name (workingSets w.dataSeries name)) ↔
      (workers.filter Worker.finished).Pairwise fun w v =>
        (∃ name, Observed w name) → v.dataSeries ≠ [] := by
  obtain ⟨dropped, live, hsplit, sampled, ends⟩ :=
    exists_dropped (workers.filter Worker.finished)
  have own' : OwnContainers (dropped ++ live) := hsplit ▸ List.Pairwise.filter _ own
  obtain ⟨summary, hsummary, reported, reports⟩ :=
    stopAndSummarize_live some valid hsplit own' sampled ends
  have finished : ∀ w, w ∈ workers ∧ w.finished = true ↔ w ∈ dropped ∨ w ∈ live := by
    intro w
    rw [← List.mem_append, ← hsplit, List.mem_filter]
  rw [hsplit, ← dropped_unobserved_iff sampled ends]
  constructor
  · rintro ⟨summary', hsummary', all⟩ w hw name observed
    obtain rfl := Except.ok.inj (Option.some.inj (hsummary'.symm.trans hsummary))
    obtain ⟨perc, hperc⟩ := List.exists_mem_of_ne_nil percentiles some
    have hfinished := (finished w).mpr (.inl hw)
    obtain ⟨v, hv, observed'⟩ :=
      reports perc hperc name _ (all perc hperc w hfinished.1 hfinished.2 name observed)
    rcases (List.pairwise_append.mp own').2.2 w hw v hv name with h | h
    · exact observed h
    · exact observed' h
  · intro unobserved
    refine ⟨summary, hsummary, fun perc hperc w hw hfinished name observed => ?_⟩
    rcases (finished w).mp ⟨hw, hfinished⟩ with hdropped | hlive
    · exact absurd observed (unobserved w hdropped name)
    · exact reported perc hperc w hlive name observed

end Result

section Sample

def usage (name : String) (mem : Nat) : ContainerResourceUsage Nat := ⟨name, 1, mem, mem⟩

/-- A worker with two samples, in the second of which there is one more container. -/
def sampling : Worker Nat :=
  ⟨"node-1", true,
    [Map.set empty "a/proxy" (usage "a/proxy" 300),
      Map.set (Map.set empty "b/dns" (usage "b/dns" 70)) "a/proxy" (usage "a/proxy" 100)]⟩

def stoppedEarly : Worker Nat := ⟨"node-2", true, []⟩

theorem own_sample : OwnContainers [stoppedEarly, sampling] := by
  refine List.pairwise_pair.mpr fun name => .inl rfl

theorem stopped_early_first_reported :
    ∃ summary, stopAndSummarize [stoppedEarly, sampling] [50, 99] = some (.ok summary) ∧
      ∀ perc ∈ [50, 99], ∀ w ∈ [stoppedEarly, sampling], w.finished = true → ∀ name,
        Observed w name → Reports summary perc name (workingSets w.dataSeries name) := by
  refine (containers_reported_iff (List.cons_ne_nil _ _) ?_ own_sample).mpr ?_
  · intro perc hperc
    rcases List.mem_pair.mp hperc with rfl | rfl <;> exact ⟨by decide, by decide⟩
  · refine List.pairwise_pair.mpr ?_
    rintro ⟨name, observed⟩
    exact absurd rfl observed

/-- The worker that was stopped early comes last, and the summary is empty. -/
theorem stopped_early_last_drops_all :
    Observed sampling "a/proxy" ∧
      ((stopAndSummarize [sampling, stoppedEarly] [50, 99]).map fun result =>
        result.toOption.map Store.entries) = some (some []) := by
  refine ⟨List.cons_ne_nil _ _, ?_⟩
  decide +kernel

example : ((stopAndSummarize [stoppedEarly, sampling] [50, 99]).map fun result =>
    result.toOption.map Store.entries) =
      some (some [("99", [⟨"a/proxy", 1, 300⟩, ⟨"b/dns", 1, 70⟩]),
        ("50", [⟨"a/proxy", 1, 100⟩, ⟨"b/dns", 1, 70⟩])]) := by
  decide +kernel

end Sample

end ResourceUsage
