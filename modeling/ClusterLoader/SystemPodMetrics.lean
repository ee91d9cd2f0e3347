import ClusterLoader.KeyedStore
import Mathlib.Algebra.Group.Int.Defs
import Mathlib.Algebra.Group.Nat.Defs

/-!
# Restarts of system pods

SystemPodMetrics lists the pods of the system namespace on `start` and again on
`gather`, subtracts the first restart counts from the second and reports the
containers that restarted more often than they may. Restart counts are `int32`
and the numbers allowed are `int`, which is 64 bits wide.

The state of a container that terminated is its text. The parameters of the check
are given, and log output is left out.
-/

namespace SystemPodMetrics

open KeyedStore

/-! ## Snapshots -/

structure ContainerStatus where
  name : String
  restartCount : Int32
  lastTerminated : Option String

structure Pod where
  name : String
  containerStatuses : List ContainerStatus

structure ContainerMetrics where
  name : String
  restartCount : Int32
  lastRestartReason : String

structure PodMetrics where
  name : String
  containers : List ContainerMetrics

structure SystemPodsMetrics where
  pods : List PodMetrics

def extractContainer (container : ContainerStatus) : ContainerMetrics :=
  ⟨container.name, container.restartCount, container.lastTerminated.getD ""⟩

theorem extractContainer_name (container : ContainerStatus) :
    (extractContainer container).name = container.name := rfl

def extractPod (pod : Pod) : PodMetrics :=
  ⟨pod.name, pod.containerStatuses.map extractContainer⟩

def extractMetrics (lst : List Pod) : SystemPodsMetrics := ⟨lst.map extractPod⟩

/-! ## Subtracting the first snapshot -/

/-- `initRestarts[initPod.Name]` after the loop over the containers. -/
def podRestarts (initPod : PodMetrics) : Map String Int32 :=
  initPod.containers.foldl (fun m c => m.set c.name c.restartCount) Store.empty

def initRestarts (initMetrics : SystemPodsMetrics) : Map String (Map String Int32) :=
  initMetrics.pods.foldl (fun m initPod => m.set initPod.name (podRestarts initPod)) Store.empty

def subtractFrom (initRestarts : Map String (Map String Int32)) (pod : String)
    (container : ContainerMetrics) : ContainerMetrics :=
  match initRestarts.get pod with
  | none => container
  | some initPod =>
    match initPod.get container.name with
    | none => container
    | some initRestartCount =>
      { container with restartCount := container.restartCount - initRestartCount }

def subtractFromPod (initRestarts : Map String (Map String Int32)) (pod : PodMetrics) :
    PodMetrics :=
  ⟨pod.name, pod.containers.map (subtractFrom initRestarts pod.name)⟩

def subtractInitialRestartCounts (metrics initMetrics : SystemPodsMetrics) : SystemPodsMetrics :=
  ⟨metrics.pods.map (subtractFromPod (initRestarts initMetrics))⟩

/-! ## The check -/

def defaultRestartCountThresholdKey : String := "default"

def getMaxAllowedRestarts (containerName : String) (thresholdOverrides : Map String Int64) :
    Int64 :=
  match thresholdOverrides.get containerName with
  | some override => override
  | none =>
    match thresholdOverrides.get defaultRestartCountThresholdKey with
    | some override => override
    | none => 0

structure Violation where
  pod : String
  container : String
  restartCount : Int32
  maxAllowedRestarts : Int64

def Violation.message (v : Violation) : String :=
  "RestartCount(" ++ v.pod ++ ", " ++ v.container ++ ")=" ++ toString v.restartCount ++
    ", want <= " ++ toString v.maxAllowedRestarts

def violationOf (overrides : Map String Int64) (pod : String) (c : ContainerMetrics) :
    Option Violation :=
  let maxAllowedRestarts := getMaxAllowedRestarts c.name overrides
  -- The number allowed is cut to 32 bits before it is compared.
  if c.restartCount > maxAllowedRestarts.toInt32 then
    some ⟨pod, c.name, c.restartCount, maxAllowedRestarts⟩
  else none

/-- The loop over the containers of a pod. -/
def podViolations (overrides : Map String Int64) (p : PodMetrics) : List Violation :=
  p.containers.filterMap (violationOf overrides p.name)

def violations (metrics : SystemPodsMetrics) (overrides : Map String Int64) : List Violation :=
  metrics.pods.flatMap (podViolations overrides)

def violationError (violations : List Violation) : Option String :=
  if violations = [] then none
  else some ("restart counts violation: " ++ "; ".intercalate (violations.map Violation.message))

def validateRestartCounts (metrics : SystemPodsMetrics) (enabled : Except String Bool)
    (overrides : Map String Int64) : Option String :=
  match enabled with
  | .error err => some err
  | .ok false => none
  | .ok true => violationError (violations metrics overrides)

/-! ## What is to be reported -/

/-- What the API server lists: one pod of a name, with one status for each of its
containers, and counts that are not negative. -/
structure Snapshot where
  pods : List Pod
  pods_nodup : (pods.map (·.name)).Nodup
  containers_nodup : ∀ p ∈ pods, (p.containerStatuses.map (·.name)).Nodup
  counts_nonneg : ∀ p ∈ pods, ∀ c ∈ p.containerStatuses, 0 ≤ c.restartCount.toInt

def Snapshot.restartCount (s : Snapshot) (pod container : String) : Option Int32 :=
  (s.pods.find? fun p => p.name = pod).bind fun p =>
    (p.containerStatuses.find? fun c => c.name = container).map (·.restartCount)

def Snapshot.containers (s : Snapshot) : List (Pod × ContainerStatus) :=
  s.pods.flatMap fun p => p.containerStatuses.map fun c => (p, c)

/-- The restarts between the snapshots. -/
def restarts (initial : Snapshot) (pc : Pod × ContainerStatus) : Int :=
  pc.2.restartCount.toInt - ((initial.restartCount pc.1.name pc.2.name).map (·.toInt)).getD 0

def allowed (overrides : Map String Int64) (pc : Pod × ContainerStatus) : Int :=
  (((overrides.get pc.2.name).or (overrides.get "default")).map (·.toInt)).getD 0

/-- The containers in the report are those with more restarts than are allowed. -/
def ReportsExactly (initial final : Snapshot) (overrides : Map String Int64) : Prop :=
  (violations (subtractInitialRestartCounts (extractMetrics final.pods)
    (extractMetrics initial.pods)) overrides).map (fun v => (v.pod, v.container)) =
      (final.containers.filter fun pc =>
        decide (allowed overrides pc < restarts initial pc)).map fun pc => (pc.1.name, pc.2.name)

/-- Where the number allowed does not fit into 32 bits, what is left of it is on the
same side of the restarts. -/
def Narrows (initial : Snapshot) (overrides : Map String Int64) (pc : Pod × ContainerStatus) :
    Prop :=
  (2 ^ 31 ≤ allowed overrides pc → restarts initial pc ≤ (allowed overrides pc).bmod (2 ^ 32)) ∧
    (allowed overrides pc < -2 ^ 31 →
      (allowed overrides pc).bmod (2 ^ 32) < restarts initial pc)

/-! ## The first counts -/

theorem get_podRestarts {p : Pod} (nodup : (p.containerStatuses.map (·.name)).Nodup)
    (container : String) :
    (podRestarts (extractPod p)).get container =
      (p.containerStatuses.find? fun c => c.name = container).map (·.restartCount) := by
  rw [podRestarts, extractPod, List.foldl_map]
  exact (Map.get_foldl_set _ _ _ nodup container).trans (Option.or_none ..)

theorem get_initRestarts (s : Snapshot) (pod container : String) :
    ((initRestarts (extractMetrics s.pods)).get pod).bind (·.get container) =
      s.restartCount pod container := by
  have hfold : initRestarts (extractMetrics s.pods) =
      s.pods.foldl (fun m p => Map.set m p.name (podRestarts (extractPod p))) Store.empty :=
    List.foldl_map
  rw [hfold, Map.get_foldl_set (fun p : Pod => p.name) _ _ s.pods_nodup pod, Map.get_empty,
    Option.or_none, Snapshot.restartCount]
  cases hp : s.pods.find? fun p => p.name = pod with
  | none => rfl
  | some p =>
    exact get_podRestarts (s.containers_nodup p (List.mem_of_find?_eq_some hp)) container

variable {s : Snapshot}

theorem restartCount_nonneg {pod container : String} {n : Int32}
    (h : s.restartCount pod container = some n) : 0 ≤ n.toInt := by
  obtain ⟨p, hp, hcount⟩ := Option.bind_eq_some_iff.mp h
  obtain ⟨c, hc, rfl⟩ := Option.map_eq_some_iff.mp hcount
  exact s.counts_nonneg p (List.mem_of_find?_eq_some hp) c (List.mem_of_find?_eq_some hc)

variable {pc : Pod × ContainerStatus}

theorem mem_containers : pc ∈ s.containers ↔ pc.1 ∈ s.pods ∧ pc.2 ∈ pc.1.containerStatuses := by
  unfold Snapshot.containers
  simp only [List.mem_flatMap, List.mem_map]
  constructor
  · rintro ⟨p, hp, c, hc, rfl⟩
    exact ⟨hp, hc⟩
  · rintro ⟨hp, hc⟩
    exact ⟨pc.1, hp, pc.2, hc, rfl⟩

/-! ## The difference -/

/-- Counts that are not negative have a difference that fits. -/
theorem toInt_sub_of_nonneg {a b : Int32} (ha : 0 ≤ a.toInt) (hb : 0 ≤ b.toInt) :
    (a - b).toInt = a.toInt - b.toInt := by
  have ha' := a.toInt_lt
  have hb' := b.toInt_lt
  rw [Int32.toInt_sub]
  apply Int.bmod_eq_of_le <;> omega

theorem subtractFrom_name (m : Map String (Map String Int32)) (pod : String)
    (c : ContainerMetrics) : (subtractFrom m pod c).name = c.name := by
  unfold subtractFrom
  split
  · rfl
  · split <;> rfl

variable {initial final : Snapshot}

theorem toInt_subtractFrom (mem : pc ∈ final.containers) :
    (subtractFrom (initRestarts (extractMetrics initial.pods)) pc.1.name
      (extractContainer pc.2)).restartCount.toInt = restarts initial pc := by
  have hfinal := final.counts_nonneg _ (mem_containers.mp mem).1 _ (mem_containers.mp mem).2
  have hget := get_initRestarts initial pc.1.name pc.2.name
  unfold subtractFrom restarts
  rw [← hget]
  cases hpod : (initRestarts (extractMetrics initial.pods)).get pc.1.name with
  | none => exact (Int.sub_zero _).symm
  | some initPod =>
    rw [hpod] at hget
    change (match initPod.get pc.2.name with
      | none => _
      | some n => _ : ContainerMetrics).restartCount.toInt = _
    cases hcontainer : initPod.get pc.2.name with
    | none =>
      simp only [Option.bind_some, hcontainer]
      exact (Int.sub_zero _).symm
    | some n =>
      simp only [Option.bind_some, hcontainer]
      exact toInt_sub_of_nonneg hfinal (restartCount_nonneg (hget.symm.trans hcontainer))

/-! ## The comparison -/

/-- What the check compares for a container. -/
def flagged (initial : Snapshot) (overrides : Map String Int64) (pc : Pod × ContainerStatus) :
    Bool :=
  decide ((subtractFrom (initRestarts (extractMetrics initial.pods)) pc.1.name
    (extractContainer pc.2)).restartCount > (getMaxAllowedRestarts pc.2.name overrides).toInt32)

theorem names_violationOf (initial : Snapshot) (overrides : Map String Int64)
    (pc : Pod × ContainerStatus) :
    (violationOf overrides pc.1.name (subtractFrom (initRestarts (extractMetrics initial.pods))
      pc.1.name (extractContainer pc.2))).map (fun v => (v.pod, v.container)) =
        if flagged initial overrides pc = true then some (pc.1.name, pc.2.name) else none := by
  unfold violationOf
  rw [subtractFrom_name, extractContainer_name]
  by_cases h : flagged initial overrides pc = true
  · rw [if_pos h]
    simp only [if_pos (of_decide_eq_true h), Option.map_some]
  · rw [if_neg h]
    simp only [if_neg fun flag => h (decide_eq_true flag), Option.map_none]

theorem names_podViolations (initial : Snapshot) (overrides : Map String Int64) (p : Pod) :
    (podViolations overrides (subtractFromPod (initRestarts (extractMetrics initial.pods))
      (extractPod p))).map (fun v => (v.pod, v.container)) =
        ((p.containerStatuses.map fun c => (p, c)).filter (flagged initial overrides)).map
          fun pc => (pc.1.name, pc.2.name) := by
  change (((p.containerStatuses.map extractContainer).map (subtractFrom _ p.name)).filterMap
    (violationOf overrides p.name)).map _ = _
  rw [List.map_filterMap, List.map_map, List.filterMap_map]
  induction p.containerStatuses with
  | nil => rfl
  | cons c rest ih =>
    have hfirst := names_violationOf initial overrides (p, c)
    rw [List.filterMap_cons, ih, List.map_cons, List.filter_cons]
    simp only [Function.comp_apply, hfirst]
    by_cases h : flagged initial overrides (p, c) = true
    · simp only [if_pos h, List.map_cons]
    · simp only [if_neg h]

theorem names_violations (initial final : Snapshot) (overrides : Map String Int64) :
    (violations (subtractInitialRestartCounts (extractMetrics final.pods)
      (extractMetrics initial.pods)) overrides).map (fun v => (v.pod, v.container)) =
        (final.containers.filter (flagged initial overrides)).map
          fun pc => (pc.1.name, pc.2.name) := by
  unfold Snapshot.containers
  rw [List.filter_flatMap, List.map_flatMap, violations, List.map_flatMap]
  change List.flatMap _ ((final.pods.map extractPod).map _) = _
  rw [List.map_map, List.flatMap_map]
  exact congrArg final.pods.flatMap (funext (names_podViolations initial overrides))

theorem toInt_getMaxAllowedRestarts (overrides : Map String Int64) (pc : Pod × ContainerStatus) :
    (getMaxAllowedRestarts pc.2.name overrides).toInt = allowed overrides pc := by
  unfold getMaxAllowedRestarts allowed
  rw [defaultRestartCountThresholdKey]
  cases overrides.get pc.2.name with
  | some n => rfl
  | none => cases overrides.get "default" <;> rfl

variable {overrides : Map String Int64}

theorem flagged_iff (mem : pc ∈ final.containers) : flagged initial overrides pc = true ↔
      (allowed overrides pc).bmod (2 ^ 32) < restarts initial pc := by
  rw [flagged, decide_eq_true_iff, gt_iff_lt, Int32.lt_iff_toInt_lt, toInt_subtractFrom mem,
    Int64.toInt_toInt32, toInt_getMaxAllowedRestarts]

theorem restarts_range (mem : pc ∈ final.containers) :
    -2 ^ 31 ≤ restarts initial pc ∧ restarts initial pc < 2 ^ 31 := by
  rw [← toInt_subtractFrom mem]
  exact ⟨Int32.le_toInt _, Int32.toInt_lt _⟩

/-- The comparison is right if the number allowed fits, and otherwise if the part
that is left of it happens to be on the right side. -/
theorem flagged_right_iff (mem : pc ∈ final.containers) :
    (flagged initial overrides pc = true ↔ allowed overrides pc < restarts initial pc) ↔
      Narrows initial overrides pc := by
  have hrange : -2 ^ 31 ≤ restarts initial pc ∧ restarts initial pc < 2 ^ 31 :=
    restarts_range mem
  rw [flagged_iff mem, Narrows]
  by_cases above : 2 ^ 31 ≤ allowed overrides pc
  · constructor <;> intro h <;> omega
  · by_cases below : allowed overrides pc < -2 ^ 31
    · constructor <;> intro h <;> omega
    · have hfits : (allowed overrides pc).bmod (2 ^ 32) = allowed overrides pc := by
        apply Int.bmod_eq_of_le <;> omega
      omega

/-- A container is known by the names of its pod and itself. -/
theorem names_inj {qd : Pod × ContainerStatus} (hpc : pc ∈ s.containers)
    (hqd : qd ∈ s.containers) (h : (pc.1.name, pc.2.name) = (qd.1.name, qd.2.name)) :
    pc = qd := by
  obtain ⟨hp, hc⟩ := mem_containers.mp hpc
  obtain ⟨hq, hd⟩ := mem_containers.mp hqd
  obtain ⟨hpods, hcontainers⟩ := Prod.mk.inj h
  have hpq : pc.1 = qd.1 := List.inj_on_of_nodup_map s.pods_nodup hp hq hpods
  rw [hpq] at hc
  exact Prod.ext hpq
    (List.inj_on_of_nodup_map (s.containers_nodup _ hq) hc hd hcontainers)

theorem reportsExactly_iff (initial final : Snapshot) (overrides : Map String Int64) :
    ReportsExactly initial final overrides ↔
      ∀ pc ∈ final.containers, Narrows initial overrides pc := by
  rw [ReportsExactly, names_violations, map_filter_eq_iff fun _ hx _ hy => names_inj hx hy]
  apply forall₂_congr
  intro pc mem
  rw [decide_eq_true_iff]
  exact flagged_right_iff mem

theorem violationError_eq_none {violations : List Violation} :
    violationError violations = none ↔ violations = [] := by
  unfold violationError
  split <;> simp [*]

/-- The check fails exactly if some container has more restarts than what is left of
the number allowed in 32 bits. -/
theorem validateRestartCounts_eq_none_iff (initial final : Snapshot)
    (overrides : Map String Int64) :
    validateRestartCounts (subtractInitialRestartCounts (extractMetrics final.pods)
      (extractMetrics initial.pods)) (.ok true) overrides = none ↔
        ∀ pc ∈ final.containers, restarts initial pc ≤ (allowed overrides pc).bmod (2 ^ 32) := by
  rw [validateRestartCounts, violationError_eq_none, ← List.map_eq_nil_iff, names_violations,
    List.map_eq_nil_iff, List.filter_eq_nil_iff]
  exact forall₂_congr fun pc mem => by rw [flagged_iff mem, Int.not_lt]

/-! ## A number that does not fit -/

def oneContainer (restartCount : Int32) (nonneg : 0 ≤ restartCount.toInt) : Snapshot where
  pods := [⟨"etcd-0", [⟨"etcd", restartCount, none⟩]⟩]
  pods_nodup := List.nodup_singleton _
  containers_nodup := by
    intro p hp
    obtain rfl := List.mem_singleton.mp hp
    exact List.nodup_singleton _
  counts_nonneg := by
    intro p hp c hc
    obtain rfl := List.mem_singleton.mp hp
    obtain rfl := List.mem_singleton.mp hc
    exact nonneg

/-- As many restarts as fit into 32 bits are allowed, and one more: the first
restart is reported. -/
theorem one_restart_reported :
    ¬ ReportsExactly (oneContainer 0 (by decide)) (oneContainer 1 (by decide))
      (Map.set Store.empty "etcd" 2147483648) := by
  unfold ReportsExactly
  decide +kernel

end SystemPodMetrics
