import ClusterLoader.KeyedStore
import ClusterLoader.PodPeriodicCommand
import ClusterLoader.PodStatuses

/-!
# The pods of a tick

`PodPeriodicCommand` takes the pods of a tick as the first that apply. Here is the
loop that finds them, over pods with their phase, containers and conditions; the
lifecycle sees what `observed` leaves of a pod. The store of the informer has one
pod for each namespace and name and lists its pods in any order.
-/

namespace PodSelection

open KeyedStore PodPeriodicCommand

structure StoredPod where
  ns : String
  name : String
  phase : String
  containers : List String
  conditions : List PodStatuses.PodCondition

def StoredPod.key (pod : StoredPod) : String × String := (pod.ns, pod.name)

def StoredPod.isReady (pod : StoredPod) : Bool :=
  pod.conditions.any fun c => c.type = "Ready" && c.status = "True"

def observed (pod : StoredPod) : Pod :=
  ⟨pod.name, pod.ns, pod.phase = "Running", pod.containers, pod.isReady⟩

def isApplicablePod (p : Params) (pod : StoredPod) : Bool :=
  if pod.phase ≠ "Running" then false
  else if ¬ pod.containers.any (· = p.container) then false
  else pod.isReady

/-- The loop with the pods it has appended; the limit is tested after appending. -/
def selectFrom (p : Params) (n : Int) (pods : List StoredPod) : List StoredPod → List StoredPod
  | [] => pods
  | pod :: rest =>
    if isApplicablePod p pod then
      if n ≤ (pods ++ [pod]).length then pods ++ [pod]
      else selectFrom p n (pods ++ [pod]) rest
    else selectFrom p n pods rest

def getMaxNPods (p : Params) (n : Int) (podList : List StoredPod) : List StoredPod :=
  if podList.length = 0 then [] else selectFrom p n [] podList

variable {p : Params} {n : Int} {pods podList : List StoredPod}

theorem isApplicablePod_observed (p : Params) (pod : StoredPod) :
    PodPeriodicCommand.isApplicablePod p (observed pod) = isApplicablePod p pod := by
  have contains : pod.containers.contains p.container =
      pod.containers.any (· = p.container) := by
    rw [Bool.eq_iff_iff]
    simp
  rw [PodPeriodicCommand.isApplicablePod, isApplicablePod, observed, contains]
  by_cases running : pod.phase = "Running" <;>
    cases pod.containers.any (· = p.container) <;> simp [running]

/-- Applicable pods are appended until there are as many as the limit, or one. -/
theorem selectFrom_eq (room : (pods.length : Int) < max n 1) : selectFrom p n pods podList =
    pods ++ (podList.filter (isApplicablePod p)).take ((max n 1).toNat - pods.length) := by
  induction podList generalizing pods with
  | nil => simp [selectFrom]
  | cons pod rest ih =>
    rw [selectFrom]
    by_cases applicable : isApplicablePod p pod
    · rw [if_pos applicable, List.filter_cons_of_pos applicable]
      by_cases full : n ≤ (pods ++ [pod]).length
      · rw [if_pos full]
        rw [List.length_append, List.length_singleton] at full
        have last : (max n 1).toNat - pods.length = 1 := by omega
        rw [last, List.take_succ_cons, List.take_zero]
      · have more : ((pods ++ [pod]).length : Int) < max n 1 := by omega
        rw [if_neg full, ih more]
        rw [List.length_append, List.length_singleton] at more ⊢
        have next : (max n 1).toNat - pods.length = (max n 1).toNat - (pods.length + 1) + 1 := by
          omega
        rw [next, List.take_succ_cons, List.append_assoc, List.singleton_append]
    · rw [if_neg applicable, List.filter_cons_of_neg applicable]
      exact ih room

theorem getMaxNPods_eq : getMaxNPods p n podList =
    (podList.filter (isApplicablePod p)).take (max n 1).toNat := by
  rw [getMaxNPods]
  split
  · rename_i empty
    simp [List.eq_nil_of_length_eq_zero empty]
  · exact selectFrom_eq (by rw [List.length_nil]; omega)

/-- The tick runs the commands in the pods that the loop selects. -/
theorem doTick_results (p : Params) (podList : List StoredPod) (run : Pod → List CommandResult)
    (results : List PodResult) (st : Stats) :
    (doTick p (podList.map observed) run results st).1 = results ++
      (getMaxNPods p p.limit podList).map fun pod =>
        ⟨pod.name, pod.ns, p.container, run (observed pod)⟩ := by
  have same : PodPeriodicCommand.getMaxNPods p (podList.map observed) =
      (getMaxNPods p p.limit podList).map observed := by
    rw [PodPeriodicCommand.getMaxNPods, List.filter_map, getMaxNPods_eq, List.map_take]
    simp only [Function.comp_def, isApplicablePod_observed]
  rw [doTick, same]
  cases getMaxNPods p p.limit podList with
  | nil => simp
  | cons pod rest => simp [observed]

/-- What a tick may select from the store. -/
structure Respected (p : Params) (store : Store StoredPod.key) (pods : List StoredPod) : Prop where
  distinct : (pods.map StoredPod.key).Nodup
  applicable : ∀ pod ∈ pods, pod ∈ store.entries ∧ isApplicablePod p pod = true
  number : (pods.length : Int) =
    min (max p.limit 0) (store.entries.countP (isApplicablePod p))

theorem respected_getMaxNPods_iff {store : Store StoredPod.key}
    (listed : podList.Perm store.entries) :
    Respected p store (getMaxNPods p p.limit podList) ↔
      1 ≤ p.limit ∨ ∀ pod ∈ store.entries, isApplicablePod p pod = false := by
  have number : (getMaxNPods p p.limit podList).length =
      min (max p.limit 1).toNat (store.entries.countP (isApplicablePod p)) := by
    rw [getMaxNPods_eq, List.length_take, ← List.countP_eq_length_filter, listed.countP_eq]
  have none : (∀ pod ∈ store.entries, isApplicablePod p pod = false) ↔
      store.entries.countP (isApplicablePod p) = 0 := by
    simp [List.countP_eq_zero]
  rw [none]
  constructor
  · intro respected
    have := respected.number
    omega
  · intro either
    refine ⟨?_, fun pod mem => ?_, by omega⟩
    · have sublist : (getMaxNPods p p.limit podList).Sublist podList :=
        getMaxNPods_eq ▸ (List.take_sublist _ _).trans List.filter_sublist
      exact (sublist.map _).nodup ((listed.map _).nodup_iff.mpr store.unique)
    · rw [getMaxNPods_eq] at mem
      obtain ⟨mem, applicable⟩ := List.mem_filter.mp (List.mem_of_mem_take mem)
      exact ⟨listed.mem_iff.mp mem, applicable⟩

/-- A tick runs the commands in the pods selected; for every order of listing they
are as many as the limit allows, exactly if the limit is positive or no pod
applies. -/
theorem limit_respected_iff (p : Params) (store : Store StoredPod.key) :
    (∀ podList run results st,
      (doTick p (podList.map observed) run results st).1 = results ++
        (getMaxNPods p p.limit podList).map fun pod =>
          ⟨pod.name, pod.ns, p.container, run (observed pod)⟩) ∧
    ((∀ podList : List StoredPod, podList.Perm store.entries →
        Respected p store (getMaxNPods p p.limit podList)) ↔
      1 ≤ p.limit ∨ ∀ pod ∈ store.entries, isApplicablePod p pod = false) :=
  ⟨doTick_results p, fun all => (respected_getMaxNPods_iff (.refl _)).mp (all _ (.refl _)),
    fun either _ listed => (respected_getMaxNPods_iff listed).mpr either⟩

def idle : StoredPod := ⟨"default", "idle-0", "Running", ["busybox"], [⟨"Ready", "True"⟩]⟩

/-- With a limit of zero or less a pod is selected all the same. -/
theorem limit_exceeded :
    getMaxNPods { everySecond with limit := 0 } 0 [idle] = [idle] ∧
      getMaxNPods { everySecond with limit := -1 } (-1) [idle] = [idle] ∧
      ¬ Respected { everySecond with limit := 0 } ⟨[idle], by decide⟩ [idle] :=
  ⟨rfl, rfl, fun respected => absurd respected.number (by decide)⟩

end PodSelection
