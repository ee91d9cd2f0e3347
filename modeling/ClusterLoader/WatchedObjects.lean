import ClusterLoader.GatherBarrier
import ClusterLoader.SeparatedNames

/-!
# The objects waited for and the objects watched

The measurement watches the objects of its selector's namespace, with the
selector's labels and fields. `gather` lists them through another path, which
applies the labels and fields and leaves the namespace out. The two agree, and
a drained measurement passes the poll, exactly when no matching object with a
readable version lies outside the namespace and none inside has an unreadable
one. How the server matches labels and fields is left open; it is the same on
both paths.
-/

namespace WatchedObjects

open SeparatedNames KeyedStore Informers GuardedRuns ControlledPodsWait GatherBarrier

variable {Spec : Type}

structure ObjectSelector where
  ns : String
  labelSelector : String
  fieldSelector : String

structure ClusterObject (Spec : Type) where
  ns : String
  name : String
  uid : String
  spec : Option Spec
  resourceVersion : Option Nat
  deriving DecidableEq

/-- `MetaNamespaceKeyFunc`. -/
def metaNamespaceKey (ns name : String) : String :=
  if ns = "" then name else ns ++ "/" ++ name

def ClusterObject.read (o : ClusterObject Spec) : Object Spec where
  key := metaNamespaceKey o.ns o.name
  uid := o.uid
  spec := o.spec
  resourceVersion := o.resourceVersion

/-- The objects of the measurement's resource. -/
structure Cluster (Spec : Type) where
  objects : List (ClusterObject Spec)
  names : ∀ o ∈ objects, '/' ∉ o.name.toList
  unique : ∀ o ∈ objects, ∀ o' ∈ objects, o.ns = o'.ns → o.name = o'.name → o = o'
  /-- Whether an object meets a label and a field selector. -/
  selects : String → String → ClusterObject Spec → Bool

namespace Cluster
variable (cluster : Cluster Spec)

/-- A list request; the empty namespace stands for all. -/
def list (ns labelSelector fieldSelector : String) : List (ClusterObject Spec) :=
  cluster.objects.filter fun o =>
    (ns = "" ∨ o.ns = ns) ∧ cluster.selects labelSelector fieldSelector o = true

def listRuntimeObjectsForKind (labelSelector fieldSelector : String) : List (Object Spec) :=
  (cluster.list "" labelSelector fieldSelector).map ClusterObject.read

/-- What the informer made by `start` delivers first. -/
def newDynamicInformer (selector : ObjectSelector) : List (Object Spec) :=
  (cluster.list selector.ns selector.labelSelector selector.fieldSelector).map ClusterObject.read

/-- What `gather` waits for. -/
def awaited (selector : ObjectSelector) : Finset String × Nat :=
  getObjectKeysAndMaxVersion
    (cluster.listRuntimeObjectsForKind selector.labelSelector selector.fieldSelector)

end Cluster

theorem metaNamespaceKey_inj {ns ns' name name' : String} (hname : '/' ∉ name.toList)
    (hname' : '/' ∉ name'.toList) (h : metaNamespaceKey ns name = metaNamespaceKey ns' name') :
    ns = ns' ∧ name = name' := by
  have hslash : ∀ n m : String, '/' ∈ (n ++ "/" ++ m).toList := by
    simp
  unfold metaNamespaceKey at h
  split at h
  case isTrue hns =>
    split at h
    case isTrue hns' => exact ⟨hns.trans hns'.symm, h⟩
    case isFalse => exact absurd (h ▸ hslash ns' name') hname
  case isFalse hns =>
    split at h
    case isTrue => exact absurd (h ▸ hslash ns name) hname'
    case isFalse => exact separated_inj hname hname' h

section Keys
variable {cluster : Cluster Spec} {selector : ObjectSelector}

/-- The object is in the namespace the selector names, if it names one. -/
def InScope (selector : ObjectSelector) (o : ClusterObject Spec) : Prop :=
  selector.ns = "" ∨ o.ns = selector.ns

/-- The object meets the selector's labels and fields. -/
def Matches (cluster : Cluster Spec) (selector : ObjectSelector) (o : ClusterObject Spec) : Prop :=
  cluster.selects selector.labelSelector selector.fieldSelector o = true

theorem key_inj {o o' : ClusterObject Spec} (ho : o ∈ cluster.objects) (ho' : o' ∈ cluster.objects)
    (h : o.read.key = o'.read.key) : o = o' := by
  obtain ⟨hns, hname⟩ := metaNamespaceKey_inj (cluster.names o ho) (cluster.names o' ho') h
  exact cluster.unique o ho o' ho' hns hname

theorem mem_awaited {k : String} :
    k ∈ (cluster.awaited selector).1 ↔ ∃ o ∈ cluster.objects, Matches cluster selector o ∧
      o.resourceVersion ≠ none ∧ o.read.key = k := by
  rw [Cluster.awaited, mem_listedKeys]
  simp only [Cluster.listRuntimeObjectsForKind, Cluster.list, List.mem_map, List.mem_filter,
    true_or, true_and, decide_eq_true_eq]
  constructor
  · rintro ⟨_, ⟨o, ⟨ho, hm⟩, rfl⟩, hv, hk⟩
    exact ⟨o, ho, hm, hv, hk⟩
  · rintro ⟨o, ho, hm, hv, hk⟩
    exact ⟨o.read, ⟨o, ⟨ho, hm⟩, rfl⟩, hv, hk⟩

theorem mem_newDynamicInformer {obj : Object Spec} :
    obj ∈ cluster.newDynamicInformer selector ↔
      ∃ o ∈ cluster.objects, InScope selector o ∧ Matches cluster selector o ∧ o.read = obj := by
  simp only [Cluster.newDynamicInformer, Cluster.list, List.mem_map, List.mem_filter,
    decide_eq_true_eq]
  constructor
  · rintro ⟨o, ⟨ho, hs, hm⟩, rfl⟩
    exact ⟨o, ho, hs, hm, rfl⟩
  · rintro ⟨o, ho, hs, hm, rfl⟩
    exact ⟨o, ⟨ho, hs, hm⟩, rfl⟩

/-- Among the matching objects, those with a readable version are those in
the selector's namespace. -/
def ScopeAgrees (cluster : Cluster Spec) (selector : ObjectSelector) : Prop :=
  ∀ o ∈ cluster.objects, Matches cluster selector o →
    (o.resourceVersion ≠ none ↔ InScope selector o)

theorem awaited_keys_iff :
    (∀ k, k ∈ (cluster.awaited selector).1 ↔
      ∃ obj ∈ cluster.newDynamicInformer selector, obj.key = k) ↔
      ScopeAgrees cluster selector := by
  constructor
  · intro h o ho hm
    have hk := h o.read.key
    rw [mem_awaited] at hk
    constructor
    · intro hv
      obtain ⟨_, hobj, hkey⟩ := hk.mp ⟨o, ho, hm, hv, rfl⟩
      obtain ⟨o', ho', hs, _, rfl⟩ := mem_newDynamicInformer.mp hobj
      exact key_inj ho' ho hkey ▸ hs
    · intro hs
      obtain ⟨o', ho', _, hv, hkey⟩ :=
        hk.mpr ⟨o.read, mem_newDynamicInformer.mpr ⟨o, ho, hs, hm, rfl⟩, rfl⟩
      exact key_inj ho' ho hkey ▸ hv
  · intro h k
    rw [mem_awaited]
    constructor
    · rintro ⟨o, ho, hm, hv, rfl⟩
      exact ⟨o.read, mem_newDynamicInformer.mpr ⟨o, ho, (h o ho hm).mp hv, hm, rfl⟩, rfl⟩
    · rintro ⟨_, hobj, rfl⟩
      obtain ⟨o, ho, hs, hm, rfl⟩ := mem_newDynamicInformer.mp hobj
      exact ⟨o, ho, hm, (h o ho hm).mpr hs, rfl⟩

end Keys

section Drained
variable [DecidableEq Spec] {cluster : Cluster Spec} {selector : ObjectSelector}

/-- Deliveries after which the informer shows the cluster as it is. -/
structure Drained (cluster : Cluster Spec) (selector : ObjectSelector)
    (deliveries : List (Delivery Spec)) : Prop where
  fits : Along contentStep Fits .empty deliveries
  shows : ∀ obj, obj ∈ run contentStep .empty deliveries ↔
    obj ∈ cluster.newDynamicInformer selector

theorem awaited_version_reached {creation : Notification (Object Spec) → Except String Unit}
    {kind : String} {deliveries : List (Delivery Spec)}
    (drained : Drained cluster selector deliveries) (agrees : ScopeAgrees cluster selector) :
    (cluster.awaited selector).2 ≤ (measured creation kind deliveries).opResourceVersion := by
  have hreached : ∀ obj ∈ run contentStep .empty deliveries,
      shownVersion (some obj) ≤ (measured creation kind deliveries).opResourceVersion :=
    opResourceVersion_reaches creation fun obj hobj => absurd hobj (Store.notMem_empty obj)
  refine maxListedVersion_le.mpr fun obj hobj => ?_
  simp only [Cluster.listRuntimeObjectsForKind, Cluster.list, List.mem_map, List.mem_filter,
    true_or, true_and, decide_eq_true_eq] at hobj
  obtain ⟨o, ⟨ho, hm⟩, rfl⟩ := hobj
  cases hv : o.resourceVersion with
  | none => simp [shownVersion, ClusterObject.read, hv]
  | some version =>
    have hs := (agrees o ho hm).mp (hv ▸ Option.some_ne_none version)
    exact hreached o.read ((drained.shows _).mpr
      (mem_newDynamicInformer.mpr ⟨o, ho, hs, hm, rfl⟩))

theorem waits_for_watched_iff (cluster : Cluster Spec) (selector : ObjectSelector) :
    ((∀ k, k ∈ (cluster.awaited selector).1 ↔
        ∃ obj ∈ cluster.newDynamicInformer selector, obj.key = k) ∧
      ∀ (creation : Notification (Object Spec) → Except String Unit) (kind : String)
        (deliveries : List (Delivery Spec)), Drained cluster selector deliveries →
        (measured creation kind deliveries).Synced (cluster.awaited selector).1
          (cluster.awaited selector).2) ↔
      ScopeAgrees cluster selector := by
  constructor
  · rintro ⟨hkeys, _⟩
    exact awaited_keys_iff.mp hkeys
  · intro agrees
    have hkeys := awaited_keys_iff.mpr agrees
    refine ⟨hkeys, fun creation kind deliveries drained => ?_⟩
    refine ⟨awaited_version_reached drained agrees, ?_⟩
    have hfollow := objectKeys_handled creation (keysOf_started kind) drained.fits
    ext k
    rw [hkeys k]
    refine Iff.trans ?_ (hfollow k).symm
    exact exists_congr fun obj => and_congr_left fun _ => (drained.shows obj).symm

end Drained

section Samples

/-- One Deployment in each of two namespaces. -/
def twoNamespaces : Cluster Nat where
  objects := [⟨"ns-1", "web", "uid-1", some 3, some 5⟩, ⟨"ns-2", "web", "uid-2", some 3, some 6⟩]
  names := by decide
  unique := by decide
  selects _ _ _ := true

def firstNamespace : ObjectSelector := ⟨"ns-1", "", ""⟩

/-- The informer's deliveries for the first namespace. -/
def firstDelivery : List (Delivery Nat) :=
  [⟨5, .add ⟨"ns-1/web", "uid-1", some 3, some 5⟩⟩]

end Samples

/-- The drained measurement never passes the poll, since the listing has the
other namespace's object. -/
theorem other_namespace_awaited :
    Drained twoNamespaces firstNamespace firstDelivery ∧
      (twoNamespaces.awaited firstNamespace).1 = {"ns-1/web", "ns-2/web"} ∧
      twoNamespaces.newDynamicInformer firstNamespace =
        [⟨"ns-1/web", "uid-1", some 3, some 5⟩] ∧
      ¬ (measured (fun _ => .ok ()) "Deployment" firstDelivery).Synced
        (twoNamespaces.awaited firstNamespace).1 (twoNamespaces.awaited firstNamespace).2 := by
  exact ⟨⟨⟨rfl, trivial⟩, fun _ => Iff.rfl⟩, by decide, by decide, by decide⟩

end WatchedObjects
