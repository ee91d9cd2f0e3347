import ClusterLoader.NodeCounter
import ClusterLoader.PodStatuses

/-!
# How many pods a controller object asks for

`GetReplicasFromRuntimeObject` has two ways to its answer: it reads the fields
of a typed object, or it parses the nested maps of an unstructured one. The
second is written apart from the first and builds the pod spec of a DaemonSet
anew, with the tolerations that the DaemonSet controller gives to its pods.

Of each object the fields that one of the two ways reads are kept. `Terms`
stands for the required node selector terms, which both hand on unread. What the
libraries do with unstructured objects is left open in `Converter`, but for this:
a field that is converted is read back.
-/

namespace ExpectedReplicas

open KeyedStore Informers NodeCounter
open PodStatuses (countP_eq_iff)

variable {Terms Selector Content Item : Type}

/-- A nil node selector and an empty one are the same here: both make the
string form of the selector empty, and only that reaches the API server. -/
structure PodSpec (Terms : Type) where
  nodeSelector : List (String × String)
  affinity : Option (Affinity Terms)
  tolerations : List Toleration
  hostNetwork : Bool

inductive Controller (Terms : Type) where
  | replicationController (replicas : Option Int)
  | replicaSet (replicas : Option Int)
  | deployment (replicas : Option Int)
  | statefulSet (replicas : Option Int)
  | daemonSet (template : PodSpec Terms)
  | job (parallelism : Option Int)

def Controller.kind : Controller Terms → String
  | .replicationController _ => "ReplicationController"
  | .replicaSet _ => "ReplicaSet"
  | .deployment _ => "Deployment"
  | .statefulSet _ => "StatefulSet"
  | .daemonSet _ => "DaemonSet"
  | .job _ => "Job"

inductive RuntimeObject (Terms Content : Type) where
  | null
  | unstructured (object : Content)
  | typed (controller : Controller Terms)
  | other (text : String)

inductive ReplicasWatcher (Terms Selector : Type) where
  | constReplicas (replicasCount : Int)
  | nodeCounter (counter : Counter Terms Selector)

/-! ## Unstructured content -/

/-- How the libraries read unstructured content: nested maps, with items of any
type in slices. A field that is missing is none, one of another type an error. -/
structure Accessors (Terms Content Item : Type) where
  nilMap : Content
  getKind : Content → String
  getName : Content → String
  nestedInt64 : Content → String → Except String (Option Int)
  nestedMap : Content → String → Except String (Option Content)
  nestedStringMap : Content → String → Except String (Option (List (String × String)))
  nestedSlice : Content → String → Except String (Option (List Item))
  affinityFrom : Content → Except String (Affinity Terms)
  tolerationFrom : Item → Except String Toleration

variable (c : Accessors Terms Content Item)

/-- The content has the fields of the pod spec. -/
structure Accessors.HasPodSpec (content : Content) (p : PodSpec Terms) : Prop where
  nodeSelector : ∃ selector, c.nestedStringMap content "nodeSelector" = .ok selector ∧
    selector.getD [] = p.nodeSelector
  affinity : ∃ fields, c.nestedMap content "affinity" = .ok fields ∧
    fields.map c.affinityFrom = p.affinity.map .ok
  tolerations : ∃ items, c.nestedSlice content "tolerations" = .ok items ∧
    (items.getD []).map c.tolerationFrom = p.tolerations.map .ok

def Accessors.HasSpec (content : Content) : Controller Terms → Prop
  | .replicationController replicas | .replicaSet replicas | .deployment replicas
  | .statefulSet replicas => c.nestedInt64 content "replicas" = .ok replicas
  | .daemonSet p => ∃ template podSpec, c.nestedMap content "template" = .ok (some template) ∧
    c.nestedMap template "spec" = .ok (some podSpec) ∧ c.HasPodSpec podSpec p
  | .job parallelism => c.nestedInt64 content "parallelism" = .ok parallelism

/-- The object as the scheme converts it, with its kind set. -/
structure Converter (Terms Content Item : Type) extends Accessors Terms Content Item where
  toUnstructured : Controller Terms → Content
  kind_toUnstructured : ∀ controller, getKind (toUnstructured controller) = controller.kind
  spec_toUnstructured : ∀ controller, ∃ spec,
    nestedMap (toUnstructured controller) "spec" = .ok (some spec) ∧
      toAccessors.HasSpec spec controller

/-! ## The pod spec of an unstructured DaemonSet -/

variable (m : Matching Terms Selector)

def addOrUpdateTolerationInPodSpec (spec : PodSpec Terms) (toleration : Toleration) :
    PodSpec Terms :=
  let replaced := spec.tolerations.map fun t =>
    if m.matchToleration toleration t then toleration else t
  let updated := spec.tolerations.any (m.matchToleration toleration)
  { spec with tolerations := if updated then replaced else replaced ++ [toleration] }

/-- The tolerations that the DaemonSet controller adds to each pod. -/
def daemonPodTolerations (hostNetwork : Bool) : List Toleration :=
  [⟨"node.kubernetes.io/not-ready", .opExists, "", some .noExecute, none⟩,
    ⟨"node.kubernetes.io/disk-pressure", .opExists, "", some .noSchedule, none⟩,
    ⟨"node.kubernetes.io/memory-pressure", .opExists, "", some .noSchedule, none⟩,
    ⟨"node.kubernetes.io/pid-pressure", .opExists, "", some .noSchedule, none⟩,
    ⟨"node.kubernetes.io/unschedulable", .opExists, "", some .noSchedule, none⟩] ++
  (if hostNetwork then
    [⟨"node.kubernetes.io/network-unavailable", .opExists, "", some .noSchedule, none⟩]
  else [])

def addOrUpdateDaemonPodTolerations (spec : PodSpec Terms) : PodSpec Terms :=
  (daemonPodTolerations spec.hostNetwork).foldl (addOrUpdateTolerationInPodSpec m) spec

def newDaemonSetPodSpecParser (spec : Content) : Except String Content := do
  match ← c.nestedMap spec "template" with
  | none => return c.nilMap
  | some template => return (← c.nestedMap template "spec").getD c.nilMap

def getDaemonSetNodeSelector (p : Content) (spec : PodSpec Terms) :
    Except String (PodSpec Terms) := do
  return { spec with nodeSelector := (← c.nestedStringMap p "nodeSelector").getD [] }

def getDaemonSetAffinity (p : Content) (spec : PodSpec Terms) :
    Except String (PodSpec Terms) := do
  match ← c.nestedMap p "affinity" with
  | none => return spec
  | some fields => return { spec with affinity := some (← c.affinityFrom fields) }

def addUnstructuredToleration (spec : PodSpec Terms) (item : Item) :
    Except String (PodSpec Terms) := do
  return addOrUpdateTolerationInPodSpec m spec (← c.tolerationFrom item)

def getDaemonSetTolerations (p : Content) (spec : PodSpec Terms) :
    Except String (PodSpec Terms) := do
  let spec := addOrUpdateDaemonPodTolerations m spec
  match ← c.nestedSlice p "tolerations" with
  | none => return spec
  | some items => items.foldlM (addUnstructuredToleration c m) spec

/-! ## The watcher for an object -/

def getDaemonSetNumSchedulableNodes (podSpec : PodSpec Terms) :
    Except String (ReplicasWatcher Terms Selector) := do
  let selector ← m.labelSelectorAsSelector podSpec.nodeSelector
  return .nodeCounter (newNodeCounter selector podSpec.affinity podSpec.tolerations)

/-- The count in a field of the spec, where a missing field counts as zero. -/
def constFromSpec (spec : Content) (field failure : String) :
    Except String (ReplicasWatcher Terms Selector) :=
  match c.nestedInt64 spec field with
  | .error text => .error (failure ++ text)
  | .ok replicas => .ok (.constReplicas (replicas.getD 0))

def tryAcquireReplicasFromUnstructuredSpec (spec : Content) (kind : String) :
    Except String (ReplicasWatcher Terms Selector) :=
  if kind = "DaemonSet" then do
    let parser ← newDaemonSetPodSpecParser c spec
    let podSpec ← getDaemonSetNodeSelector c parser ⟨[], none, [], false⟩
    let podSpec ← getDaemonSetAffinity c parser podSpec
    let podSpec ← getDaemonSetTolerations c m parser podSpec
    getDaemonSetNumSchedulableNodes m podSpec
  else if kind = "Job" then
    constFromSpec c spec "parallelism" "try to acquire job parallelism failed, "
  else
    constFromSpec c spec "replicas" "try to acquire replicas failed, "

def getSpecFromUnstructured (object : Content) : Except String Content :=
  match c.nestedMap object "spec" with
  | .error text => .error ("try to acquire spec failed, " ++ text)
  | .ok none => .error ("try to acquire spec failed, no field spec for obj " ++ c.getName object)
  | .ok (some spec) => .ok spec

def getReplicasFromUnstructured (object : Content) :
    Except String (ReplicasWatcher Terms Selector) := do
  let spec ← getSpecFromUnstructured c object
  tryAcquireReplicasFromUnstructuredSpec c m spec (c.getKind object)

def getReplicasFromRuntimeObject : RuntimeObject Terms Content →
    Except String (ReplicasWatcher Terms Selector)
  | .null => .ok (.constReplicas 0)
  | .unstructured object => getReplicasFromUnstructured c m object
  | .typed (.replicationController replicas) => .ok (.constReplicas (replicas.getD 0))
  | .typed (.replicaSet replicas) => .ok (.constReplicas (replicas.getD 0))
  | .typed (.deployment replicas) => .ok (.constReplicas (replicas.getD 0))
  | .typed (.statefulSet replicas) => .ok (.constReplicas (replicas.getD 0))
  | .typed (.daemonSet template) => getDaemonSetNumSchedulableNodes m template
  | .typed (.job parallelism) => .ok (.constReplicas (parallelism.getD 0))
  | .other text => .error ("unsupported kind when getting number of replicas: " ++ text)

/-- What the watcher reports once `Start` has returned: its informer has been
given the nodes that the label selector selects, one by one. -/
def ReplicasWatcher.replicas (nodes : Store Node.name) : ReplicasWatcher Terms Selector → Int
  | .constReplicas replicasCount => replicasCount
  | .nodeCounter counter =>
    (((nodes.select (m.selects counter.nodeSelector)).map Notification.add).foldl
      (Counter.onNotification m) counter).replicas

/-- The number reported for an object, or the error that there is no watcher. -/
def reported (nodes : Store Node.name) (object : RuntimeObject Terms Content) :
    Except String Int :=
  (getReplicasFromRuntimeObject c m object).map (·.replicas m nodes)

/-! ## Reading back what the converter wrote -/

/-- The pod spec that the parser builds from a converted DaemonSet. -/
def parsedPodSpec (p : PodSpec Terms) : PodSpec Terms :=
  p.tolerations.foldl (addOrUpdateTolerationInPodSpec m)
    (addOrUpdateDaemonPodTolerations m ⟨p.nodeSelector, p.affinity, [], false⟩)

section RoundTrip
variable {c m} {content : Content} {p : PodSpec Terms}

theorem foldlM_addUnstructuredToleration {items : List Item} {tolerations : List Toleration}
    (read : items.map c.tolerationFrom = tolerations.map .ok) (spec : PodSpec Terms) :
    items.foldlM (addUnstructuredToleration c m) spec =
      .ok (tolerations.foldl (addOrUpdateTolerationInPodSpec m) spec) := by
  induction items generalizing tolerations spec with
  | nil =>
    rw [List.map_nil, eq_comm, List.map_eq_nil_iff] at read
    rw [read]
    rfl
  | cons item items ih =>
    cases tolerations with
    | nil => cases read
    | cons toleration tolerations =>
      obtain ⟨hitem, hrest⟩ := List.cons.inj read
      rw [List.foldlM_cons, addUnstructuredToleration, hitem]
      exact ih hrest _

theorem getDaemonSetAffinity_eq (has : c.HasPodSpec content p)
    (selector : List (String × String)) :
    getDaemonSetAffinity c content ⟨selector, none, [], false⟩ =
      .ok ⟨selector, p.affinity, [], false⟩ := by
  obtain ⟨fields, hfields, hread⟩ := has.affinity
  rw [getDaemonSetAffinity, hfields]
  cases fields with
  | none =>
    rw [Option.map_none, eq_comm, Option.map_eq_none_iff] at hread
    rw [hread]
    rfl
  | some fields =>
    obtain ⟨affinity, haffinity, hfrom⟩ := Option.map_eq_some_iff.mp hread.symm
    simp only [bind, Except.bind, ← hfrom, haffinity]
    rfl

theorem getDaemonSetTolerations_eq (has : c.HasPodSpec content p) (spec : PodSpec Terms) :
    getDaemonSetTolerations c m content spec =
      .ok (p.tolerations.foldl (addOrUpdateTolerationInPodSpec m)
        (addOrUpdateDaemonPodTolerations m spec)) := by
  obtain ⟨items, hitems, hread⟩ := has.tolerations
  rw [getDaemonSetTolerations, hitems]
  cases items with
  | none =>
    rw [Option.getD_none, List.map_nil, eq_comm, List.map_eq_nil_iff] at hread
    rw [hread]
    rfl
  | some items => exact foldlM_addUnstructuredToleration hread _

end RoundTrip

theorem getReplicas_daemonSet (c : Converter Terms Content Item) (p : PodSpec Terms) :
    getReplicasFromRuntimeObject c.toAccessors m (.unstructured (c.toUnstructured (.daemonSet p))) =
      getDaemonSetNumSchedulableNodes m (parsedPodSpec m p) := by
  obtain ⟨spec, hspec, template, podSpec, htemplate, hpodSpec, has⟩ :=
    c.spec_toUnstructured (.daemonSet p)
  obtain ⟨selector, hselector, hget⟩ := has.nodeSelector
  have hkind : c.getKind (c.toUnstructured (.daemonSet p)) = "DaemonSet" :=
    c.kind_toUnstructured _
  have hparser : newDaemonSetPodSpecParser c.toAccessors spec = .ok podSpec := by
    rw [newDaemonSetPodSpecParser, htemplate]
    simp only [bind, Except.bind, hpodSpec]
    rfl
  have hnodeSelector : getDaemonSetNodeSelector c.toAccessors podSpec ⟨[], none, [], false⟩ =
      .ok ⟨p.nodeSelector, none, [], false⟩ := by
    rw [getDaemonSetNodeSelector, hselector, ← hget]
    rfl
  simp only [getReplicasFromRuntimeObject, getReplicasFromUnstructured, getSpecFromUnstructured,
    hspec, hkind, bind, Except.bind, tryAcquireReplicasFromUnstructuredSpec, if_true, hparser,
    hnodeSelector, getDaemonSetAffinity_eq has, getDaemonSetTolerations_eq has]
  rfl

/-! ## The two counts compared -/

def Tolerated (tolerations : List Toleration) (taint : Taint) : Prop :=
  ∃ t ∈ tolerations, m.toleratesTaint t taint = true

section Compared
variable {m}

/-- What is not compared is not used either. -/
theorem toleratesTaint_of_match {t t' : Toleration} (h : m.matchToleration t t' = true)
    (taint : Taint) : m.toleratesTaint t taint = m.toleratesTaint t' taint := by
  obtain ⟨hkey, heffect, hoperator, hvalue⟩ := (m.matchToleration_iff t t').mp h
  rw [Bool.eq_iff_iff, m.toleratesTaint_iff, m.toleratesTaint_iff, hkey, heffect, hoperator,
    hvalue]

theorem tolerated_append (ts ts' : List Toleration) (taint : Taint) :
    Tolerated m (ts ++ ts') taint ↔ Tolerated m ts taint ∨ Tolerated m ts' taint := by
  simp only [Tolerated, List.mem_append, or_and_right, exists_or]

theorem tolerated_singleton (t : Toleration) (taint : Taint) :
    Tolerated m [t] taint ↔ m.toleratesTaint t taint = true := by
  simp only [Tolerated, List.mem_singleton, exists_eq_left]

variable (ts : List Toleration)

/-- Replacing a toleration by one that matches it changes nothing for a taint. -/
theorem tolerated_replaced (toleration : Toleration) (taint : Taint) :
    Tolerated m (ts.map fun t => if m.matchToleration toleration t then toleration else t) taint ↔
      Tolerated m ts taint := by
  have hsame : ∀ t, m.toleratesTaint (if m.matchToleration toleration t then toleration else t)
      taint = m.toleratesTaint t taint := by
    intro t
    split
    · rename_i h
      exact toleratesTaint_of_match h taint
    · rfl
  simp only [Tolerated, List.mem_map, exists_exists_and_eq_and, hsame]

theorem tolerated_addOrUpdate (spec : PodSpec Terms) (toleration : Toleration)
    (taint : Taint) :
    Tolerated m (addOrUpdateTolerationInPodSpec m spec toleration).tolerations taint ↔
      Tolerated m spec.tolerations taint ∨ m.toleratesTaint toleration taint = true := by
  have hreplaced := tolerated_replaced (m := m) spec.tolerations toleration taint
  simp only [addOrUpdateTolerationInPodSpec]
  by_cases updated : spec.tolerations.any (m.matchToleration toleration) = true
  · rw [if_pos updated, hreplaced]
    constructor
    · exact Or.inl
    · rintro (h | h)
      · exact h
      · obtain ⟨t, ht, hmatch⟩ := List.any_eq_true.mp updated
        refine ⟨t, ht, ?_⟩
        rw [← toleratesTaint_of_match hmatch]
        exact h
  · rw [if_neg updated, tolerated_append, hreplaced, tolerated_singleton]

theorem tolerated_foldl (spec : PodSpec Terms) (taint : Taint) :
    Tolerated m (ts.foldl (addOrUpdateTolerationInPodSpec m) spec).tolerations taint ↔
      Tolerated m spec.tolerations taint ∨ Tolerated m ts taint := by
  induction ts generalizing spec with
  | nil => simp [Tolerated]
  | cons t rest ih =>
    have hsplit := tolerated_append (m := m) [t] rest taint
    rw [tolerated_singleton] at hsplit
    rw [List.foldl_cons, ih, tolerated_addOrUpdate, or_assoc]
    exact or_congr_right hsplit.symm

theorem foldl_addOrUpdate_frame (spec : PodSpec Terms) :
    (ts.foldl (addOrUpdateTolerationInPodSpec m) spec).nodeSelector = spec.nodeSelector ∧
      (ts.foldl (addOrUpdateTolerationInPodSpec m) spec).affinity = spec.affinity := by
  induction ts generalizing spec with
  | nil => exact ⟨rfl, rfl⟩
  | cons t rest ih => exact ih (addOrUpdateTolerationInPodSpec m spec t)

theorem parsedPodSpec_frame (p : PodSpec Terms) :
    (parsedPodSpec m p).nodeSelector = p.nodeSelector ∧
      (parsedPodSpec m p).affinity = p.affinity := by
  rw [parsedPodSpec, (foldl_addOrUpdate_frame _ _).1, (foldl_addOrUpdate_frame _ _).2]
  exact foldl_addOrUpdate_frame _ _

theorem tolerated_parsedPodSpec (p : PodSpec Terms) (taint : Taint) :
    Tolerated m (parsedPodSpec m p).tolerations taint ↔
      Tolerated m (p.tolerations ++ daemonPodTolerations false) taint := by
  have hdefaults := tolerated_foldl (m := m) (daemonPodTolerations false)
    (⟨p.nodeSelector, p.affinity, [], false⟩ : PodSpec Terms) taint
  have hnone : ¬ Tolerated m [] taint := by
    rintro ⟨t, ht, _⟩
    cases ht
  rw [parsedPodSpec, tolerated_foldl, addOrUpdateDaemonPodTolerations, hdefaults,
    tolerated_append, or_iff_right hnone]
  exact or_comm

/-- Taken together, the nodes added one by one. -/
theorem foldl_add_replicas (counter : Counter Terms Selector) (nodes : List Node) :
    ((nodes.map Notification.add).foldl (Counter.onNotification m) counter).replicas =
      counter.replicas + nodes.countP fun node =>
        decide (RunsOn m counter.affinity counter.tolerations node) := by
  induction nodes generalizing counter with
  | nil => simp
  | cons node rest ih =>
    change ((rest.map Notification.add).foldl (Counter.onNotification m)
      (counter.handle m none (some node))).replicas = _
    rw [ih, handle_add, List.countP_cons]
    by_cases runs : RunsOn m counter.affinity counter.tolerations node
    · simp only [runs, decide_true, Bool.toNat_true, if_true]
      omega
    · simp only [runs, decide_false, Bool.toNat_false, Bool.false_eq_true, if_false]
      omega

theorem replicas_nodeCounter (nodes : Store Node.name) (selector : Selector)
    (affinity : Option (Affinity Terms)) (tolerations : List Toleration) :
    ReplicasWatcher.replicas m nodes
      (.nodeCounter (newNodeCounter selector affinity tolerations)) =
      (nodes.select (m.selects selector)).countP fun node =>
        decide (RunsOn m affinity tolerations node) := by
  rw [ReplicasWatcher.replicas, foldl_add_replicas]
  exact Int.zero_add _

theorem runsOn_of_tolerated {affinity : Option (Affinity Terms)} {ts ts' : List Toleration}
    {node : Node} (more : ∀ taint, Tolerated m ts taint → Tolerated m ts' taint)
    (runs : RunsOn m affinity ts node) : RunsOn m affinity ts' node := by
  refine ⟨runs.matched, fun taint htaint hkeepsOff => ?_⟩
  exact more taint (runs.tolerated taint htaint hkeepsOff)

theorem runsOn_parsedPodSpec (p : PodSpec Terms) (node : Node) :
    RunsOn m (parsedPodSpec m p).affinity (parsedPodSpec m p).tolerations node ↔
      RunsOn m p.affinity (p.tolerations ++ daemonPodTolerations false) node := by
  rw [(parsedPodSpec_frame p).2]
  constructor
  · exact runsOn_of_tolerated fun taint => (tolerated_parsedPodSpec p taint).mp
  · exact runsOn_of_tolerated fun taint => (tolerated_parsedPodSpec p taint).mpr

theorem reported_daemonSet (c : Converter Terms Content Item) (nodes : Store Node.name)
    (p : PodSpec Terms) :
    reported c.toAccessors m nodes (.typed (.daemonSet p)) =
        reported c.toAccessors m nodes (.unstructured (c.toUnstructured (.daemonSet p))) ↔
      ∀ selector, m.labelSelectorAsSelector p.nodeSelector = .ok selector →
        ∀ node ∈ nodes, m.selects selector node = true →
          RunsOn m p.affinity (p.tolerations ++ daemonPodTolerations false) node →
            RunsOn m p.affinity p.tolerations node := by
  rw [reported, reported, getReplicas_daemonSet]
  change (getDaemonSetNumSchedulableNodes m p).map _ = _ ↔ _
  rw [getDaemonSetNumSchedulableNodes, getDaemonSetNumSchedulableNodes,
    (parsedPodSpec_frame p).1]
  cases hselector : m.labelSelectorAsSelector p.nodeSelector with
  | error text =>
    refine iff_of_true rfl ?_
    rintro selector h
    cases h
  | ok selector =>
    simp only [bind, Except.bind, pure, Except.pure, Except.map, Except.ok.injEq,
      replicas_nodeCounter, Int.ofNat_inj, forall_eq']
    rw [countP_eq_iff]
    · simp only [Store.mem_select, and_imp, decide_eq_true_eq, runsOn_parsedPodSpec]
    · intro node _ runs
      rw [decide_eq_true_iff] at runs ⊢
      refine (runsOn_parsedPodSpec p node).mpr (runsOn_of_tolerated (fun taint h => ?_) runs)
      exact (tolerated_append _ _ taint).mpr (.inl h)

end Compared

/-- Where the count is in a field of the spec, it is the one reported. -/
theorem reported_constReplicas (c : Converter Terms Content Item) (nodes : Store Node.name)
    (controller : Controller Terms) {field failure : String} {count : Option Int}
    (acquires : ∀ spec, tryAcquireReplicasFromUnstructuredSpec c.toAccessors m spec
      controller.kind = constFromSpec c.toAccessors spec field failure)
    (has : ∀ spec, c.HasSpec spec controller → c.nestedInt64 spec field = .ok count) :
    reported c.toAccessors m nodes (.unstructured (c.toUnstructured controller)) =
      .ok (count.getD 0) := by
  obtain ⟨spec, hspec, hfields⟩ := c.spec_toUnstructured controller
  simp only [reported, getReplicasFromRuntimeObject, getReplicasFromUnstructured,
    getSpecFromUnstructured, hspec, c.kind_toUnstructured, bind, Except.bind, acquires,
    constFromSpec, has spec hfields]
  rfl

/-- The two counts agree exactly if no node is admitted only by the tolerations
that the DaemonSet controller gives to its pods: the typed way leaves them out. -/
theorem reported_typed_eq_unstructured_iff (c : Converter Terms Content Item)
    (m : Matching Terms Selector) (controller : Controller Terms) (nodes : Store Node.name) :
    reported c.toAccessors m nodes (.typed controller) =
        reported c.toAccessors m nodes (.unstructured (c.toUnstructured controller)) ↔
      ∀ p selector, controller = .daemonSet p →
        m.labelSelectorAsSelector p.nodeSelector = .ok selector →
          ∀ node ∈ nodes, m.selects selector node = true →
            RunsOn m p.affinity (p.tolerations ++ daemonPodTolerations false) node →
              RunsOn m p.affinity p.tolerations node := by
  have other (controller : Controller Terms) {field failure : String} {count : Option Int}
      (acquires : ∀ spec, tryAcquireReplicasFromUnstructuredSpec c.toAccessors m spec
        controller.kind = constFromSpec c.toAccessors spec field failure)
      (has : ∀ spec, c.HasSpec spec controller → c.nestedInt64 spec field = .ok count) :=
    (reported_constReplicas m c nodes controller acquires has).symm
  cases controller with
  | replicationController | replicaSet | deployment | statefulSet =>
    exact iff_of_true (other _ (fun _ => rfl) fun _ => id) nofun
  | job => exact iff_of_true (other _ (fun _ => rfl) fun _ => id) nofun
  | daemonSet p =>
    rw [reported_daemonSet]
    constructor
    · rintro admitted _ selector ⟨⟩
      exact admitted selector
    · intro admitted selector
      exact admitted p selector rfl

/-! ## A converter -/

/-- The parts of a converted object. -/
inductive Document (Terms : Type) where
  | nilMap
  | object (controller : Controller Terms)
  | spec (controller : Controller Terms)
  | template (p : PodSpec Terms)
  | podSpec (p : PodSpec Terms)
  | affinity (a : Affinity Terms)

def accessors : Accessors Terms (Document Terms) Toleration where
  nilMap := .nilMap
  getKind
    | .object controller => controller.kind
    | _ => ""
  getName _ := ""
  nestedInt64
    | .spec (.replicationController n), "replicas" | .spec (.replicaSet n), "replicas"
    | .spec (.deployment n), "replicas" | .spec (.statefulSet n), "replicas"
    | .spec (.job n), "parallelism" => .ok n
    | _, _ => .ok none
  nestedMap
    | .object controller, "spec" => .ok (some (.spec controller))
    | .spec (.daemonSet p), "template" => .ok (some (.template p))
    | .template p, "spec" => .ok (some (.podSpec p))
    | .podSpec p, "affinity" => .ok (p.affinity.map .affinity)
    | _, _ => .ok none
  nestedStringMap
    | .podSpec p, "nodeSelector" => .ok (some p.nodeSelector)
    | _, _ => .ok none
  nestedSlice
    | .podSpec p, "tolerations" => .ok (some p.tolerations)
    | _, _ => .ok none
  affinityFrom
    | .affinity a => .ok a
    | _ => .error "no affinity"
  tolerationFrom := .ok

def converter : Converter Terms (Document Terms) Toleration where
  toAccessors := accessors
  toUnstructured := .object
  kind_toUnstructured _ := rfl
  spec_toUnstructured controller := by
    refine ⟨.spec controller, rfl, ?_⟩
    cases controller with
    | daemonSet p =>
      refine ⟨_, _, rfl, rfl, ⟨_, rfl, rfl⟩, ⟨_, rfl, ?_⟩, ⟨_, rfl, rfl⟩⟩
      rw [Option.map_map]
      rfl
    | _ => rfl

/-- One cordoned node: the typed DaemonSet asks for no pod, the unstructured one
for one. -/
theorem reported_differ_cordoned :
    reported accessors byName (Store.empty.insert ⟨"a", [], [cordoned], []⟩)
        (.typed (.daemonSet ⟨[], none, [], false⟩)) ≠
      reported accessors byName (Store.empty.insert ⟨"a", [], [cordoned], []⟩)
        (.unstructured (converter.toUnstructured (.daemonSet ⟨[], none, [], false⟩))) := by
  have htyped : reported accessors byName (Store.empty.insert ⟨"a", [], [cordoned], []⟩)
      (.typed (.daemonSet ⟨[], none, [], false⟩)) = .ok 0 := by rfl
  have hunstructured : reported accessors byName (Store.empty.insert ⟨"a", [], [cordoned], []⟩)
      (.unstructured (converter.toUnstructured (.daemonSet ⟨[], none, [], false⟩))) =
      .ok 1 := by rfl
  rw [hunstructured]
  nofun

end ExpectedReplicas
