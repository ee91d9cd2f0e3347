import ClusterLoader.EnabledRuns
import ClusterLoader.Informers

/-!
# Counting the nodes a DaemonSet should run on

`NodeCounter` keeps a number that its informer's notifications move up and down
by one: it never looks at the whole set of nodes. The label selector is applied
by the API server, so it only decides which nodes the informer is told of;
affinity and taints are checked in `shouldRun`. What the Kubernetes libraries
decide is left open in `Matching`: node selector terms and label selectors
altogether, tolerations up to what their documentation says of them.

The informer only holds nodes, so an object of another type is not modelled.
-/

namespace NodeCounter

open KeyedStore Informers EnabledRuns

inductive TaintEffect where
  | noSchedule
  | preferNoSchedule
  | noExecute
  deriving DecidableEq

structure Taint where
  key : String
  value : String
  effect : TaintEffect
  deriving DecidableEq

inductive TolerationOperator where
  | unset
  | opEqual
  | opExists
  deriving DecidableEq

/-- An empty key stands for every key, no effect for every effect. -/
structure Toleration where
  key : String
  operator : TolerationOperator
  value : String
  effect : Option TaintEffect
  tolerationSeconds : Option Int
  deriving DecidableEq

structure Node where
  name : String
  labels : List (String × String)
  taints : List Taint
  /-- The names of each image in the node's status. -/
  images : List (List String)
  deriving DecidableEq

structure NodeAffinity (Terms : Type) where
  requiredDuringSchedulingIgnoredDuringExecution : Option Terms

structure Affinity (Terms : Type) where
  nodeAffinity : Option (NodeAffinity Terms)

/-- What the code leaves to the Kubernetes libraries, and what is assumed of it. -/
structure Matching (Terms Selector : Type) where
  matchNodeSelectorTerms : Node → Terms → Except String Bool
  labelSelectorAsSelector : List (String × String) → Except String Selector
  selects : Selector → Node → Bool
  toleratesTaint : Toleration → Taint → Bool
  matchToleration : Toleration → Toleration → Bool
  findMatchingUntoleratedTaint : List Taint → List Toleration → (Taint → Bool) → Option Taint
  toleratesTaint_iff : ∀ t taint, toleratesTaint t taint = true ↔
    (t.effect = none ∨ t.effect = some taint.effect) ∧ (t.key = "" ∨ t.key = taint.key) ∧
      (t.operator = .opExists ∨ t.value = taint.value)
  matchToleration_iff : ∀ t t', matchToleration t t' = true ↔
    t.key = t'.key ∧ t.effect = t'.effect ∧ t.operator = t'.operator ∧ t.value = t'.value
  findMatchingUntoleratedTaint_eq_none : ∀ taints tolerations inclusionFilter,
    findMatchingUntoleratedTaint taints tolerations inclusionFilter = none ↔
      ∀ taint ∈ taints, inclusionFilter taint = true →
        ∃ t ∈ tolerations, toleratesTaint t taint = true

section
variable {Terms Selector : Type} (m : Matching Terms Selector)

def podMatchesNodeAffinity (affinity : Option (Affinity Terms)) (node : Node) :
    Except String Bool :=
  match affinity.bind Affinity.nodeAffinity with
  | none => .ok true
  | some nodeAffinity =>
    match nodeAffinity.requiredDuringSchedulingIgnoredDuringExecution with
    | none => .ok true
    | some terms => m.matchNodeSelectorTerms node terms

structure Counter (Terms Selector : Type) where
  nodeSelector : Selector
  affinity : Option (Affinity Terms)
  tolerations : List Toleration
  replicas : Int

def newNodeCounter (nodeSelector : Selector) (affinity : Option (Affinity Terms))
    (tolerations : List Toleration) : Counter Terms Selector where
  nodeSelector := nodeSelector
  affinity := affinity
  tolerations := tolerations
  replicas := 0

/-- The effects that keep a daemon pod off a node or evict it. -/
def keepsOff (taint : Taint) : Bool :=
  taint.effect = .noExecute || taint.effect = .noSchedule

def Counter.shouldRun (n : Counter Terms Selector) : Option Node → Except String Bool
  | none => .ok false
  | some node => do
    let matched ← podMatchesNodeAffinity m n.affinity node
    let untolerated := m.findMatchingUntoleratedTaint node.taints n.tolerations keepsOff
    return !untolerated.isSome && matched

def Counter.handleObject (n : Counter Terms Selector) (oldObj newObj : Option Node) :
    Except String (Counter Terms Selector) := do
  let oldO ← n.shouldRun m oldObj
  let newO ← n.shouldRun m newObj
  if newO = oldO then return n
  else if newO && !oldO then return { n with replicas := n.replicas + 1 }
  else return { n with replicas := n.replicas - 1 }

/-- The informer's callback only logs an error. -/
def Counter.handle (n : Counter Terms Selector) (oldObj newObj : Option Node) :
    Counter Terms Selector :=
  match n.handleObject m oldObj newObj with
  | .error _ => n
  | .ok n' => n'

/-- `addEventHandler`: a tombstone is unwrapped. -/
def Counter.onNotification (n : Counter Terms Selector) : Notification Node →
    Counter Terms Selector
  | .add obj => n.handle m none (some obj)
  | .update oldObj newObj => n.handle m (some oldObj) (some newObj)
  | .delete obj => n.handle m (some obj.last) none

/-- The nodes the informer holds next to the counter it has told of them. -/
structure Watch (Terms Selector : Type) where
  view : Store Node.name
  counter : Counter Terms Selector

def deliver (w : Watch Terms Selector) (n : Notification Node) :
    Option (Watch Terms Selector) :=
  if n.Deliverable w.view then
    some { view := n.applyTo w.view, counter := w.counter.onNotification m n }
  else none

/-- The terms that a node is required to match, if there are any. -/
def requiredTerms (affinity : Option (Affinity Terms)) : Option Terms := do
  (← (← affinity).nodeAffinity).requiredDuringSchedulingIgnoredDuringExecution

/-- What the counter is for: the required terms match, and each taint that would
keep the pod off the node is tolerated. -/
structure RunsOn (affinity : Option (Affinity Terms)) (tolerations : List Toleration)
    (node : Node) : Prop where
  matched : ∀ terms ∈ requiredTerms affinity, m.matchNodeSelectorTerms node terms = .ok true
  tolerated : ∀ taint ∈ node.taints, taint.effect = .noExecute ∨ taint.effect = .noSchedule →
    ∃ t ∈ tolerations, m.toleratesTaint t taint = true

instance (affinity : Option (Affinity Terms)) (tolerations : List Toleration) (node : Node) :
    Decidable (RunsOn m affinity tolerations node) :=
  decidable_of_iff
    ((∀ terms ∈ requiredTerms affinity, m.matchNodeSelectorTerms node terms = .ok true) ∧
      ∀ taint ∈ node.taints, taint.effect = .noExecute ∨ taint.effect = .noSchedule →
        ∃ t ∈ tolerations, m.toleratesTaint t taint = true)
    ⟨fun h => ⟨h.1, h.2⟩, fun h => ⟨h.matched, h.tolerated⟩⟩

/-- Affinity terms are valid, so that matching gives an answer for every node. -/
def ValidAffinity (affinity : Option (Affinity Terms)) : Prop :=
  ∀ node, ∀ terms ∈ requiredTerms affinity,
    ∃ matched, m.matchNodeSelectorTerms node terms = .ok matched

theorem podMatchesNodeAffinity_eq (affinity : Option (Affinity Terms)) (node : Node) :
    podMatchesNodeAffinity m affinity node =
      match requiredTerms affinity with
      | none => .ok true
      | some terms => m.matchNodeSelectorTerms node terms := by
  rcases affinity with _ | ⟨_ | ⟨_ | terms⟩⟩ <;> rfl

theorem podMatchesNodeAffinity_ok_true_iff (affinity : Option (Affinity Terms)) (node : Node) :
    podMatchesNodeAffinity m affinity node = .ok true ↔
      ∀ terms ∈ requiredTerms affinity, m.matchNodeSelectorTerms node terms = .ok true := by
  rw [podMatchesNodeAffinity_eq]
  cases requiredTerms affinity <;> simp

variable {m}
variable {n : Counter Terms Selector}

theorem shouldRun_of_matched {node : Node} {matched : Bool}
    (hmatched : podMatchesNodeAffinity m n.affinity node = .ok matched) :
    n.shouldRun m (some node) = .ok (decide (RunsOn m n.affinity n.tolerations node)) := by
  have htaints := m.findMatchingUntoleratedTaint_eq_none node.taints n.tolerations keepsOff
  simp only [keepsOff, Bool.or_eq_true, decide_eq_true_eq] at htaints
  have hrun : n.shouldRun m (some node) = .ok
      (!(m.findMatchingUntoleratedTaint node.taints n.tolerations keepsOff).isSome &&
        matched) := by
    rw [Counter.shouldRun, hmatched]
    rfl
  rw [hrun]
  refine congrArg Except.ok (Bool.eq_iff_iff.mpr ?_)
  rw [Bool.and_eq_true, Bool.not_eq_true', Option.isSome_eq_false_iff, Option.isNone_iff_eq_none,
    htaints, decide_eq_true_iff]
  constructor
  · rintro ⟨tolerated, rfl⟩
    exact ⟨(podMatchesNodeAffinity_ok_true_iff m _ node).mp hmatched, tolerated⟩
  · intro h
    have htrue := (podMatchesNodeAffinity_ok_true_iff m _ node).mpr h.matched
    exact ⟨h.tolerated, Except.ok.inj (hmatched.symm.trans htrue)⟩

/-- Whether the node, if there is one, is to be counted. -/
def counted (m : Matching Terms Selector) (n : Counter Terms Selector) : Option Node → Bool
  | none => false
  | some node => decide (RunsOn m n.affinity n.tolerations node)

theorem shouldRun_eq (valid : ValidAffinity m n.affinity)
    (obj : Option Node) : n.shouldRun m obj = .ok (counted m n obj) := by
  cases obj with
  | none => rfl
  | some node =>
    have hmatched : ∃ matched, podMatchesNodeAffinity m n.affinity node = .ok matched := by
      rw [podMatchesNodeAffinity_eq]
      cases hterms : requiredTerms n.affinity with
      | none => exact ⟨true, rfl⟩
      | some terms => exact valid node terms hterms
    exact shouldRun_of_matched hmatched.choose_spec

variable {oldObj newObj : Option Node}

/-- The counter moves by the difference that the notification makes. -/
theorem handle_of_shouldRun (hold : n.shouldRun m oldObj = .ok (counted m n oldObj))
    (hnew : n.shouldRun m newObj = .ok (counted m n newObj)) :
    n.handle m oldObj newObj =
      { n with replicas := n.replicas + (counted m n newObj).toNat -
        (counted m n oldObj).toNat } := by
  have hhandle : n.handleObject m oldObj newObj = .ok
      { n with replicas := n.replicas + (counted m n newObj).toNat -
        (counted m n oldObj).toNat } := by
    rw [Counter.handleObject, hold, hnew]
    cases counted m n oldObj <;> cases counted m n newObj <;> simp [bind, Except.bind, pure,
      Except.pure]
  rw [Counter.handle, hhandle]

/-- A node that matching fails on is not counted when it is added. -/
theorem handle_add (n : Counter Terms Selector) (node : Node) :
    n.handle m none (some node) =
      { n with replicas := n.replicas +
        (decide (RunsOn m n.affinity n.tolerations node)).toNat } := by
  cases h : podMatchesNodeAffinity m n.affinity node with
  | ok matched =>
    have hnew := shouldRun_of_matched h
    rw [handle_of_shouldRun rfl hnew]
    simp only [counted, Bool.toNat_false, Int.natCast_zero, Int.sub_zero]
  | error text =>
    have hnot : ¬ RunsOn m n.affinity n.tolerations node := by
      intro runs
      cases h.symm.trans ((podMatchesNodeAffinity_ok_true_iff m _ node).mpr runs.matched)
    have hnew : n.shouldRun m (some node) = .error text := by
      rw [Counter.shouldRun, h]
      rfl
    have hhandle : n.handleObject m none (some node) = .error text := by
      rw [Counter.handleObject, hnew]
      rfl
    rw [Counter.handle, hhandle, decide_eq_false hnot]
    simp only [Bool.toNat_false, Int.natCast_zero, Int.add_zero]

/-- The counter holds the number of the nodes in view it should hold, and still
has the configuration it was made with. -/
structure Counts (m : Matching Terms Selector) (affinity : Option (Affinity Terms))
    (tolerations : List Toleration) (w : Watch Terms Selector) : Prop where
  affinity_eq : w.counter.affinity = affinity
  tolerations_eq : w.counter.tolerations = tolerations
  replicas_eq : w.counter.replicas =
    w.view.count fun node => decide (RunsOn m affinity tolerations node)

section
variable {affinity : Option (Affinity Terms)} {tolerations : List Toleration}
  {w : Watch Terms Selector}

/-- Where the counter moves by as much as the number of nodes it is right again. -/
theorem Counts.handle (counts : Counts m affinity tolerations w) (valid : ValidAffinity m affinity)
    {view : Store Node.name}
    (moved : view.count (fun node => decide (RunsOn m affinity tolerations node)) +
        (counted m w.counter oldObj).toNat =
      w.view.count (fun node => decide (RunsOn m affinity tolerations node)) +
        (counted m w.counter newObj).toNat) :
    Counts m affinity tolerations
      { view := view, counter := w.counter.handle m oldObj newObj } := by
  have hvalid : ValidAffinity m w.counter.affinity := counts.affinity_eq ▸ valid
  have hreplicas := counts.replicas_eq
  rw [handle_of_shouldRun (shouldRun_eq hvalid oldObj) (shouldRun_eq hvalid newObj)]
  refine ⟨counts.affinity_eq, counts.tolerations_eq, ?_⟩
  change w.counter.replicas + _ - _ = (view.count _ : Int)
  omega

theorem Counts.deliver (counts : Counts m affinity tolerations w)
    (valid : ValidAffinity m affinity) {n : Notification Node} {w' : Watch Terms Selector}
    (h : deliver m w n = some w') : Counts m affinity tolerations w' := by
  rw [NodeCounter.deliver, Option.ite_none_right_eq_some] at h
  obtain ⟨deliverable, h⟩ := h
  cases h
  have hcounted : ∀ node, counted m w.counter (some node) =
      decide (RunsOn m affinity tolerations node) := by
    intro node
    rw [counted, counts.affinity_eq, counts.tolerations_eq]
  cases n with
  | add obj =>
    refine counts.handle valid ?_
    have hnone := deliverable
    rw [hcounted]
    change (w.view.insert obj).count _ + 0 = _
    rw [Store.count_insert, Store.count_erase_of_lookup hnone]
    rfl
  | update oldObj newObj =>
    obtain ⟨hmem, hname⟩ : oldObj ∈ w.view ∧ newObj.name = oldObj.name := deliverable
    refine counts.handle valid ?_
    rw [hcounted, hcounted, Store.count_of_mem hmem, ← hname]
    change (w.view.insert newObj).count _ + _ = _
    rw [Store.count_insert]
    omega
  | delete obj =>
    have hmem : obj.last ∈ w.view := deliverable
    refine counts.handle valid ?_
    rw [hcounted, Store.count_of_mem hmem]
    rfl

end

/-- The counter and its informer before the first notification. -/
def started (nodeSelector : Selector) (affinity : Option (Affinity Terms))
    (tolerations : List Toleration) : Watch Terms Selector where
  view := Store.empty
  counter := newNodeCounter nodeSelector affinity tolerations

theorem started_counts (nodeSelector : Selector) (affinity : Option (Affinity Terms))
    (tolerations : List Toleration) :
    Counts m affinity tolerations (started nodeSelector affinity tolerations) :=
  ⟨rfl, rfl, rfl⟩

/-- Whatever the informer delivers, the counter holds the number of nodes in
view that the pods should run on. -/
theorem replicas_eq_count (m : Matching Terms Selector) (nodeSelector : Selector)
    (affinity : Option (Affinity Terms)) (tolerations : List Toleration)
    (valid : ValidAffinity m affinity) (notifications : List (Notification Node))
    (w : Watch Terms Selector)
    (run : exec (deliver m) (started nodeSelector affinity tolerations) notifications =
      some w) :
    w.counter.replicas = w.view.count (fun node => decide (RunsOn m affinity tolerations node)) ∧
      0 ≤ w.counter.replicas := by
  have counts := exec_keeps (fun _ _ _ _ counts h => counts.deliver valid h)
      (started_counts nodeSelector affinity tolerations) run
  have hreplicas := counts.replicas_eq
  exact ⟨hreplicas, by omega⟩

/-- The libraries with the given node selector terms, for concrete runs. -/
def matchingTerms (matchTerms : Node → Terms → Bool) : Matching Terms Unit where
  matchNodeSelectorTerms node terms := .ok (matchTerms node terms)
  labelSelectorAsSelector _ := .ok ()
  selects _ _ := true
  toleratesTaint t taint := (t.effect = none ∨ t.effect = some taint.effect) ∧
    (t.key = "" ∨ t.key = taint.key) ∧ (t.operator = .opExists ∨ t.value = taint.value)
  matchToleration t t' := t.key = t'.key ∧ t.effect = t'.effect ∧ t.operator = t'.operator ∧
    t.value = t'.value
  findMatchingUntoleratedTaint taints tolerations inclusionFilter :=
    taints.find? fun taint => inclusionFilter taint ∧ ∀ t ∈ tolerations,
      ¬ ((t.effect = none ∨ t.effect = some taint.effect) ∧
        (t.key = "" ∨ t.key = taint.key) ∧ (t.operator = .opExists ∨ t.value = taint.value))
  toleratesTaint_iff _ _ := decide_eq_true_iff
  matchToleration_iff _ _ := decide_eq_true_iff
  findMatchingUntoleratedTaint_eq_none := by
    intro taints tolerations inclusionFilter
    simp only [List.find?_eq_none, decide_eq_true_eq, not_and, not_forall, not_not, exists_prop]

/-- Terms that name one node. -/
def byName : Matching String Unit := matchingTerms fun node name => node.name == name

def cordoned : Taint := ⟨"node.kubernetes.io/unschedulable", "", .noSchedule⟩

/-- A node joins cordoned, is uncordoned, and is lost while the watch is down. -/
theorem replicas_eq_count_cordon :
    ∃ w, exec (deliver byName) (started () (some ⟨some ⟨some "a"⟩⟩) [])
        [.add ⟨"a", [], [cordoned], []⟩, .add ⟨"b", [], [], []⟩,
          .update ⟨"a", [], [cordoned], []⟩ ⟨"a", [], [], []⟩,
          .delete (.finalStateUnknown ⟨"b", [], [], []⟩)] = some w ∧
      w.counter.replicas = w.view.count
        (fun node => decide (RunsOn byName (some ⟨some ⟨some "a"⟩⟩) [] node)) ∧
      0 ≤ w.counter.replicas := by
  have reached : exec (deliver byName) (started () (some ⟨some ⟨some "a"⟩⟩) [])
      [.add ⟨"a", [], [cordoned], []⟩, .add ⟨"b", [], [], []⟩,
        .update ⟨"a", [], [cordoned], []⟩ ⟨"a", [], [], []⟩,
        .delete (.finalStateUnknown ⟨"b", [], [], []⟩)] = some _ := rfl
  exact ⟨_, reached, replicas_eq_count byName () _ _ (fun _ _ _ => ⟨_, rfl⟩) _ _ reached⟩

end

end NodeCounter
