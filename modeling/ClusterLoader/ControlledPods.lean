import ClusterLoader.Informers
import ClusterLoader.GuardedRuns
import Mathlib.Data.Finset.Insert
import Mathlib.Data.Finset.Erase

/-!
# The indexer of controlled pods

Pods are found through their controller, and those of a Deployment through the
ReplicaSets between. A deleted ReplicaSet is kept as long as a pod refers to
it. The pod informer's store and its handlers move apart: a change is in the
store before its notification is handled, so the two are separate actions. Of
the ReplicaSet informer only the handlers are modelled, since nothing here
reads its store.

Lookups are complete as long as no pod enters the store after its ReplicaSet
was dropped. Handlers are single actions; a pod stored while one of them runs
counts as stored after it.
-/

namespace ControlledPods

open KeyedStore Informers GuardedRuns

structure Pod where
  key : String
  controller : Option String
  deriving DecidableEq

structure ReplicaSet where
  uid : String
  controller : Option String
  deriving DecidableEq

structure ControlledPodsIndexer where
  podsIndexer : Store Pod.key
  rsIndexer : Store ReplicaSet.uid
  rsPendingDeletion : Finset String

def getControllerInfo (obj : Option Pod) : String :=
  (obj.bind Pod.controller).getD ""

def getObjUID (obj : Option ReplicaSet) : String :=
  (obj.map ReplicaSet.uid).getD ""

variable {p : ControlledPodsIndexer}

namespace ControlledPodsIndexer

def appendPodsControlledBy (p : ControlledPodsIndexer) (res : List Pod) (uid : String) :
    List Pod :=
  res ++ p.podsIndexer.select fun pod => pod.controller = some uid

def podsControlledBy (p : ControlledPodsIndexer) (kind uid : String) : List Pod :=
  let podOwners :=
    if kind = "Deployment" then
      (p.rsIndexer.select fun replicaSet => replicaSet.controller = some uid).map ReplicaSet.uid
    else [uid]
  podOwners.foldl p.appendPodsControlledBy []

def clearRSDataIfPossible (p : ControlledPodsIndexer) (rsUID : String) : ControlledPodsIndexer :=
  if rsUID ∉ p.rsPendingDeletion then p
  else if (p.appendPodsControlledBy [] rsUID).length ≠ 0 then p
  else
    let q := { p with rsPendingDeletion := p.rsPendingDeletion.erase rsUID }
    match p.rsIndexer.lookup rsUID with
    | none => q
    | some obj => { q with rsIndexer := p.rsIndexer.erase obj.uid }

def handlePod (p : ControlledPodsIndexer) : Notification Pod → ControlledPodsIndexer
  | .add _ => p
  | .update oldObj newObj =>
    let oldOwnerUID := getControllerInfo (some oldObj)
    let newOwnerUID := getControllerInfo (some newObj)
    if oldOwnerUID = newOwnerUID then p else p.clearRSDataIfPossible oldOwnerUID
  | .delete obj => p.clearRSDataIfPossible (getControllerInfo obj.accessor)

def handleReplicaSet (p : ControlledPodsIndexer) : Notification ReplicaSet → ControlledPodsIndexer
  | .add obj => { p with rsIndexer := p.rsIndexer.insert obj }
  | .update _ newObj => { p with rsIndexer := p.rsIndexer.insert newObj }
  | .delete obj =>
    let rsUID := getObjUID obj.accessor
    let q := { p with rsPendingDeletion := insert rsUID p.rsPendingDeletion }
    q.clearRSDataIfPossible rsUID

/-- Some pod of the store is controlled by `uid`. -/
def Referenced (p : ControlledPodsIndexer) (uid : String) : Prop :=
  ∃ pod ∈ p.podsIndexer.entries, pod.controller = some uid

instance (p : ControlledPodsIndexer) (uid : String) : Decidable (p.Referenced uid) :=
  List.decidableBEx _ _

theorem appendPodsControlledBy_empty_iff {uid : String} :
    (p.appendPodsControlledBy [] uid).length = 0 ↔ ¬ p.Referenced uid := by
  rw [List.length_eq_zero_iff, appendPodsControlledBy, List.nil_append, Store.select]
  simp [Referenced]

section Clear
variable (p : ControlledPodsIndexer) (rsUID : String)

/-- What `clearRSDataIfPossible` waits for. -/
def Clearable : Prop :=
  rsUID ∈ p.rsPendingDeletion ∧ ¬ p.Referenced rsUID

instance : Decidable (p.Clearable rsUID) :=
  inferInstanceAs (Decidable (_ ∧ _))

variable {p rsUID}

theorem clear_of_not_clearable (h : ¬ p.Clearable rsUID) : p.clearRSDataIfPossible rsUID = p := by
  unfold clearRSDataIfPossible
  by_cases hp : rsUID ∈ p.rsPendingDeletion
  · have hr : (p.appendPodsControlledBy [] rsUID).length ≠ 0 := by
      intro h0
      exact h ⟨hp, appendPodsControlledBy_empty_iff.mp h0⟩
    rw [if_neg (not_not.mpr hp), if_pos hr]
  · rw [if_pos hp]

theorem clear_of_clearable (h : p.Clearable rsUID) :
    p.clearRSDataIfPossible rsUID =
      { p with rsPendingDeletion := p.rsPendingDeletion.erase rsUID
               rsIndexer := match p.rsIndexer.lookup rsUID with
                 | none => p.rsIndexer
                 | some obj => p.rsIndexer.erase obj.uid } := by
  have hr := not_not.mpr (appendPodsControlledBy_empty_iff.mpr h.2)
  unfold clearRSDataIfPossible
  rw [if_neg (not_not.mpr h.1), if_neg hr]
  cases p.rsIndexer.lookup rsUID <;> rfl

variable (p rsUID)

@[simp] theorem clear_podsIndexer :
    (p.clearRSDataIfPossible rsUID).podsIndexer = p.podsIndexer := by
  by_cases h : p.Clearable rsUID
  · rw [clear_of_clearable h]
  · rw [clear_of_not_clearable h]

@[simp] theorem clear_referenced (uid : String) :
    (p.clearRSDataIfPossible rsUID).Referenced uid ↔ p.Referenced uid := by
  rw [Referenced, clear_podsIndexer, Referenced]

theorem lookup_clear (uid : String) :
    (p.clearRSDataIfPossible rsUID).rsIndexer.lookup uid =
      if uid = rsUID ∧ p.Clearable rsUID then none else p.rsIndexer.lookup uid := by
  by_cases h : p.Clearable rsUID
  · rw [clear_of_clearable h]
    cases hl : p.rsIndexer.lookup rsUID with
    | none =>
      by_cases hu : uid = rsUID
      · simp [hu, hl]
      · simp [hu]
    | some obj =>
      have huid : obj.uid = rsUID := (Store.lookup_eq_some.mp hl).2
      simp only [Store.lookup_erase, huid, h, and_true]
  · rw [clear_of_not_clearable h, if_neg fun hc => h hc.2]

theorem mem_pending_clear (uid : String) :
    uid ∈ (p.clearRSDataIfPossible rsUID).rsPendingDeletion ↔
      uid ∈ p.rsPendingDeletion ∧ ¬ (uid = rsUID ∧ p.Clearable rsUID) := by
  by_cases h : p.Clearable rsUID
  · rw [clear_of_clearable h, Finset.mem_erase]
    simp only [h, and_true]
    exact And.comm
  · rw [clear_of_not_clearable h]
    simp [h]

end Clear

/-- A pod notification clears at most one ReplicaSet, the one it may have
been the last to refer to. -/
def released : Notification Pod → Option String
  | .add _ => none
  | .update oldObj newObj =>
    if getControllerInfo (some oldObj) = getControllerInfo (some newObj) then none
    else some (getControllerInfo (some oldObj))
  | .delete obj => some (getControllerInfo obj.accessor)

theorem handlePod_eq (p : ControlledPodsIndexer) (n : Notification Pod) :
    p.handlePod n = (released n).elim p p.clearRSDataIfPossible := by
  cases n with
  | add obj => rfl
  | update oldObj newObj =>
    simp only [handlePod, released]
    split <;> rfl
  | delete obj => rfl

end ControlledPodsIndexer

open ControlledPodsIndexer

structure System where
  indexer : ControlledPodsIndexer
  /-- Changes of the pod store whose handlers have not run yet. -/
  podQueue : List (Notification Pod)
  /-- The ReplicaSet notifications handled so far. -/
  rsLog : List (Notification ReplicaSet)

def System.initial : System where
  indexer := { podsIndexer := .empty, rsIndexer := .empty, rsPendingDeletion := ∅ }
  podQueue := []
  rsLog := []

inductive Action where
  | storePod (n : Notification Pod)
  | handlePod
  | handleReplicaSet (n : Notification ReplicaSet)

def step (s : System) : Action → System
  | .storePod n =>
    { s with
      indexer := { s.indexer with podsIndexer := n.applyTo s.indexer.podsIndexer }
      podQueue := s.podQueue ++ [n] }
  | .handlePod =>
    match s.podQueue with
    | [] => s
    | n :: rest => { s with indexer := s.indexer.handlePod n, podQueue := rest }
  | .handleReplicaSet n =>
    { s with indexer := s.indexer.handleReplicaSet n, rsLog := s.rsLog ++ [n] }

/-- The last version of each ReplicaSet that an add or an update has shown. -/
def lastObserved (log : List (Notification ReplicaSet)) : String → Option ReplicaSet :=
  log.foldl (fun seen n => match n.stored with
    | none => seen
    | some rs => Function.update seen rs.uid (some rs)) fun _ => none

theorem lastObserved_append (log : List (Notification ReplicaSet)) (n : Notification ReplicaSet) :
    lastObserved (log ++ [n]) = match n.stored with
      | none => lastObserved log
      | some rs => Function.update (lastObserved log) rs.uid (some rs) := by
  rw [lastObserved, List.foldl_append]
  rfl

/-- No pod is stored whose ReplicaSet has been observed and dropped. -/
def InTime (s : System) : Action → Prop
  | .storePod n => ∀ pod ∈ n.stored, ∀ uid ∈ pod.controller,
      s.indexer.rsIndexer.lookup uid = none → lastObserved s.rsLog uid = none
  | _ => True

instance (s : System) (a : Action) : Decidable (InTime s a) := by
  cases a with
  | storePod n => exact inferInstanceAs (Decidable (∀ pod ∈ n.stored, _))
  | handlePod | handleReplicaSet => exact .isTrue trivial

/-- What the indexer holds of the ReplicaSets observed. -/
structure Complete (s : System) : Prop where
  current : ∀ uid rs, s.indexer.rsIndexer.lookup uid = some rs →
    lastObserved s.rsLog uid = some rs
  referenced : ∀ uid, s.indexer.Referenced uid →
    s.indexer.rsIndexer.lookup uid = lastObserved s.rsLog uid

theorem complete_initial : Complete .initial where
  current uid rs h := by cases h
  referenced uid h := by
    obtain ⟨pod, hpod, _⟩ := h
    cases hpod

variable {s : System}

/-- Clearing drops only what no pod refers to. -/
theorem complete_clear (c : Complete s) (rsUID : String) (pending : Finset String)
    (queue : List (Notification Pod)) :
    Complete { s with
      indexer := ControlledPodsIndexer.clearRSDataIfPossible
        { s.indexer with rsPendingDeletion := pending } rsUID
      podQueue := queue } where
  current uid rs h := by
    rw [lookup_clear] at h
    split at h
    · cases h
    · exact c.current uid rs h
  referenced uid h := by
    rw [clear_referenced] at h
    rw [lookup_clear, if_neg]
    · exact c.referenced uid h
    · rintro ⟨rfl, _, hnot⟩
      exact hnot h

theorem complete_observe (c : Complete s) {n : Notification ReplicaSet}
    {rs : ReplicaSet} (h : n.stored = some rs) :
    Complete { s with
      indexer := { s.indexer with rsIndexer := s.indexer.rsIndexer.insert rs }
      rsLog := s.rsLog ++ [n] } where
  current uid rs' hl := by
    rw [Store.lookup_insert] at hl
    rw [lastObserved_append, h]
    by_cases hu : uid = rs.uid
    · subst hu
      simpa using hl
    · rw [if_neg hu] at hl
      simpa [hu] using c.current uid rs' hl
  referenced uid hr := by
    rw [Store.lookup_insert, lastObserved_append, h]
    by_cases hu : uid = rs.uid
    · subst hu
      simp
    · simpa [hu] using c.referenced uid hr

theorem complete_store (c : Complete s) {n : Notification Pod}
    (inTime : InTime s (.storePod n)) : Complete (step s (.storePod n)) where
  current := c.current
  referenced uid h := by
    obtain ⟨pod, hpod, hctrl⟩ := h
    rcases Notification.mem_applyTo hpod with hold | hnew
    · exact c.referenced uid ⟨pod, hold, hctrl⟩
    · change s.indexer.rsIndexer.lookup uid = lastObserved s.rsLog uid
      cases hl : s.indexer.rsIndexer.lookup uid with
      | some rs => exact (c.current uid rs hl).symm
      | none => exact (inTime pod hnew uid hctrl hl).symm

theorem complete_step (s : System) (a : Action) (c : Complete s) (inTime : InTime s a) :
    Complete (step s a) := by
  cases a with
  | storePod n => exact complete_store c inTime
  | handlePod =>
    cases hq : s.podQueue with
    | nil => simpa only [step, hq] using c
    | cons n rest =>
      simp only [step, hq, handlePod_eq]
      cases released n with
      | none => exact ⟨c.current, c.referenced⟩
      | some uid => exact complete_clear c uid s.indexer.rsPendingDeletion rest
  | handleReplicaSet n =>
    cases n with
    | add | update => exact complete_observe c rfl
    | delete obj =>
      have hlog : lastObserved (s.rsLog ++ [.delete obj]) = lastObserved s.rsLog :=
        lastObserved_append _ _
      have hc := complete_clear c (getObjUID obj.accessor)
        (insert (getObjUID obj.accessor) s.indexer.rsPendingDeletion) s.podQueue
      refine ⟨fun uid rs h => ?_, fun uid h => ?_⟩
      · exact (congrFun hlog uid).trans (hc.current uid rs h)
      · exact (hc.referenced uid h).trans (congrFun hlog uid).symm

theorem complete_run {actions : List Action} (inTime : Along step InTime .initial actions) :
    Complete (run step .initial actions) :=
  run_keeps complete_step complete_initial inTime

/-- The ReplicaSet notifications of a run. -/
def replicaSetHistory (actions : List Action) : List (Notification ReplicaSet) :=
  actions.filterMap fun
    | .handleReplicaSet n => some n
    | _ => none

theorem rsLog_run (s : System) (actions : List Action) :
    (run step s actions).rsLog = s.rsLog ++ replicaSetHistory actions := by
  induction actions generalizing s with
  | nil => exact (List.append_nil _).symm
  | cons a rest ih =>
    have hrun : run step s (a :: rest) = run step (step s a) rest := rfl
    rw [hrun, ih]
    cases a with
    | storePod n => rfl
    | handlePod =>
      have hlog : (step s .handlePod).rsLog = s.rsLog := by
        cases hq : s.podQueue <;> simp [step, hq]
      rw [hlog]
      rfl
    | handleReplicaSet n =>
      exact List.append_assoc _ _ _

theorem foldl_appendPodsControlledBy (p : ControlledPodsIndexer) (owners : List String)
    (res : List Pod) :
    owners.foldl p.appendPodsControlledBy res = res ++ owners.flatMap fun uid =>
      p.podsIndexer.select fun pod => pod.controller = some uid := by
  induction owners generalizing res with
  | nil => exact (List.append_nil res).symm
  | cons uid owners ih =>
    rw [List.foldl_cons, ih, appendPodsControlledBy, List.flatMap_cons, List.append_assoc]

theorem mem_podsControlledBy_deployment {d : String} {pod : Pod} :
    pod ∈ p.podsControlledBy "Deployment" d ↔ pod ∈ p.podsIndexer ∧
      ∃ rs ∈ p.rsIndexer, rs.controller = some d ∧ pod.controller = some rs.uid := by
  rw [podsControlledBy, if_pos rfl, foldl_appendPodsControlledBy, List.nil_append]
  simp only [List.mem_flatMap, List.mem_map, Store.mem_select, decide_eq_true_iff]
  constructor
  · rintro ⟨uid, ⟨rs, ⟨hrs, hd⟩, rfl⟩, hpod, hctrl⟩
    exact ⟨hpod, rs, hrs, hd, hctrl⟩
  · rintro ⟨hpod, rs, hrs, hd, hctrl⟩
    exact ⟨rs.uid, ⟨rs, ⟨hrs, hd⟩, rfl⟩, hpod, hctrl⟩

/-- Distinct ReplicaSets control distinct pods, so none is returned twice. -/
theorem podsControlledBy_deployment_nodup (p : ControlledPodsIndexer) (d : String) :
    (p.podsControlledBy "Deployment" d).Nodup := by
  rw [podsControlledBy, foldl_appendPodsControlledBy, List.nil_append,
    List.nodup_flatMap]
  refine ⟨fun uid _ => Store.select_nodup _ _, ?_⟩
  have hkeys : ((p.rsIndexer.select fun replicaSet => replicaSet.controller = some d).map
      ReplicaSet.uid).Nodup :=
    p.rsIndexer.unique.sublist (List.filter_sublist.map _)
  refine hkeys.imp fun {u v} hne pod hu hv => ?_
  have hu' := (Store.mem_select.mp hu).2
  have hv' := (Store.mem_select.mp hv).2
  simp only [decide_eq_true_iff] at hu' hv'
  exact hne (Option.some.inj (hu'.symm.trans hv'))

/-- A Deployment's pods as the notifications tell them: in the store, with a
controller last observed as controlled by the Deployment. -/
def ControlledThrough (log : List (Notification ReplicaSet)) (d : String) (pod : Pod) : Prop :=
  ∃ uid rs, pod.controller = some uid ∧ lastObserved log uid = some rs ∧ rs.controller = some d

theorem mem_podsControlledBy_of_complete (c : Complete s) {d : String} {pod : Pod} :
    pod ∈ s.indexer.podsControlledBy "Deployment" d ↔
      pod ∈ s.indexer.podsIndexer ∧ ControlledThrough s.rsLog d pod := by
  rw [mem_podsControlledBy_deployment]
  refine and_congr_right fun hpod => ⟨?_, ?_⟩
  · rintro ⟨rs, hrs, hd, hctrl⟩
    exact ⟨rs.uid, rs, hctrl, c.current _ _ (Store.lookup_eq_some.mpr ⟨hrs, rfl⟩), hd⟩
  · rintro ⟨uid, rs, hctrl, hobs, hd⟩
    have hl := (c.referenced uid ⟨pod, hpod, hctrl⟩).trans hobs
    obtain ⟨hrs, rfl⟩ := Store.lookup_eq_some.mp hl
    exact ⟨rs, hrs, hd, hctrl⟩

/-- Deleted ReplicaSets included, at every moment of a run in time. -/
theorem podsControlledBy_complete (actions : List Action)
    (inTime : Along step InTime .initial actions) (d : String) :
    ((run step .initial actions).indexer.podsControlledBy "Deployment" d).Nodup ∧
      ∀ pod, pod ∈ (run step .initial actions).indexer.podsControlledBy "Deployment" d ↔
        pod ∈ (run step .initial actions).indexer.podsIndexer ∧
          ControlledThrough (replicaSetHistory actions) d pod := by
  have hlog : (run step .initial actions).rsLog = replicaSetHistory actions :=
    rsLog_run .initial actions
  refine ⟨podsControlledBy_deployment_nodup _ d, fun pod => ?_⟩
  rw [mem_podsControlledBy_of_complete (complete_run inTime), hlog]

section Samples

def webReplicaSet : ReplicaSet := ⟨"rs-uid", some "deployment-uid"⟩

def webPod : Pod := ⟨"default/web-0", some "rs-uid"⟩

/-- The pod is stored before its ReplicaSet is deleted. -/
def promptRun : List Action :=
  [.handleReplicaSet (.add webReplicaSet), .storePod (.add webPod), .handlePod,
    .handleReplicaSet (.delete (.known webReplicaSet))]

/-- The pod informer lags: the ReplicaSet is gone before the pod is stored. -/
def laggingRun : List Action :=
  [.handleReplicaSet (.add webReplicaSet), .handleReplicaSet (.delete (.known webReplicaSet)),
    .storePod (.add webPod), .handlePod]

end Samples

theorem podsControlledBy_complete_prompt :
    webPod ∈ (run step .initial promptRun).indexer.podsControlledBy "Deployment"
      "deployment-uid" := by
  have h := podsControlledBy_complete promptRun (by decide) "deployment-uid"
  exact (h.2 webPod).mpr ⟨by decide, "rs-uid", webReplicaSet, rfl, by decide, rfl⟩

/-- The pod of the lagging run is in the store, its controller was last
observed as controlled by the Deployment, and it is not found. -/
theorem late_pod_not_found :
    (run step .initial laggingRun).podQueue = [] ∧
      webPod ∈ (run step .initial laggingRun).indexer.podsIndexer ∧
      ControlledThrough (replicaSetHistory laggingRun) "deployment-uid" webPod ∧
      webPod ∉ (run step .initial laggingRun).indexer.podsControlledBy "Deployment"
        "deployment-uid" := by
  refine ⟨by decide, by decide, ⟨"rs-uid", webReplicaSet, rfl, by decide, rfl⟩, by decide⟩

end ControlledPods
