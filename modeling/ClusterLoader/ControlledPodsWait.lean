import ClusterLoader.FallibleLoops
import ClusterLoader.Informers
import Mathlib.Data.Finset.Card

/-!
# The measurement that waits for controlled pods

`WaitForControlledPodsRunning` registers a checker for every controlling
object, replaces it when the object's spec changes, and at `gather` compares
the checkers with a fresh listing. An object is what the measurement reads of
it; specs are taken up to the semantic equality the code compares them with,
and a missing spec is one the comparison fails on. What a checker waits for is
outside: a checker carries the version it was started for and receives the
outcome of its wait.
-/

namespace ControlledPodsWait

open FallibleLoops KeyedStore Informers

structure Object (Spec : Type) where
  key : String
  uid : String
  spec : Option Spec
  /-- `none` when it is not a decimal number; an empty one counts as zero. -/
  resourceVersion : Option Nat
  deriving DecidableEq

/-- The objects an informer or a listing shows. -/
abbrev Content (Spec : Type) : Type :=
  Store (Object.key : Object Spec → String)

inductive ObjectStatus where
  | unknown
  | running
  | deleted
  | failed
  | timeout
  | deleteTimeout
  deriving DecidableEq

structure PodInfo where
  name : String
  hostname : String
  status : String
  ns : String

structure FailedPod where
  ns : String
  controlledBy : String
  name : String
  host : String
  status : String

structure ObjectChecker (Spec : Type) where
  status : ObjectStatus
  err : Option String
  key : String
  /-- `none` is the nil pointer. -/
  failedPods : Option (List PodInfo)
  /-- The version the checker was started for. -/
  uid : String
  spec : Option Spec
  isDeleted : Bool
  cancelled : Bool

variable {Spec : Type}

def newObjectChecker (obj : Object Spec) (isDeleted : Bool) : ObjectChecker Spec where
  status := .unknown
  err := none
  key := obj.key
  failedPods := none
  uid := obj.uid
  spec := obj.spec
  isDeleted := isDeleted
  cancelled := false

def ObjectChecker.stop (o : ObjectChecker Spec) : ObjectChecker Spec :=
  { o with cancelled := true }

/-- How a checker's wait ends. -/
inductive Outcome where
  | notStarted (err : String)
  | done
  | interrupted (err : String) (failedPods : Option (List PodInfo)) (hasTimedOut : Bool)

def ObjectChecker.finish (o : ObjectChecker Spec) : Outcome → ObjectChecker Spec
  | .notStarted err => { o with err := some ("failed to start runtimeObjectReplicas: " ++ err) }
  | .done => { o with status := if o.isDeleted then .deleted else .running }
  | .interrupted err failedPods hasTimedOut =>
    { o with
      status := if hasTimedOut then (if o.isDeleted then .deleteTimeout else .timeout) else .failed
      err := some (o.key ++ ": " ++ err)
      failedPods := failedPods }

abbrev CheckerMap (Spec : Type) : Type :=
  Store (ObjectChecker.key : ObjectChecker Spec → String)

/-- `Map.Dispose`: the checkers are stopped, and the empty map made after that
is assigned to the method's own receiver only. -/
def CheckerMap.dispose (cm : CheckerMap Spec) : CheckerMap Spec :=
  cm.update ObjectChecker.stop fun _ => rfl

structure Measurement (Spec : Type) where
  kind : String
  isRunning : Bool
  objectKeys : Finset String
  opResourceVersion : Nat
  checkerMap : CheckerMap Spec

/-- A measurement as its constructor makes it, with `kind` from its start. -/
def createWaitForControlledPodsRunningMeasurement (kind : String) : Measurement Spec where
  kind := kind
  isRunning := false
  objectKeys := ∅
  opResourceVersion := 0
  checkerMap := .empty

def getSpecFromRuntimeObject : Option (Object Spec) → Except String (Option Spec)
  | none => .ok none
  | some obj => match obj.spec with
    | none => .error "try to acquire spec failed"
    | some spec => .ok (some spec)

def isEqualRuntimeObjectsSpec [DecidableEq Spec] (obj1 obj2 : Option (Object Spec)) :
    Except String Bool := do
  let spec1 ← getSpecFromRuntimeObject obj1
  let spec2 ← getSpecFromRuntimeObject obj2
  return decide (spec1 = spec2)

namespace Measurement

/-- A start that succeeds. -/
def start (w : Measurement Spec) : Measurement Spec :=
  { w with isRunning := true }

/-- A new measurement after its first start. -/
def started (kind : String) : Measurement Spec :=
  (createWaitForControlledPodsRunningMeasurement kind).start

def updateOpResourceVersion (w : Measurement Spec) (obj : Object Spec) : Measurement Spec :=
  match obj.resourceVersion with
  | none => w
  | some version =>
    if version > w.opResourceVersion then { w with opResourceVersion := version } else w

def updateCache (w : Measurement Spec) (oldObj newObj : Option (Object Spec)) : Measurement Spec :=
  let w := match oldObj with
    | none => w
    | some obj =>
      { w with objectKeys := w.objectKeys.erase obj.key }.updateOpResourceVersion obj
  match newObj with
  | none => w
  | some obj => { w with objectKeys := insert obj.key w.objectKeys }.updateOpResourceVersion obj

def deleteObject (w : Measurement Spec) : Option (Object Spec) → Measurement Spec
  | none => w
  | some obj => { w with checkerMap := w.checkerMap.erase obj.key }

/-- `creation` is how the preparation of the checker ends; a checker that
could not be prepared is not registered. -/
def handleObjectLocked (w : Measurement Spec) (oldObj newObj : Option (Object Spec))
    (creation : Except String Unit) : Measurement Spec :=
  let isObjDeleted := newObj.isNone
  let handledObj := if isObjDeleted then oldObj else newObj
  match handledObj, creation with
  | none, _ => w
  | some _, .error _ => w
  | some obj, .ok _ =>
    { w with checkerMap := w.checkerMap.insert (newObjectChecker obj isObjDeleted) }

/-- The body of `handleObject` up to its deferred call. -/
def handleChange [DecidableEq Spec] (w : Measurement Spec) (oldObj newObj : Option (Object Spec))
    (creation : Except String Unit) : Measurement Spec :=
  match isEqualRuntimeObjectsSpec oldObj newObj with
  | .error _ => w
  | .ok true => w
  | .ok false =>
    if w.isRunning then (w.deleteObject oldObj).handleObjectLocked oldObj newObj creation
    else w

def handleObject [DecidableEq Spec] (w : Measurement Spec) (oldObj newObj : Option (Object Spec))
    (creation : Except String Unit) : Measurement Spec :=
  (w.handleChange oldObj newObj creation).updateCache oldObj newObj

/-- The handler the informer calls; a tombstone is unwrapped. -/
def handleNotification [DecidableEq Spec] (w : Measurement Spec) (n : Notification (Object Spec))
    (creation : Except String Unit) : Measurement Spec :=
  match n with
  | .add obj => w.handleObject none (some obj) creation
  | .update oldObj newObj => w.handleObject (some oldObj) (some newObj) creation
  | .delete obj => w.handleObject (some obj.last) none creation

/-- The wait of the checker registered under `key` ends. -/
def finishChecker (w : Measurement Spec) (key : String) (outcome : Outcome) : Measurement Spec :=
  match w.checkerMap.lookup key with
  | none => w
  | some o =>
    if o.status = .unknown ∧ o.err = none then
      { w with checkerMap := w.checkerMap.insert (o.finish outcome) }
    else w

end Measurement

structure Tally where
  numberRunning : Nat := 0
  numberDeleted : Nat := 0
  numberTimeout : Nat := 0
  numberFailed : Nat := 0
  timedOutObjects : List String := []
  failedErrList : List String := []
  failedPods : List FailedPod := []

inductive GatherError where
  | message (text : String)
  | nilPointer
  deriving DecidableEq

def toFailedPods (ps : Option (List PodInfo)) (controlledBy : String) :
    Except GatherError (List FailedPod) :=
  match ps with
  | none => .error .nilPointer
  | some info => .ok (info.map fun pod =>
      { ns := pod.ns, controlledBy := controlledBy, name := pod.name, host := pod.hostname,
        status := pod.status })

def unknownStatus (o : ObjectChecker Spec) : String :=
  "got unknown status for " ++ o.key ++ ": status=0, err=" ++ o.err.getD "<nil>"

def countChecker (t : Tally) (o : ObjectChecker Spec) : Except GatherError Tally :=
  match o.status with
  | .running => .ok { t with numberRunning := t.numberRunning + 1 }
  | .deleted => .ok { t with numberDeleted := t.numberDeleted + 1 }
  | .timeout | .deleteTimeout => do
    let failedPods ← toFailedPods o.failedPods o.key
    .ok { t with
      timedOutObjects := t.timedOutObjects ++ [o.key]
      numberTimeout := t.numberTimeout + 1
      failedPods := t.failedPods ++ failedPods }
  | .failed => do
    let failedPods ← toFailedPods o.failedPods o.key
    .ok { t with
      numberFailed := t.numberFailed + 1
      failedPods := t.failedPods ++ failedPods
      failedErrList := t.failedErrList ++ o.err.toList }
  | .unknown => .error (.message (unknownStatus o))

def errorListString (errors : List String) : String :=
  "[" ++ "\n".intercalate errors ++ "]"

/-- An object whose version cannot be read is passed over. -/
def countListed (acc : Finset String × Nat) (obj : Object Spec) : Finset String × Nat :=
  match obj.resourceVersion with
  | none => acc
  | some version => (insert obj.key acc.1, if version > acc.2 then version else acc.2)

/-- The keys and the highest version of the objects a listing has returned. -/
def getObjectKeysAndMaxVersion (objects : List (Object Spec)) : Finset String × Nat :=
  objects.foldl countListed (∅, 0)

namespace Measurement

/-- The condition `gather` polls. -/
def Synced (w : Measurement Spec) (objectKeys : Finset String) (maxResourceVersion : Nat) : Prop :=
  w.opResourceVersion ≥ maxResourceVersion ∧ objectKeys = w.objectKeys

instance (w : Measurement Spec) (objectKeys : Finset String) (maxResourceVersion : Nat) :
    Decidable (w.Synced objectKeys maxResourceVersion) :=
  inferInstanceAs (Decidable (_ ∧ _))

/-- What `gather` makes of the checkers once it has polled and waited: the
failed pods it returns, and its error. -/
def gatherResult (w : Measurement Spec) (objectKeys : Finset String) :
    List FailedPod × Except GatherError Unit :=
  match w.checkerMap.entries.foldlM countChecker {} with
  | .error e => ([], .error e)
  | .ok t =>
    if t.numberTimeout > 0 then
      (t.failedPods, .error (.message (toString t.numberTimeout ++ " objects timed out: " ++ w.kind
        ++ "s: " ++ ", ".intercalate t.timedOutObjects)))
    else if objectKeys.card ≠ t.numberRunning then
      (t.failedPods, .error (.message ("incorrect objects number: " ++ toString t.numberRunning
        ++ "/" ++ toString objectKeys.card ++ " " ++ w.kind ++ "s are running with all pods")))
    else if t.numberFailed > 0 then
      (t.failedPods,
        .error (.message ("failed objects statuses: " ++ errorListString t.failedErrList)))
    else ([], .ok ())

/-- `gather` in a state that no longer changes, for the keys and the version
its listing has returned. -/
def gather (w : Measurement Spec) (objectKeys : Finset String) (maxResourceVersion : Nat) :
    List FailedPod × Except GatherError Unit :=
  if !w.isRunning then
    ([], .error (.message "metric WaitForControlledPodsRunning has not been started"))
  else if w.Synced objectKeys maxResourceVersion then w.gatherResult objectKeys
  else ([], .error (.message ("timed out while waiting for controlled pods: "
    ++ "timed out waiting for the condition")))

end Measurement

variable {n : Notification (Object Spec)}

section Handlers
variable (w : Measurement Spec)

variable (oldObj newObj : Option (Object Spec))

/-- The cache part of the state is left to `updateCache`. -/
theorem handleChange_cache [DecidableEq Spec] (creation : Except String Unit) :
    (w.handleChange oldObj newObj creation).objectKeys = w.objectKeys ∧
      (w.handleChange oldObj newObj creation).opResourceVersion = w.opResourceVersion ∧
      (w.handleChange oldObj newObj creation).isRunning = w.isRunning ∧
      (w.handleChange oldObj newObj creation).kind = w.kind := by
  have hdelete : ∀ obj : Option (Object Spec), (w.deleteObject obj).objectKeys = w.objectKeys ∧
      (w.deleteObject obj).opResourceVersion = w.opResourceVersion ∧
      (w.deleteObject obj).isRunning = w.isRunning ∧ (w.deleteObject obj).kind = w.kind := by
    intro obj
    cases obj <;> exact ⟨rfl, rfl, rfl, rfl⟩
  unfold Measurement.handleChange
  split
  · exact ⟨rfl, rfl, rfl, rfl⟩
  · exact ⟨rfl, rfl, rfl, rfl⟩
  · split
    · unfold Measurement.handleObjectLocked
      dsimp only
      split <;> exact hdelete oldObj
    · exact ⟨rfl, rfl, rfl, rfl⟩

/-- The versions a notification shows the cache. -/
def shownVersion (obj : Option (Object Spec)) : Nat :=
  (obj.bind Object.resourceVersion).getD 0

theorem updateOpResourceVersion_eq (obj : Object Spec) :
    w.updateOpResourceVersion obj =
      { w with opResourceVersion := max w.opResourceVersion (shownVersion (some obj)) } := by
  unfold Measurement.updateOpResourceVersion shownVersion
  cases h : obj.resourceVersion with
  | none => simp [h]
  | some version =>
    by_cases hv : version > w.opResourceVersion
    · simp [h, hv, Nat.max_eq_right (Nat.le_of_lt hv)]
    · simp [h, hv, Nat.max_eq_left (Nat.le_of_not_gt hv)]

theorem updateCache_eq :
    w.updateCache oldObj newObj =
      { w with
        objectKeys := match oldObj, newObj with
          | none, none => w.objectKeys
          | none, some new => insert new.key w.objectKeys
          | some old, none => w.objectKeys.erase old.key
          | some old, some new => insert new.key (w.objectKeys.erase old.key)
        opResourceVersion :=
          max (max w.opResourceVersion (shownVersion oldObj)) (shownVersion newObj) } := by
  cases oldObj <;> cases newObj <;>
    simp [Measurement.updateCache, updateOpResourceVersion_eq, shownVersion]

theorem finishChecker_cache (key : String) (outcome : Outcome) :
    (w.finishChecker key outcome).objectKeys = w.objectKeys ∧
      (w.finishChecker key outcome).isRunning = w.isRunning := by
  rw [Measurement.finishChecker]
  split
  · exact ⟨rfl, rfl⟩
  · split <;> exact ⟨rfl, rfl⟩

variable [DecidableEq Spec] {w} {creation : Except String Unit}

theorem handleObject_checkerMap :
    (w.handleObject oldObj newObj creation).checkerMap =
      (w.handleChange oldObj newObj creation).checkerMap := by
  rw [Measurement.handleObject, updateCache_eq]

theorem handleObject_isRunning :
    (w.handleObject oldObj newObj creation).isRunning = w.isRunning := by
  rw [Measurement.handleObject, updateCache_eq]
  exact (handleChange_cache w oldObj newObj creation).2.2.1

variable (n)

theorem handleNotification_isRunning :
    (w.handleNotification n creation).isRunning = w.isRunning := by
  cases n with
  | add | update | delete => exact handleObject_isRunning _ _

theorem handleNotification_objectKeys :
    (w.handleNotification n creation).objectKeys = match n with
      | .add obj => insert obj.key w.objectKeys
      | .update oldObj newObj => insert newObj.key (w.objectKeys.erase oldObj.key)
      | .delete obj => w.objectKeys.erase obj.last.key := by
  cases n <;> simp only [Measurement.handleNotification, Measurement.handleObject, updateCache_eq,
    handleChange_cache]

theorem handleNotification_opResourceVersion :
    (w.handleNotification n creation).opResourceVersion = match n with
      | .add obj => max w.opResourceVersion (shownVersion (some obj))
      | .update oldObj newObj =>
        max (max w.opResourceVersion (shownVersion (some oldObj))) (shownVersion (some newObj))
      | .delete obj => max w.opResourceVersion (shownVersion (some obj.last)) := by
  cases n <;> simp [Measurement.handleNotification, Measurement.handleObject, updateCache_eq,
    handleChange_cache, shownVersion]

theorem opResourceVersion_grows :
    w.opResourceVersion ≤ (w.handleNotification n creation).opResourceVersion := by
  rw [handleNotification_opResourceVersion]
  cases n <;> dsimp only <;> omega

variable {n}

theorem opResourceVersion_stored {obj : Object Spec} (h : n.stored = some obj) :
    shownVersion (some obj) ≤ (w.handleNotification n creation).opResourceVersion := by
  rw [handleNotification_opResourceVersion]
  cases n with
  | add | update =>
    cases h
    exact Nat.le_max_right _ _
  | delete gone => cases h

end Handlers

section Listing

variable {objects : List (Object Spec)}

variable {acc : Finset String × Nat}

theorem mem_foldl_countListed {k : String} : k ∈ (objects.foldl countListed acc).1 ↔
      k ∈ acc.1 ∨ ∃ obj ∈ objects, obj.resourceVersion ≠ none ∧ obj.key = k := by
  induction objects generalizing acc with
  | nil => simp
  | cons obj rest ih =>
    rw [List.foldl_cons, ih]
    cases hv : obj.resourceVersion with
    | none => simp [countListed, hv]
    | some version =>
      simp only [countListed, hv, Finset.mem_insert, List.exists_mem_cons_iff]
      tauto

theorem foldl_countListed_le {bound : Nat} : (objects.foldl countListed acc).2 ≤ bound ↔
      acc.2 ≤ bound ∧ ∀ obj ∈ objects, shownVersion (some obj) ≤ bound := by
  induction objects generalizing acc with
  | nil => simp
  | cons obj rest ih =>
    rw [List.foldl_cons, ih, List.forall_mem_cons, ← and_assoc]
    refine and_congr_left fun _ => ?_
    cases hv : obj.resourceVersion with
    | none => simp [countListed, shownVersion, hv]
    | some version =>
      have hshown : shownVersion (some obj) = version := by simp [shownVersion, hv]
      simp only [countListed, hv]
      split <;> omega

theorem mem_listedKeys {k : String} : k ∈ (getObjectKeysAndMaxVersion objects).1 ↔
      ∃ obj ∈ objects, obj.resourceVersion ≠ none ∧ obj.key = k := by
  simp [getObjectKeysAndMaxVersion, mem_foldl_countListed]

theorem maxListedVersion_le {bound : Nat} : (getObjectKeysAndMaxVersion objects).2 ≤ bound ↔
      ∀ obj ∈ objects, shownVersion (some obj) ≤ bound := by
  simp [getObjectKeysAndMaxVersion, foldl_countListed_le]

end Listing

variable {w : Measurement Spec}

section Keys

def notifiedKey : Notification (Object Spec) → String
  | .add obj => obj.key
  | .update oldObj _ => oldObj.key
  | .delete obj => obj.last.key

/-- What the informer may deliver when `latest` are the versions delivered so
far. A deleted object may have changed since it was last seen. -/
def Possible (latest : Content Spec) : Notification (Object Spec) → Prop
  | .delete obj => latest.lookup obj.last.key ≠ none
  | n => n.Deliverable latest

/-- The key set is that of the objects in `latest`. -/
def KeysOf (objectKeys : Finset String) (latest : Content Spec) : Prop :=
  ∀ k, k ∈ objectKeys ↔ ∃ obj ∈ latest, obj.key = k

theorem keysOf_started (kind : String) :
    KeysOf (Measurement.started kind : Measurement Spec).objectKeys (.empty : Content Spec) := by
  intro k
  simp [Measurement.started, Measurement.start, createWaitForControlledPodsRunningMeasurement]

theorem objectKeys_follow [DecidableEq Spec] {latest : Content Spec}
    (h : KeysOf w.objectKeys latest) {creation : Except String Unit}
    (possible : Possible latest n) :
    KeysOf (w.handleNotification n creation).objectKeys (n.applyTo latest) := by
  intro k
  rw [handleNotification_objectKeys]
  cases n with
  | add obj =>
    simp only [Finset.mem_insert, Notification.applyTo, Store.mem_insert, h k]
    constructor
    · rintro (rfl | ⟨o, ho, rfl⟩)
      · exact ⟨obj, .inl rfl, rfl⟩
      · by_cases hk : o.key = obj.key
        · exact ⟨obj, .inl rfl, hk.symm⟩
        · exact ⟨o, .inr ⟨ho, hk⟩, rfl⟩
    · rintro ⟨o, rfl | ⟨ho, _⟩, rfl⟩
      · exact .inl rfl
      · exact .inr ⟨o, ho, rfl⟩
  | update oldObj newObj =>
    have hkey := possible.2
    simp only [Finset.mem_insert, Finset.mem_erase, Notification.applyTo, Store.mem_insert, h k]
    constructor
    · rintro (rfl | ⟨hk, o, ho, rfl⟩)
      · exact ⟨newObj, .inl rfl, rfl⟩
      · exact ⟨o, .inr ⟨ho, fun e => hk (e.trans hkey)⟩, rfl⟩
    · rintro ⟨o, rfl | ⟨ho, hk⟩, rfl⟩
      · exact .inl rfl
      · exact .inr ⟨fun e => hk (e.trans hkey.symm), o, ho, rfl⟩
  | delete obj =>
    simp only [Finset.mem_erase, Notification.applyTo, Store.mem_erase, h k]
    constructor
    · rintro ⟨hk, o, ho, rfl⟩
      exact ⟨o, ⟨ho, hk⟩, rfl⟩
    · rintro ⟨o, ⟨ho, hk⟩, rfl⟩
      exact ⟨hk, o, ho, rfl⟩

end Keys

section Counting

theorem countChecker_ok {t t' : Tally} {o : ObjectChecker Spec} (h : countChecker t o = .ok t') :
    o.status ≠ .unknown ∧
      t'.numberRunning = t.numberRunning + (if o.status = .running then 1 else 0) ∧
      t'.numberTimeout = t.numberTimeout +
        (if o.status = .timeout ∨ o.status = .deleteTimeout then 1 else 0) ∧
      t'.numberFailed = t.numberFailed + (if o.status = .failed then 1 else 0) := by
  unfold countChecker at h
  cases hs : o.status <;> simp only [hs] at h
  case unknown => cases h
  case running => cases h; simp
  case deleted => cases h; simp
  all_goals
    cases hp : toFailedPods o.failedPods o.key with
    | error e => rw [hp] at h; cases h
    | ok pods => rw [hp] at h; cases h; simp

variable {checkers : List (ObjectChecker Spec)}

theorem tally_ok {t t' : Tally} (h : checkers.foldlM countChecker t = .ok t') :
    (∀ o ∈ checkers, o.status ≠ .unknown) ∧
      t'.numberRunning = t.numberRunning + checkers.countP (·.status = .running) ∧
      t'.numberTimeout = t.numberTimeout +
        checkers.countP (fun o => o.status = .timeout ∨ o.status = .deleteTimeout) ∧
      t'.numberFailed = t.numberFailed + checkers.countP (·.status = .failed) := by
  induction checkers generalizing t with
  | nil =>
    cases h
    simp
  | cons o rest ih =>
    obtain ⟨t₁, hc, hrest⟩ := foldlM_cons_ok.mp h
    obtain ⟨hknown, hrun, htime, hfail⟩ := countChecker_ok hc
    obtain ⟨hknown', hrun', htime', hfail'⟩ := ih hrest
    refine ⟨List.forall_mem_cons.mpr ⟨hknown, hknown'⟩, ?_⟩
    simp only [List.countP_cons, decide_eq_true_eq]
    omega

/-- The status of an object that is not in the way of success. -/
def Settled (o : ObjectChecker Spec) : Prop :=
  o.status = .running ∨ o.status = .deleted

theorem tally_settled (h : ∀ o ∈ checkers, Settled o) (t : Tally) :
    ∃ t', checkers.foldlM countChecker t = .ok t' := by
  refine exists_foldlM_ok (fun o ho t => ?_) t
  rcases h o ho with hs | hs
  · exact ⟨{ t with numberRunning := t.numberRunning + 1 }, by simp only [countChecker, hs]⟩
  · exact ⟨{ t with numberDeleted := t.numberDeleted + 1 }, by simp only [countChecker, hs]⟩

variable {objectKeys : Finset String}

theorem gatherResult_of_ok (h : (w.gatherResult objectKeys).2 = .ok ()) :
    w.gatherResult objectKeys = ([], .ok ()) := by
  unfold Measurement.gatherResult at h ⊢
  split at h
  · cases h
  · split at h
    · cases h
    · split at h
      · cases h
      · split at h
        · cases h
        case isFalse notime hcard nofail => simp [notime, hcard, nofail]

/-- `gather` succeeds when as many checkers run as objects are listed, and all
others are done with a deletion. -/
theorem gatherResult_success_iff :
    w.gatherResult objectKeys = ([], .ok ()) ↔
      w.checkerMap.entries.countP (·.status = .running) = objectKeys.card ∧
        ∀ o ∈ w.checkerMap, Settled o := by
  constructor
  · intro h
    unfold Measurement.gatherResult at h
    cases ht : w.checkerMap.entries.foldlM countChecker {} with
    | error e =>
      rw [ht] at h
      cases (Prod.mk.inj h).2
    | ok t =>
      obtain ⟨hknown, hrun, htime, hfail⟩ := tally_ok ht
      rw [ht] at h
      dsimp only at h
      split at h
      · cases (Prod.mk.inj h).2
      case isFalse notime =>
      split at h
      · cases (Prod.mk.inj h).2
      case isFalse hcard =>
      split at h
      · cases (Prod.mk.inj h).2
      case isFalse nofail =>
      have htime0 : w.checkerMap.entries.countP
          (fun o => o.status = .timeout ∨ o.status = .deleteTimeout) = 0 := by
        omega
      have hfail0 : w.checkerMap.entries.countP (·.status = .failed) = 0 := by
        omega
      have hcount := hrun.trans (Nat.zero_add _)
      refine ⟨hcount.symm.trans (not_not.mp hcard).symm, fun o ho => ?_⟩
      have hk' := hknown o ho
      have ht' := List.countP_eq_zero.mp htime0 o ho
      have hf' := List.countP_eq_zero.mp hfail0 o ho
      unfold Settled
      cases hs : o.status <;> simp [hs] at hk' ht' hf' ⊢
  · rintro ⟨hcard, hsettled⟩
    obtain ⟨t, ht⟩ := tally_settled hsettled {}
    obtain ⟨_, hrun, htime, hfail⟩ := tally_ok ht
    have htime0 : w.checkerMap.entries.countP
        (fun o => o.status = .timeout ∨ o.status = .deleteTimeout) = 0 := by
      refine List.countP_eq_zero.mpr fun o ho => ?_
      rcases hsettled o ho with hs | hs <;> simp [hs]
    have hfail0 : w.checkerMap.entries.countP (·.status = .failed) = 0 := by
      refine List.countP_eq_zero.mpr fun o ho => ?_
      rcases hsettled o ho with hs | hs <;> simp [hs]
    have notime : t.numberTimeout = 0 := htime.trans (by rw [htime0])
    have nofail : t.numberFailed = 0 := hfail.trans (by rw [hfail0])
    have hcount := hrun.trans ((Nat.zero_add _).trans hcard)
    simp [Measurement.gatherResult, ht, notime, nofail, hcount]

end Counting

end ControlledPodsWait
