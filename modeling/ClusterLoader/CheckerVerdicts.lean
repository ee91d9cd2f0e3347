import ClusterLoader.ControlledPodsWait
import ClusterLoader.ExpectedReplicas

/-!
# The goroutine of an object checker

`waitForRuntimeObject` starts a goroutine that starts the watcher of the replicas,
waits for the pods and records how that went. Its context may be cancelled by Stop
or pass its deadline at any time; which of the two came first is what the context
tells. What WaitForPods returns is given with the step.
-/

namespace CheckerVerdicts

open EnabledRuns NodeCounter ControlledPodsWait ExpectedReplicas

inductive Context where
  | pending
  | canceled
  | deadlineExceeded
  deriving DecidableEq

/-- A context that is done stays as it is. -/
def Context.doneBy (err : Context) : Context → Context
  | .pending => err
  | done => done

/-- Nothing, or an error with the pods that are not ready. -/
abbrev WaitResult := Except (String × Option (List PodInfo)) Unit

inductive Phase where
  | starting
  | waiting
  | waited (result : WaitResult)
  /-- With the result of WaitForPods, if it was called. -/
  | returned (result : Option WaitResult)

structure Goroutine (Spec Terms Selector : Type) where
  o : ObjectChecker Spec
  runtimeObjectReplicas : ReplicasWatcher Terms Selector
  operationTimeout : Int
  ctx : Context
  phase : Phase

variable {Spec Terms Selector Content Item : Type}

/-- `prepared` is what becomes of the predicate for pods, the key and the pod store. -/
def waitForRuntimeObject (c : Accessors Terms Content Item) (m : Matching Terms Selector)
    (object : RuntimeObject Terms Content) (obj : Object Spec) (prepared : Except String Unit)
    (isDeleted : Bool) (operationTimeout : Int) :
    Except String (Goroutine Spec Terms Selector) := do
  let replicas ← getReplicasFromRuntimeObject c m object
  prepared
  return {
    o := newObjectChecker obj isDeleted
    runtimeObjectReplicas := if isDeleted then .constReplicas 0 else replicas
    operationTimeout := operationTimeout
    ctx := .pending
    phase := .starting }

def outcome (ctx : Context) : WaitResult → Outcome
  | .ok () => .done
  | .error (err, failedPods) => .interrupted err failedPods (ctx = .deadlineExceeded)

inductive Action where
  | stop
  | deadline
  | start
  | startFails
  | wait (result : WaitResult)
  | record

/-- Only the informer of a node counter can fail to start. -/
def step (g : Goroutine Spec Terms Selector) : Action → Option (Goroutine Spec Terms Selector)
  | .stop => some { g with o := g.o.stop, ctx := g.ctx.doneBy .canceled }
  | .deadline =>
    if g.operationTimeout = 0 then none
    else some { g with ctx := g.ctx.doneBy .deadlineExceeded }
  | .start =>
    match g.phase with
    | .starting => some { g with phase := .waiting }
    | _ => none
  | .startFails =>
    match g.phase, g.runtimeObjectReplicas with
    | .starting, .nodeCounter _ =>
      some { g with
        o := g.o.finish (.notStarted "timed out waiting for caches to sync")
        phase := .returned none }
    | _, _ => none
  | .wait result =>
    match g.phase with
    | .waiting => some { g with phase := .waited result }
    | _ => none
  | .record =>
    match g.phase with
    | .waited result =>
      some { g with o := g.o.finish (outcome g.ctx result), phase := .returned (some result) }
    | _ => none

/-- What the checker says of a goroutine that has returned. -/
structure Verdict (o : ObjectChecker Spec) (result : Option WaitResult) : Prop where
  known : o.status ≠ .unknown
  failed : o.status = .failed → o.err ≠ none
  running : o.status = .running → result = some (.ok ()) ∧ o.isDeleted = false
  deleted : o.status = .deleted → result = some (.ok ()) ∧ o.isDeleted = true
  gathered : ∀ t, countChecker t o ≠ .error (.message (unknownStatus o))

def Decided (g : Goroutine Spec Terms Selector) : Prop :=
  ∀ result, g.phase = .returned result → Verdict g.o result

/-! ## The steps -/

variable {g g' : Goroutine Spec Terms Selector} {o : ObjectChecker Spec}

theorem countChecker_ne (known : o.status ≠ .unknown) (t : Tally) :
    countChecker t o ≠ .error (.message (unknownStatus o)) := by
  cases hs : o.status with
  | unknown => exact absurd hs known
  | running | deleted => simp [countChecker, hs]
  | failed | timeout | deleteTimeout =>
    cases hp : o.failedPods <;> simp [countChecker, hs, hp, toFailedPods, bind, Except.bind]

/-- Whatever WaitForPods has returned gives a verdict. -/
theorem verdict_finish (o : ObjectChecker Spec) (ctx : Context) (result : WaitResult) :
    Verdict (o.finish (outcome ctx result)) (some result) := by
  cases result with
  | ok _ =>
    cases h : o.isDeleted with
    | false => constructor <;> simp [outcome, ObjectChecker.finish, countChecker, h]
    | true => constructor <;> simp [outcome, ObjectChecker.finish, countChecker, h]
  | error e =>
    have known : (o.finish (outcome ctx (.error e))).status ≠ .unknown := by
      cases h : o.isDeleted <;> cases ctx <;> simp [outcome, ObjectChecker.finish, h]
    refine ⟨known, fun _ => ?_, ?_, ?_, countChecker_ne known⟩ <;>
      cases h : o.isDeleted <;> cases ctx <;> simp [outcome, ObjectChecker.finish, h]

/-- A checker has no status before its goroutine returns, and a verdict after. -/
structure Following (g : Goroutine Spec Terms Selector) : Prop where
  unset : (∀ result, g.phase ≠ .returned result) → g.o.status = .unknown
  decided : Decided g

theorem Following.next (following : Following g) {a : Action} (started : a ≠ .startFails)
    (h : step g a = some g') : Following g' := by
  cases a with
  | stop =>
    cases h
    refine ⟨following.unset, fun result returned => ?_⟩
    obtain ⟨known, failed, running, deleted, gathered⟩ := following.decided result returned
    exact ⟨known, failed, running, deleted, gathered⟩
  | deadline =>
    simp only [step] at h
    split at h <;> cases h
    exact ⟨following.unset, following.decided⟩
  | start | wait result =>
    simp only [step] at h
    split at h <;> cases h
    rename_i phase
    exact ⟨fun _ => following.unset (by simp [phase]), nofun⟩
  | startFails => exact absurd rfl started
  | record =>
    simp only [step] at h
    split at h <;> cases h
    rename_i result phase
    refine ⟨fun none => absurd rfl (none _), fun r returned => ?_⟩
    cases returned
    exact verdict_finish g.o g.ctx result

/-- A goroutine whose watcher did not start returns without a status. -/
theorem Following.not_decided (following : Following g)
    (h : step g .startFails = some g') : ¬ Decided g' := by
  simp only [step] at h
  split at h <;> cases h
  rename_i phase _
  exact fun decided => (decided none rfl).known (following.unset (by simp [phase]))

/-- The checker has a verdict whenever its goroutine has returned, exactly if the
watcher of the replicas does not fail to start. -/
theorem verdict_iff (c : Accessors Terms Content Item) (m : Matching Terms Selector)
    (object : RuntimeObject Terms Content) (obj : Object Spec) (prepared : Except String Unit)
    (isDeleted : Bool) (operationTimeout : Int) (g : Goroutine Spec Terms Selector)
    (h : waitForRuntimeObject c m object obj prepared isDeleted operationTimeout = .ok g)
    (actions : List Action) :
    Throughout step Decided g actions ↔
      Along step (fun _ a => a ≠ .startFails) g actions := by
  obtain ⟨replicas, -, h⟩ := FallibleLoops.bind_eq_ok.mp h
  obtain ⟨_, -, h⟩ := FallibleLoops.bind_eq_ok.mp h
  cases h
  apply throughout_iff_along (q := Following)
  · exact fun _ following => following.decided
  · exact fun _ _ _ following started h => following.next started h
  · intro s a t following failing h
    obtain rfl := not_not.mp failing
    exact following.not_decided h
  · exact ⟨fun _ => rfl, nofun⟩

def agent : Object Nat := ⟨"kube-system/agent", "1", some 0, some 7⟩

/-- The goroutine for a DaemonSet, with a timeout of a minute. -/
def agentWait : Goroutine Nat String Unit where
  o := newObjectChecker agent false
  runtimeObjectReplicas := .nodeCounter (newNodeCounter () none [])
  operationTimeout := 60000000000
  ctx := .pending
  phase := .starting

theorem agentWait_started :
    waitForRuntimeObject accessors byName (.typed (.daemonSet ⟨[], none, [], false⟩)) agent
      (.ok ()) false 60000000000 = .ok agentWait := rfl

theorem verdict_iff_agentWait :
    Throughout step Decided agentWait [.start, .deadline, .wait (.error ("late", none)), .record] ↔
      Along step (fun _ a => a ≠ .startFails) agentWait
        [.start, .deadline, .wait (.error ("late", none)), .record] :=
  verdict_iff accessors byName (.typed (.daemonSet ⟨[], none, [], false⟩)) agent (.ok ()) false
    60000000000 agentWait agentWait_started _

/-- The informer of the nodes does not sync: the goroutine has returned with an
error, but the status is unknown, and `gather` gives up at it. -/
theorem checker_undecided :
    ∃ g, step agentWait .startFails = some g ∧ g.phase = .returned none ∧
      g.o.status = .unknown ∧ countChecker {} g.o = .error (.message (unknownStatus g.o)) ∧
      ¬ Throughout step Decided agentWait [.startFails] := by
  refine ⟨_, rfl, rfl, rfl, rfl, fun all => ?_⟩
  exact ((all.2 _ rfl) none rfl).known rfl

end CheckerVerdicts
