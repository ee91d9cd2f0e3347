import ClusterLoader.ControlledPodsWait
import ClusterLoader.GuardedRuns

/-!
# Stopping the measurement and starting it again

A stop shuts the work queue down for good: the queue is made by the
constructor, and a queue that is shutting down ignores what is added. The
checkers, the key set and the version reached also stay. A restarted
measurement therefore handles no notification at all, and its `gather` speaks
about what was left before the stop. The main theorem says when a restart is
nevertheless the same as a new measurement.
-/

namespace MeasurementRestart

open KeyedStore Informers GuardedRuns ControlledPodsWait

structure WorkerQueue (Task : Type) where
  tasks : List Task
  shuttingDown : Bool

def newWorkerQueue {Task : Type} : WorkerQueue Task where
  tasks := []
  shuttingDown := false

def WorkerQueue.add {Task : Type} (q : WorkerQueue Task) (task : Task) : WorkerQueue Task :=
  if q.shuttingDown then q else { q with tasks := q.tasks ++ [task] }

variable {Spec : Type}

/-- A measurement with its queue, and the notifications its worker has handled. -/
structure Instance (Spec : Type) where
  w : Measurement Spec
  queue : WorkerQueue (Notification (Object Spec))
  handled : List (Notification (Object Spec))

namespace Instance

def create (kind : String) : Instance Spec where
  w := createWaitForControlledPodsRunningMeasurement kind
  queue := newWorkerQueue
  handled := []

def start (i : Instance Spec) : Instance Spec :=
  { i with w := i.w.start }

/-- The informer's handler. -/
def deliver (i : Instance Spec) (n : Notification (Object Spec)) : Instance Spec :=
  { i with queue := i.queue.add n }

/-- The worker takes the next task. -/
def work [DecidableEq Spec] (i : Instance Spec) (creation : Except String Unit) : Instance Spec :=
  match i.queue.tasks with
  | [] => i
  | n :: rest =>
    { w := i.w.handleNotification n creation
      queue := { i.queue with tasks := rest }
      handled := i.handled ++ [n] }

/-- The worker takes all tasks that are waiting. -/
def drain [DecidableEq Spec] (creation : Notification (Object Spec) → Except String Unit)
    (i : Instance Spec) : Instance Spec :=
  i.queue.tasks.foldl (fun i n => i.work (creation n)) i

def dispose [DecidableEq Spec] (i : Instance Spec) : Instance Spec :=
  if i.w.isRunning then
    -- `queue.Stop` returns when the worker has taken the tasks left
    let i := drain (fun _ => .ok ())
      { i with
        w := { i.w with isRunning := false }
        queue := { i.queue with shuttingDown := true } }
    { i with w := { i.w with checkerMap := i.w.checkerMap.dispose } }
  else i

/-- The wait of a checker ends. -/
def finish (i : Instance Spec) (key : String) (outcome : Outcome) : Instance Spec :=
  { i with w := i.w.finishChecker key outcome }

end Instance

inductive Action (Spec : Type) where
  | deliver (n : Notification (Object Spec))
  | work (creation : Except String Unit)
  | finish (key : String) (outcome : Outcome)

variable [DecidableEq Spec]

def step (i : Instance Spec) : Action Spec → Instance Spec
  | .deliver n => i.deliver n
  | .work creation => i.work creation
  | .finish key outcome => i.finish key outcome

/-- The instance after a history and a stop, once the checkers that were
stopped have ended. -/
def stopped (kind : String) (history : List (Action Spec)) (ended : List (String × Outcome)) :
    Instance Spec :=
  ended.foldl (fun i e => i.finish e.1 e.2)
    (run step (Instance.create kind).start history).dispose

/-- The notifications `later` are delivered and the worker takes what waits. -/
def process (creation : Notification (Object Spec) → Except String Unit) (i : Instance Spec)
    (later : List (Notification (Object Spec))) : Instance Spec :=
  (later.foldl Instance.deliver i).drain creation

/-- `gather` when the cluster holds what `later` has shown. -/
def gather (i : Instance Spec) (later : List (Notification (Object Spec))) :
    List FailedPod × Except GatherError Unit :=
  let listed := getObjectKeysAndMaxVersion
    (later.foldl (fun content n => n.applyTo content) (.empty : Content Spec)).entries
  i.w.gather listed.1 listed.2

variable {i : Instance Spec}

section Queue

theorem work_queue (i : Instance Spec) (creation : Except String Unit) :
    (i.work creation).queue = { i.queue with tasks := i.queue.tasks.tail } := by
  obtain ⟨w, ⟨tasks, shuttingDown⟩, handled⟩ := i
  cases tasks with
  | nil | cons => rfl

theorem work_isRunning (i : Instance Spec) (creation : Except String Unit) :
    (i.work creation).w.isRunning = i.w.isRunning := by
  rw [Instance.work]
  cases i.queue.tasks with
  | nil => rfl
  | cons n rest => exact handleNotification_isRunning n

variable (creation : Notification (Object Spec) → Except String Unit)

theorem foldl_work_queue (tasks : List (Notification (Object Spec))) (i : Instance Spec) :
    (tasks.foldl (fun i n => i.work (creation n)) i).queue =
      { i.queue with tasks := i.queue.tasks.drop tasks.length } := by
  induction tasks generalizing i with
  | nil => rfl
  | cons n rest ih =>
    rw [List.foldl_cons, ih, work_queue]
    rw [← List.drop_one, List.drop_drop, Nat.add_comm, List.length_cons]

theorem drain_queue (i : Instance Spec) :
    (i.drain creation).queue = { i.queue with tasks := [] } := by
  rw [Instance.drain, foldl_work_queue, List.drop_length]

omit [DecidableEq Spec] in
/-- A queue that is shutting down takes nothing in. -/
theorem deliver_shut_down (h : i.queue.shuttingDown = true)
    (later : List (Notification (Object Spec))) : later.foldl Instance.deliver i = i := by
  induction later with
  | nil => rfl
  | cons n rest ih =>
    have hsame : i.deliver n = i := by simp [Instance.deliver, WorkerQueue.add, h]
    rw [List.foldl_cons, hsame, ih]

theorem process_shut_down (h : i.queue = { tasks := [], shuttingDown := true })
    (later : List (Notification (Object Spec))) : process creation i later = i := by
  rw [process, deliver_shut_down (by rw [h])]
  simp [Instance.drain, h]

end Queue

section Stop

/-- Until the stop the measurement is running. -/
theorem running_history (i : Instance Spec) (history : List (Action Spec)) :
    (run step i history).w.isRunning = i.w.isRunning := by
  induction history generalizing i with
  | nil => rfl
  | cons a rest ih =>
    change (run step (step i a) rest).w.isRunning = _
    rw [ih]
    cases a with
    | deliver n => rfl
    | work creation => exact work_isRunning i creation
    | finish key outcome => exact (finishChecker_cache i.w key outcome).2

theorem dispose_queue (h : i.w.isRunning = true) :
    i.dispose.queue = { tasks := [], shuttingDown := true } := by
  simp only [Instance.dispose, h]
  exact drain_queue _ _

theorem stopped_queue (kind : String) (history : List (Action Spec))
    (ended : List (String × Outcome)) :
    (stopped kind history ended).queue = { tasks := [], shuttingDown := true } := by
  have hfinish : ∀ (ended : List (String × Outcome)) (i : Instance Spec),
      (ended.foldl (fun i e => i.finish e.1 e.2) i).queue = i.queue := by
    intro ended
    induction ended with
    | nil => exact fun i => rfl
    | cons e rest ih => exact fun i => ih (i.finish e.1 e.2)
  rw [stopped, hfinish]
  exact dispose_queue (running_history _ history)

/-- Whatever is delivered, the restarted instance stays as the stop has left it. -/
theorem process_restarted (creation : Notification (Object Spec) → Except String Unit)
    (kind : String) (history : List (Action Spec)) (ended : List (String × Outcome))
    (later : List (Notification (Object Spec))) :
    process creation (stopped kind history ended).start later =
      (stopped kind history ended).start := by
  have hqueue : (stopped kind history ended).start.queue = { tasks := [], shuttingDown := true } :=
    stopped_queue kind history ended
  exact process_shut_down creation hqueue later

end Stop

section Gather

omit [DecidableEq Spec] in
/-- A running instance that is shown nothing more succeeds when no key and no
unfinished deletion is left over. -/
theorem gather_nothing_iff (h : i.w.isRunning = true) :
    gather i [] = ([], .ok ()) ↔
      i.w.objectKeys = ∅ ∧ ∀ o ∈ i.w.checkerMap, o.status = .deleted := by
  have hgather : gather i [] = i.w.gather ∅ 0 := rfl
  rw [hgather, Measurement.gather, h]
  by_cases hkeys : i.w.objectKeys = ∅
  · have hsynced : i.w.Synced ∅ 0 := ⟨Nat.zero_le _, hkeys.symm⟩
    rw [if_neg (by simp), if_pos hsynced, gatherResult_success_iff, Finset.card_empty,
      List.countP_eq_zero]
    constructor
    · rintro ⟨hnone, hsettled⟩
      refine ⟨hkeys, fun o ho => (hsettled o ho).resolve_left fun hrun => ?_⟩
      exact hnone o ho (decide_eq_true hrun)
    · rintro ⟨_, hdeleted⟩
      refine ⟨fun o ho => ?_, fun o ho => .inr (hdeleted o ho)⟩
      simp [hdeleted o ho]
  · have hsynced : ¬ i.w.Synced ∅ 0 := fun hs => hkeys hs.2.symm
    rw [if_neg (by simp), if_neg hsynced]
    constructor
    · intro hfail
      cases (Prod.mk.inj hfail).2
    · rintro ⟨hempty, _⟩
      exact absurd hempty hkeys

end Gather

/-- Handling every later notification, and answering `gather` as a new
instance does. -/
def ActsAsNew (creation : Notification (Object Spec) → Except String Unit) (kind : String)
    (i : Instance Spec) (later : List (Notification (Object Spec))) : Prop :=
  (process creation i later).handled = i.handled ++ later ∧
    gather (process creation i later) later =
      gather (process creation (Instance.create kind).start later) later

theorem restart_acts_as_new_iff (creation : Notification (Object Spec) → Except String Unit)
    (kind : String) (history : List (Action Spec)) (ended : List (String × Outcome))
    (later : List (Notification (Object Spec))) :
    ActsAsNew creation kind (stopped kind history ended).start later ↔
      later = [] ∧ (stopped kind history ended).w.objectKeys = ∅ ∧
        ∀ o ∈ (stopped kind history ended).w.checkerMap, o.status = .deleted := by
  rw [ActsAsNew, process_restarted, List.self_eq_append_right]
  refine and_congr_right fun hlater => ?_
  subst hlater
  exact gather_nothing_iff rfl

section Samples

def web : Object Nat := ⟨"default/web", "web-uid", some 3, some 5⟩

/-- A Deployment is created, its pods run, and it is deleted again. -/
def cleanedUp : List (Action Nat) :=
  [.deliver (.add web), .work (.ok ()), .finish "default/web" .done,
    .deliver (.delete (.known web)), .work (.ok ()), .finish "default/web" .done]

end Samples

/-- Even after a history that leaves nothing over, a restarted instance does
not handle the Deployment that a new one handles. -/
theorem restarted_handles_nothing :
    (process (fun _ => .ok ()) (stopped "Deployment" cleanedUp []).start [.add web]).handled =
        (stopped "Deployment" cleanedUp []).handled ∧
      (process (fun _ => .ok ()) (Instance.create "Deployment").start [.add web]).handled =
        [.add web] ∧
      ¬ ActsAsNew (fun _ => .ok ()) "Deployment" (stopped "Deployment" cleanedUp []).start
        [.add web] := by
  refine ⟨by decide, by decide, ?_⟩
  rintro ⟨hhandled, _⟩
  revert hhandled
  decide

end MeasurementRestart
