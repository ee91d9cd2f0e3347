import ClusterLoader.EnabledRuns
import ClusterLoader.WatchedObjects
import Mathlib.Data.Finset.Sort
import Mathlib.Data.String.Basic

/-!
# Waiting for finished jobs

An informer puts every notification into a queue, from which a single worker
takes them in order. The worker keeps the keys of the jobs that have finished;
gather lists the jobs itself and waits until these are the finished ones, or for
a timeout, and then looks which of them have finished.

The store keeps the condition that a job has finished with. How many completed
and how many failed is only logged and is left out.
-/

namespace FinishedJobs

open EnabledRuns KeyedStore Informers
open WatchedObjects (metaNamespaceKey)

inductive JobConditionType where
  | jobComplete
  | jobFailed
  | other (name : String)
  deriving DecidableEq

inductive ConditionStatus where
  | conditionTrue
  | conditionFalse
  | conditionUnknown
  deriving DecidableEq

structure JobCondition where
  type : JobConditionType
  status : ConditionStatus
  deriving DecidableEq

structure Job where
  ns : String
  name : String
  conditions : List JobCondition
  deriving DecidableEq

def Job.key (j : Job) : String := metaNamespaceKey j.ns j.name

def firstFinished : List JobCondition → Option JobConditionType
  | [] => none
  | cond :: rest =>
    if cond.status ≠ .conditionTrue then firstFinished rest
    else if cond.type = .jobComplete ∨ cond.type = .jobFailed then some cond.type
    else firstFinished rest

/-- The condition with which the job has finished, if it has. -/
def finishedJobCondition : Option Job → Option JobConditionType
  | none => none
  | some j => firstFinished j.conditions

/-! ## Handling a notification -/

/-- What an event handler is given. -/
inductive Obj where
  | job (j : Job)
  | deletedFinalStateUnknown (obj : Option Job)
  | other

abbrev Finished := Map String JobConditionType

def record (finishedJobs : Finished) (key : String) (newJob : Option Job) : Finished :=
  match finishedJobCondition newJob with
  | some condition => finishedJobs.set key condition
  | none => finishedJobs.erase key

def castOld : Option Obj → Option Job
  | some (.job j) => some j
  | some (.deletedFinalStateUnknown obj) => obj
  | _ => none

/-- The key of a `nil` job is a nil dereference: `none`. -/
def handleObject (finishedJobs : Finished) (oldObj newObj : Option Obj) : Option Finished :=
  match newObj with
  | some (.job newJob) => some (record finishedJobs newJob.key (some newJob))
  | none => (castOld oldObj).map fun oldJob => record finishedJobs oldJob.key none
  | some _ => some finishedJobs

/-- The arguments that `addEventHandler` calls the handler with. -/
def handlerArgs : Notification Job → Option Obj × Option Obj
  | .add obj => (none, some (.job obj))
  | .update oldObj newObj => (some (.job oldObj), some (.job newObj))
  | .delete obj => (some (.job obj.last), none)

/-! ## Gathering -/

def jobKeys (objs : List Job) : Finset String := (objs.map Job.key).toFinset

def timedOut (keys : Finset String) (finishedJobs : Finished) : Finset String :=
  keys.filter fun key => finishedJobs.get key = none

/-- The error that gather returns at its end. -/
def report (keys : Finset String) (finishedJobs : Finished) : Option String :=
  let late := timedOut keys finishedJobs
  if late.card ≠ 0 then
    some (toString late.card ++ " Jobs timed out: " ++ ", ".intercalate (late.sort (· ≤ ·)))
  else none

inductive Gathering where
  | idle
  | polling (listed : List Job)
  /-- The poll has ended, with or without success. -/
  | polled (listed : List Job)

def Gathering.listed : Gathering → Option (List Job)
  | .idle => none
  | .polling listed | .polled listed => some listed

/-- A call of gather that has returned, the jobs that it listed, and what had been
handled by then. -/
structure Return where
  listed : List Job
  err : Option String
  handled : List (Notification Job)

structure System where
  isRunning : Bool
  /-- The informer's store. -/
  store : Store Job.key
  queue : List (Notification Job)
  finishedJobs : Finished
  handled : List (Notification Job)
  gathering : Gathering
  returned : Option Return

def initial : System where
  isRunning := false
  store := Store.empty
  queue := []
  finishedJobs := Store.empty
  handled := []
  gathering := .idle
  returned := none

inductive Act where
  | start
  /-- The informer tells of a change. -/
  | notify (n : Notification Job)
  | work
  | gather (list : Except String (List Job))
  | poll
  | timeout
  | report

def returns (s : System) (listed : List Job) (err : Option String) : System :=
  { s with gathering := .idle, returned := some ⟨listed, err, s.handled⟩ }

def gather (s : System) (list : Except String (List Job)) : System :=
  if s.isRunning = false then
    returns s [] (some "WaitForFinishedJobs: wait for finished jobs was not started")
  else
    match list with
    | .error e => returns s [] (some ("listing jobs: " ++ e))
    | .ok objs => { s with gathering := .polling objs }

def step (s : System) : Act → Option System
  | .start => some { s with isRunning := true }
  | .notify n =>
    if s.isRunning = true ∧ n.Deliverable s.store then
      some { s with store := n.applyTo s.store, queue := s.queue ++ [n] }
    else none
  | .work =>
    match s.queue with
    | [] => none
    | n :: rest =>
      (handleObject s.finishedJobs (handlerArgs n).1 (handlerArgs n).2).map fun finishedJobs =>
        { s with queue := rest, finishedJobs, handled := s.handled ++ [n] }
  | .gather list =>
    match s.gathering with
    | .idle => some (gather s list)
    | _ => none
  | .poll =>
    match s.gathering with
    | .polling listed =>
      some { s with
        gathering := if jobKeys listed = s.finishedJobs.keys.toFinset then .polled listed
          else .polling listed }
    | _ => none
  | .timeout =>
    match s.gathering with
    | .polling listed => some { s with gathering := .polled listed }
    | _ => none
  | .report =>
    match s.gathering with
    | .polled listed => some (returns s listed (report (jobKeys listed) s.finishedJobs))
    | _ => none

/-! ## What the measurement should know -/

/-- The jobs that exist after the notifications, in their latest states. -/
def latest (handled : List (Notification Job)) : Store Job.key :=
  handled.foldl (fun store n => n.applyTo store) Store.empty

def Job.Finished (j : Job) : Prop :=
  ∃ cond ∈ j.conditions,
    cond.status = .conditionTrue ∧ (cond.type = .jobComplete ∨ cond.type = .jobFailed)

/-- The key is that of an existing job that has finished. -/
def FinishedAt (handled : List (Notification Job)) (key : String) : Prop :=
  ∃ j ∈ latest handled, j.key = key ∧ j.Finished

/-- A gather of these that has succeeded has found each job that the server listed for
it finished; a notification in the queue can be handled. -/
structure Exact (actions : List Act) (s : System) : Prop where
  finished : ∀ key, (s.finishedJobs.get key).isSome = true ↔ FinishedAt s.handled key
  gathered : ∀ r, s.returned = some r → r.err = none →
    .gather (.ok r.listed) ∈ actions ∧ ∀ j ∈ r.listed, FinishedAt r.handled j.key
  works : ∀ n rest, s.queue = n :: rest →
    ∃ t, step s .work = some t ∧ t.queue = rest ∧ t.handled = s.handled ++ [n]

theorem isSome_firstFinished (conditions : List JobCondition) :
    (firstFinished conditions).isSome = true ↔ ∃ cond ∈ conditions,
      cond.status = .conditionTrue ∧ (cond.type = .jobComplete ∨ cond.type = .jobFailed) := by
  induction conditions with
  | nil => simp [firstFinished]
  | cons cond rest ih =>
    simp only [firstFinished]
    by_cases status : cond.status = .conditionTrue
    · by_cases type : cond.type = .jobComplete ∨ cond.type = .jobFailed
      · simp [status, type]
      · simp [type, ih]
    · simp [status, ih]

theorem isSome_finishedJobCondition (j : Job) :
    (finishedJobCondition (some j)).isSome = true ↔ j.Finished :=
  isSome_firstFinished j.conditions

/-- The finished jobs are read off a store of all jobs. -/
def Reflects (finishedJobs : Finished) (store : Store Job.key) : Prop :=
  ∀ key, finishedJobs.get key = (store.lookup key).bind fun j => finishedJobCondition (some j)

variable {finishedJobs : Finished}

theorem Reflects.isSome_iff {store : Store Job.key}
    (h : Reflects finishedJobs store) (key : String) :
    (finishedJobs.get key).isSome = true ↔ ∃ j ∈ store, j.key = key ∧ j.Finished := by
  rw [h key]
  cases hl : store.lookup key with
  | none =>
    have absent := Store.lookup_eq_none.mp hl
    constructor
    · nofun
    · rintro ⟨j, hj, same, _⟩
      exact absurd same (absent j hj)
  | some j =>
    obtain ⟨hj, same⟩ := Store.lookup_eq_some.mp hl
    rw [Option.bind_some, isSome_finishedJobCondition]
    constructor
    · exact fun finished => ⟨j, hj, same, finished⟩
    · rintro ⟨j', hj', same', finished⟩
      rw [Store.eq_of_key hj hj' (same.trans same'.symm)]
      exact finished

theorem get_record (finishedJobs : Finished) (key : String) (newJob : Option Job) (key' : String) :
    (record finishedJobs key newJob).get key' =
      if key' = key then finishedJobCondition newJob else finishedJobs.get key' := by
  unfold record
  cases h : finishedJobCondition newJob with
  | some condition => exact Map.get_set finishedJobs key key' condition
  | none =>
    rw [Map.get, Store.lookup_erase]
    split <;> rfl

/-- The worker does with the finished jobs what the informer does with its store. -/
theorem Reflects.handle {store : Store Job.key}
    (h : Reflects finishedJobs store) (n : Notification Job) :
    ∃ finishedJobs', handleObject finishedJobs (handlerArgs n).1 (handlerArgs n).2 =
      some finishedJobs' ∧ Reflects finishedJobs' (n.applyTo store) := by
  cases n with
  | add | update =>
    refine ⟨_, rfl, fun key => ?_⟩
    rw [get_record, h key, Notification.applyTo, Store.lookup_insert]
    split <;> rfl
  | delete obj =>
    refine ⟨_, rfl, fun key => ?_⟩
    rw [get_record, h key, Notification.applyTo, Store.lookup_erase]
    split <;> rfl

theorem latest_concat (handled : List (Notification Job)) (n : Notification Job) :
    latest (handled ++ [n]) = n.applyTo (latest handled) := by
  rw [latest, List.foldl_append]
  rfl

theorem mem_of_report {keys : Finset String}
    (h : report keys finishedJobs = none) {key : String} (hkey : key ∈ keys) :
    (finishedJobs.get key).isSome = true := by
  unfold report at h
  dsimp only at h
  split at h
  · cases h
  · rename_i none
    rw [not_not, Finset.card_eq_zero] at none
    rw [Option.isSome_iff_ne_none]
    intro late
    have : key ∈ timedOut keys finishedJobs := Finset.mem_filter.mpr ⟨hkey, late⟩
    rw [none] at this
    exact absurd this (Finset.notMem_empty key)

structure Inv (actions : List Act) (s : System) : Prop where
  reflects : Reflects s.finishedJobs (latest s.handled)
  listed : ∀ listed, s.gathering.listed = some listed → .gather (.ok listed) ∈ actions
  gathered : ∀ r, s.returned = some r → r.err = none →
    .gather (.ok r.listed) ∈ actions ∧ ∀ j ∈ r.listed, FinishedAt r.handled j.key

variable {actions : List Act} {s : System}

theorem inv_initial : Inv actions initial where
  reflects := fun _ => rfl
  listed := nofun
  gathered := nofun

theorem Inv.returns (inv : Inv actions s) {listed : List Job} {err : Option String}
    (sound : err = none →
      .gather (.ok listed) ∈ actions ∧ ∀ j ∈ listed, FinishedAt s.handled j.key) :
    Inv actions (returns s listed err) := by
  refine ⟨inv.reflects, nofun, ?_⟩
  rintro r ⟨⟩ none
  exact sound none

theorem Inv.gather (inv : Inv actions s) {list : Except String (List Job)}
    (mem : .gather list ∈ actions) : Inv actions (gather s list) := by
  unfold FinishedJobs.gather
  split
  · exact inv.returns nofun
  · cases list with
    | error e => exact inv.returns nofun
    | ok objs =>
      refine ⟨inv.reflects, ?_, inv.gathered⟩
      rintro _ ⟨⟩
      exact mem

theorem Inv.step {t : System} {a : Act} (inv : Inv actions s) (mem : a ∈ actions)
    (h : step s a = some t) : Inv actions t := by
  cases a with
  | start =>
    cases h
    exact ⟨inv.reflects, inv.listed, inv.gathered⟩
  | notify n =>
    obtain ⟨_, ⟨⟩⟩ := Option.ite_none_right_eq_some.mp h
    exact ⟨inv.reflects, inv.listed, inv.gathered⟩
  | work =>
    simp only [FinishedJobs.step] at h
    split at h
    · cases h
    · rename_i n rest queue
      obtain ⟨finishedJobs, handles, reflects⟩ := inv.reflects.handle n
      rw [handles] at h
      cases h
      refine ⟨?_, inv.listed, inv.gathered⟩
      rw [latest_concat]
      exact reflects
  | gather list =>
    simp only [FinishedJobs.step] at h
    split at h <;> cases h
    exact inv.gather mem
  | poll | timeout =>
    simp only [FinishedJobs.step] at h
    split at h <;> cases h
    rename_i polls
    refine ⟨inv.reflects, fun listed hlisted => inv.listed listed ?_, inv.gathered⟩
    rw [polls, ← hlisted]
    first | rfl | (dsimp only; split <;> rfl)
  | report =>
    simp only [FinishedJobs.step] at h
    split at h <;> cases h
    rename_i listed polled
    refine inv.returns fun none => ⟨inv.listed listed (by rw [polled]; rfl), fun j hj => ?_⟩
    have hkey : j.key ∈ jobKeys listed := List.mem_toFinset.mpr (List.mem_map_of_mem hj)
    exact (inv.reflects.isSome_iff j.key).mp (mem_of_report none hkey)

theorem Inv.exact (inv : Inv actions s) : Exact actions s where
  finished := inv.reflects.isSome_iff
  gathered := inv.gathered
  works := by
    intro n rest queue
    obtain ⟨finishedJobs, handles, _⟩ := inv.reflects.handle n
    refine ⟨{ s with queue := rest, finishedJobs, handled := s.handled ++ [n] }, ?_, rfl, rfl⟩
    simp only [FinishedJobs.step, queue, handles, Option.map_some]

/-- After each notification that is handled, the keys kept are those of the
existing jobs that have finished, and a gather that succeeds has found every job
that it listed among them. -/
theorem waitForFinishedJobs_exact (actions : List Act) :
    Throughout step (Exact actions) initial actions :=
  throughout_of_keeps (fun _ inv => inv.exact) (fun _ _ _ mem inv h => inv.step mem h) inv_initial

private def failedJob : Job := ⟨"batch", "import", [⟨.jobFailed, .conditionTrue⟩]⟩

/-- A failed job counts as finished until it is deleted. -/
example : (exec step initial [.start, .notify (.add failedJob), .work, .gather (.ok [failedJob]),
      .poll, .notify (.delete (.known failedJob)), .report, .work]).any (fun t =>
    t.returned.any (·.err.isNone) && t.finishedJobs.keys.isEmpty) = true := by
  decide +kernel

end FinishedJobs
