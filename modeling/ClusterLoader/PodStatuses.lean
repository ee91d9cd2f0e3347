import Mathlib.Data.List.Basic

/-!
# Two classifications of pods

A pod is classified by `podStatus`, for the lists of pods that are reported, and once
more while `ComputePodsStartupStatus` counts, for the counters that are waited on.
Both follow the same tree of cases but for its last branch: `podStatus` calls every
remaining phase unknown, the counter only the phase of that name. The phase is a
string, and other strings than the five phases do occur in it.
-/

namespace PodStatuses

inductive Status where
  | unknown
  | terminating
  | runningAndReady
  | runningButNotReady
  | pendingScheduled
  | pendingNotScheduled
  | inactive
  deriving DecidableEq

structure PodCondition where
  type : String
  status : String

structure Pod where
  name : String
  ns : String
  nodeName : String
  phase : String
  deletionTimestamp : Option Int
  conditions : List PodCondition

def ready (p : Pod) : Bool :=
  p.conditions.any fun c => c.type = "Ready" && c.status = "True"

def podStatus (p : Pod) : Status :=
  if p.deletionTimestamp.isSome then .terminating
  else if p.phase = "Running" then
    if ready p then .runningAndReady else .runningButNotReady
  else if p.phase = "Pending" then
    if p.nodeName = "" then .pendingNotScheduled else .pendingScheduled
  else if p.phase = "Succeeded" ∨ p.phase = "Failed" then .inactive
  else .unknown

structure PodInfo where
  name : String
  hostname : String
  phase : String
  status : Status
  ns : String

def computePodsStatus (pods : List Pod) : List PodInfo :=
  pods.map fun p => ⟨p.name, p.nodeName, p.phase, podStatus p, p.ns⟩

def notRunningAndReady (info : List PodInfo) : List PodInfo :=
  info.filter fun i => i.status ≠ .runningAndReady

structure PodsStartupStatus where
  expected : Int
  terminating : Nat
  running : Nat
  scheduled : Nat
  runningButNotReady : Nat
  waiting : Nat
  pending : Nat
  unknown : Nat
  inactive : Nat
  created : Nat
  runningUpdated : Nat
  lastIsPodUpdatedError : Option String

def PodsStartupStatus.initial (expected : Int) : PodsStartupStatus :=
  ⟨expected, 0, 0, 0, 0, 0, 0, 0, 0, 0, 0, none⟩

def PodsStartupStatus.text (s : PodsStartupStatus) : String :=
  "Pods: " ++ toString s.created ++ " out of " ++ toString s.expected ++ " created, " ++
    toString s.running ++ " running (" ++ toString s.runningUpdated ++ " updated), " ++
    toString s.pending ++ " pending scheduled, " ++ toString s.waiting ++ " not scheduled, " ++
    toString s.inactive ++ " inactive, " ++ toString s.terminating ++ " terminating, " ++
    toString s.unknown ++ " unknown, " ++ toString s.runningButNotReady ++
    " runningButNotReady "

/-- The error of the update check of a pod; a missing check finds every pod updated. -/
def updateError (isPodUpdated : Option (Pod → Option String)) (p : Pod) : Option String :=
  isPodUpdated.bind fun check => check p

section Counting

variable (isPodUpdated : Option (Pod → Option String))

def countUpdated (s : PodsStartupStatus) (p : Pod) : PodsStartupStatus :=
  match updateError isPodUpdated p with
  | some err => { s with lastIsPodUpdatedError := some err }
  | none => { s with runningUpdated := s.runningUpdated + 1 }

def countPhase (s : PodsStartupStatus) (p : Pod) : PodsStartupStatus :=
  if p.phase = "Running" then
    if ready p then countUpdated isPodUpdated { s with running := s.running + 1 } p
    else { s with runningButNotReady := s.runningButNotReady + 1 }
  else if p.phase = "Pending" then
    if p.nodeName = "" then { s with waiting := s.waiting + 1 }
    else { s with pending := s.pending + 1 }
  else if p.phase = "Succeeded" ∨ p.phase = "Failed" then { s with inactive := s.inactive + 1 }
  else if p.phase = "Unknown" then { s with unknown := s.unknown + 1 }
  else s

def countScheduled (s : PodsStartupStatus) (p : Pod) : PodsStartupStatus :=
  if p.nodeName ≠ "" then { s with scheduled := s.scheduled + 1 } else s

def countPod (s : PodsStartupStatus) (p : Pod) : PodsStartupStatus :=
  if p.deletionTimestamp.isSome then { s with terminating := s.terminating + 1 }
  else countScheduled (countPhase isPodUpdated { s with created := s.created + 1 } p) p

def computePodsStartupStatus (pods : List Pod) (expected : Int) : PodsStartupStatus :=
  pods.foldl (countPod isPodUpdated) (.initial expected)

/-! ## What is counted -/

def Updated (p : Pod) : Prop := updateError isPodUpdated p = none

instance (p : Pod) : Decidable (Updated isPodUpdated p) :=
  inferInstanceAs (Decidable (_ = none))

/-- Ready and up to date. -/
def readyUpdated (p : Pod) : Bool := podStatus p = .runningAndReady ∧ Updated isPodUpdated p

def called (status : Status) (p : Pod) : Bool := podStatus p = status

/-- Those that the counter calls unknown. -/
def namedUnknown (p : Pod) : Bool := podStatus p = .unknown ∧ p.phase = "Unknown"

omit isPodUpdated in
theorem countScheduled_eq (s : PodsStartupStatus) (p : Pod) :
    countScheduled s p =
      { s with scheduled := s.scheduled + if p.nodeName ≠ "" then 1 else 0 } := by
  unfold countScheduled
  split
  · rfl
  · rfl

/-- What the counters tell of one pod more. -/
structure Counted (s t : PodsStartupStatus) (p : Pod) : Prop where
  terminating : t.terminating = s.terminating + (called .terminating p).toNat
  running : t.running = s.running + (called .runningAndReady p).toNat
  runningButNotReady :
    t.runningButNotReady = s.runningButNotReady + (called .runningButNotReady p).toNat
  pending : t.pending = s.pending + (called .pendingScheduled p).toNat
  waiting : t.waiting = s.waiting + (called .pendingNotScheduled p).toNat
  inactive : t.inactive = s.inactive + (called .inactive p).toNat
  unknown : t.unknown = s.unknown + (namedUnknown p).toNat
  runningUpdated :
    t.runningUpdated = s.runningUpdated + (readyUpdated isPodUpdated p).toNat

theorem counted_countPhase {s : PodsStartupStatus} {p : Pod}
    (alive : p.deletionTimestamp.isSome = false) :
    Counted isPodUpdated s (countPhase isPodUpdated s p) p := by
  by_cases running : p.phase = "Running"
  · by_cases isReady : ready p = true
    · have hstatus : podStatus p = .runningAndReady := by simp [podStatus, alive, running, isReady]
      rw [countPhase, if_pos running, if_pos isReady, countUpdated]
      cases hupdated : updateError isPodUpdated p with
      | some | none =>
        constructor <;> simp [called, namedUnknown, readyUpdated, Updated, hstatus, hupdated]
    · have hstatus : podStatus p = .runningButNotReady := by
        simp [podStatus, alive, running, isReady]
      rw [countPhase, if_pos running, if_neg isReady]
      constructor <;> simp [called, namedUnknown, readyUpdated, hstatus]
  by_cases pending : p.phase = "Pending"
  · rw [countPhase, if_neg running, if_pos pending]
    by_cases unscheduled : p.nodeName = ""
    · have hstatus : podStatus p = .pendingNotScheduled := by
        simp [podStatus, alive, pending, unscheduled]
      rw [if_pos unscheduled]
      constructor <;> simp [called, namedUnknown, readyUpdated, hstatus]
    · have hstatus : podStatus p = .pendingScheduled := by
        simp [podStatus, alive, pending, unscheduled]
      rw [if_neg unscheduled]
      constructor <;> simp [called, namedUnknown, readyUpdated, hstatus]
  by_cases inactive : p.phase = "Succeeded" ∨ p.phase = "Failed"
  · have hstatus : podStatus p = .inactive := by
      simp [podStatus, alive, running, pending, inactive]
    rw [countPhase, if_neg running, if_neg pending, if_pos inactive]
    constructor <;> simp [called, namedUnknown, readyUpdated, hstatus]
  · have hstatus : podStatus p = .unknown := by
      simp [podStatus, alive, running, pending, inactive]
    rw [countPhase, if_neg running, if_neg pending, if_neg inactive]
    -- the one branch in which the two classifications part
    split
    case isTrue unknown =>
      constructor <;> simp [called, namedUnknown, readyUpdated, hstatus, unknown]
    case isFalse unknown =>
      constructor <;> simp [called, namedUnknown, readyUpdated, hstatus, unknown]

theorem counted_countPod (s : PodsStartupStatus) (p : Pod) :
    Counted isPodUpdated s (countPod isPodUpdated s p) p := by
  rw [countPod]
  split
  case isTrue deleted =>
    have hstatus : podStatus p = .terminating := by simp [podStatus, deleted]
    constructor <;> simp [called, namedUnknown, readyUpdated, hstatus]
  case isFalse alive =>
    rw [countScheduled_eq]
    obtain ⟨h1, h2, h3, h4, h5, h6, h7, h8⟩ := counted_countPhase isPodUpdated
      (s := { s with created := s.created + 1 }) (Bool.eq_false_iff.mpr alive)
    exact ⟨h1, h2, h3, h4, h5, h6, h7, h8⟩

theorem foldl_countPod {counter : PodsStartupStatus → Nat} {q : Pod → Bool}
    (h : ∀ s p, counter (countPod isPodUpdated s p) = counter s + (q p).toNat)
    (s : PodsStartupStatus) (pods : List Pod) :
    counter (pods.foldl (countPod isPodUpdated) s) = counter s + pods.countP q := by
  induction pods generalizing s with
  | nil => rfl
  | cons p rest ih =>
    rw [List.foldl_cons, ih, h, List.countP_cons]
    cases q p with
    | false => rfl
    | true =>
      simp only [Bool.toNat_true, if_true]
      omega

/-- The counters of a list of pods. -/
structure Totals (t : PodsStartupStatus) (pods : List Pod) : Prop where
  terminating : t.terminating = pods.countP (called .terminating)
  running : t.running = pods.countP (called .runningAndReady)
  runningButNotReady : t.runningButNotReady = pods.countP (called .runningButNotReady)
  pending : t.pending = pods.countP (called .pendingScheduled)
  waiting : t.waiting = pods.countP (called .pendingNotScheduled)
  inactive : t.inactive = pods.countP (called .inactive)
  unknown : t.unknown = pods.countP namedUnknown
  runningUpdated : t.runningUpdated = pods.countP (readyUpdated isPodUpdated)

theorem totals_computePodsStartupStatus (pods : List Pod) (expected : Int) :
    Totals isPodUpdated (computePodsStartupStatus isPodUpdated pods expected) pods := by
  have counted := counted_countPod isPodUpdated
  have total : ∀ {counter : PodsStartupStatus → Nat} {q : Pod → Bool},
      (∀ s p, counter (countPod isPodUpdated s p) = counter s + (q p).toNat) →
      counter (.initial expected) = 0 →
      counter (computePodsStartupStatus isPodUpdated pods expected) = pods.countP q := by
    intro counter q h hinitial
    rw [computePodsStartupStatus, foldl_countPod isPodUpdated h, hinitial, Nat.zero_add]
  exact ⟨total (fun s p => (counted s p).terminating) rfl,
    total (fun s p => (counted s p).running) rfl,
    total (fun s p => (counted s p).runningButNotReady) rfl,
    total (fun s p => (counted s p).pending) rfl,
    total (fun s p => (counted s p).waiting) rfl,
    total (fun s p => (counted s p).inactive) rfl,
    total (fun s p => (counted s p).unknown) rfl,
    total (fun s p => (counted s p).runningUpdated) rfl⟩

end Counting

/-! ## Where the two agree -/

/-- The counters are the numbers of pods with the statuses. -/
structure Agree (t : PodsStartupStatus) (info : List PodInfo) : Prop where
  terminating : t.terminating = (info.map PodInfo.status).count .terminating
  running : t.running = (info.map PodInfo.status).count .runningAndReady
  runningButNotReady :
    t.runningButNotReady = (info.map PodInfo.status).count .runningButNotReady
  pending : t.pending = (info.map PodInfo.status).count .pendingScheduled
  waiting : t.waiting = (info.map PodInfo.status).count .pendingNotScheduled
  inactive : t.inactive = (info.map PodInfo.status).count .inactive
  unknown : t.unknown = (info.map PodInfo.status).count .unknown

/-- The five phases of a pod. -/
def phases : List String := ["Running", "Pending", "Succeeded", "Failed", "Unknown"]

theorem count_computePodsStatus (pods : List Pod) (status : Status) :
    ((computePodsStatus pods).map PodInfo.status).count status = pods.countP (called status) := by
  rw [computePodsStatus, List.map_map, List.count, List.countP_map]
  refine List.countP_congr fun p _ => ?_
  simp [called]

theorem countP_eq_iff {α : Type*} {q q' : α → Bool} {l : List α}
    (h : ∀ x ∈ l, q x = true → q' x = true) :
    l.countP q = l.countP q' ↔ ∀ x ∈ l, q' x = true → q x = true := by
  have hfilter : l.countP q = (l.filter q').countP q := by
    rw [List.countP_filter]
    refine List.countP_congr fun x hx => ?_
    rw [Bool.and_eq_true]
    exact ⟨fun hq => ⟨hq, h x hx hq⟩, And.left⟩
  rw [hfilter, List.countP_eq_length_filter (p := q'), List.countP_eq_length]
  simp only [List.mem_filter, and_imp]

theorem podStatus_eq_unknown_iff (p : Pod) :
    podStatus p = .unknown ↔ p.deletionTimestamp = none ∧ p.phase ≠ "Running" ∧
      p.phase ≠ "Pending" ∧ p.phase ≠ "Succeeded" ∧ p.phase ≠ "Failed" := by
  constructor
  · intro h
    unfold podStatus at h
    split_ifs at h with deleted running isReady pending unscheduled inactive
    rw [not_or] at inactive
    exact ⟨by simpa using deleted, running, pending, inactive⟩
  · rintro ⟨alive, running, pending, succeeded, failed⟩
    simp [podStatus, alive, running, pending, succeeded, failed]

theorem podStatus_eq_runningAndReady_iff (p : Pod) :
    podStatus p = .runningAndReady ↔
      p.deletionTimestamp = none ∧ p.phase = "Running" ∧ ready p = true := by
  cases hdeleted : p.deletionTimestamp with
  | some _ => simp [podStatus, hdeleted]
  | none =>
    simp only [podStatus, hdeleted]
    split_ifs <;> simp_all

theorem podStatus_eq_inactive_iff (p : Pod) :
    podStatus p = .inactive ↔
      p.deletionTimestamp = none ∧ (p.phase = "Succeeded" ∨ p.phase = "Failed") := by
  cases hdeleted : p.deletionTimestamp with
  | some _ => simp [podStatus, hdeleted]
  | none =>
    simp only [podStatus, hdeleted]
    split_ifs <;> simp_all

/-- The last branch of the two classifications. -/
theorem namedUnknown_of_unknown_iff (p : Pod) :
    (called .unknown p = true → namedUnknown p = true) ↔
      (p.deletionTimestamp = none → p.phase ∈ phases) := by
  simp only [called, namedUnknown, decide_eq_true_eq, phases, List.mem_cons, List.not_mem_nil,
    or_false, podStatus_eq_unknown_iff]
  constructor
  · intro h alive
    by_contra other
    simp only [not_or] at other
    obtain ⟨running, pending, succeeded, failed, unknown⟩ := other
    exact unknown (h ⟨alive, running, pending, succeeded, failed⟩).2
  · rintro h ⟨alive, running, pending, succeeded, failed⟩
    refine ⟨⟨alive, running, pending, succeeded, failed⟩, ?_⟩
    simpa [running, pending, succeeded, failed] using h alive

theorem sum_countP_called (pods : List Pod) :
    pods.countP (called .terminating) + pods.countP (called .runningAndReady) +
      pods.countP (called .runningButNotReady) + pods.countP (called .pendingScheduled) +
      pods.countP (called .pendingNotScheduled) + pods.countP (called .inactive) +
      pods.countP (called .unknown) = pods.length := by
  induction pods with
  | nil => rfl
  | cons p rest ih =>
    obtain ⟨status, hstatus⟩ : ∃ status, podStatus p = status := ⟨_, rfl⟩
    have hcalled : ∀ other, called other p = decide (status = other) := fun other => by
      rw [called, hstatus]
    simp only [List.countP_cons, hcalled]
    cases status <;> simp <;> omega

/-- The two classifications agree, and the counters add up to the number of pods, if
and only if every pod that is not being deleted has one of the five phases. -/
theorem classifications_agree_iff (isPodUpdated : Option (Pod → Option String))
    (pods : List Pod) (expected : Int) :
    let t := computePodsStartupStatus isPodUpdated pods expected
    (Agree t (computePodsStatus pods) ∧
        t.terminating + t.running + t.runningButNotReady + t.pending + t.waiting + t.inactive +
          t.unknown = pods.length) ↔
      ∀ p ∈ pods, p.deletionTimestamp = none → p.phase ∈ phases := by
  intro t
  obtain ⟨h1, h2, h3, h4, h5, h6, h7, _⟩ :=
    totals_computePodsStartupStatus isPodUpdated pods expected
  have hcount := count_computePodsStatus pods
  have hnamed : t.unknown = pods.countP (called .unknown) ↔
      ∀ p ∈ pods, p.deletionTimestamp = none → p.phase ∈ phases := by
    rw [h7, countP_eq_iff (fun p _ hp => by simp_all [namedUnknown, called])]
    exact forall₂_congr fun p _ => namedUnknown_of_unknown_iff p
  rw [← hnamed]
  constructor
  · rintro ⟨agree, _⟩
    rw [agree.unknown, hcount]
  · intro hunknown
    refine ⟨⟨?_, ?_, ?_, ?_, ?_, ?_, ?_⟩, ?_⟩
    · rw [h1, hcount]
    · rw [h2, hcount]
    · rw [h3, hcount]
    · rw [h4, hcount]
    · rw [h5, hcount]
    · rw [h6, hcount]
    · rw [hunknown, hcount]
    · rw [h1, h2, h3, h4, h5, h6, hunknown, sum_countP_called]

/-- A pod whose phase is not set yet: it is called unknown, but not counted. -/
theorem unsetPhase_disagrees :
    podStatus ⟨"web-0", "default", "", "", none, []⟩ = .unknown ∧
      (computePodsStartupStatus none [⟨"web-0", "default", "", "", none, []⟩] 1).unknown = 0 := by
  decide

end PodStatuses
