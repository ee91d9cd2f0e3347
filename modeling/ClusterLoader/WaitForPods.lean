import ClusterLoader.PodStatuses

/-!
# Waiting for pods

`WaitForPods` lists the pods once, and then again at every tick until their counters
satisfy one of two conditions, until a listing fails, or until the context is done. The
desired number is asked for at every tick and may change. What is seen of the outside
is the sequence of events; where the context is done and a tick is due at once, the
order of the two is any.

What is written to the log is left out: the changes from one listing to the next, and
the last error of the update check.
-/

namespace WaitForPods

open PodStatuses

structure WaitForPodOptions where
  countErrorMargin : Int
  isPodUpdated : Option (Pod → Option String)

inductive ContextError where
  | deadlineExceeded
  | canceled

inductive Event where
  | done (err : ContextError) (desiredPodCount : Int)
  | poll (desiredPodCount : Int) (listing : Except String (List Pod))

inductive WaitError where
  | listing (cause : String)
  | deadline (desiredPodCount : Int) (summary : String)
  | canceled

/-- `lister` is what the lister of the pods calls itself. -/
def WaitError.text (lister : String) : WaitError → String
  | .listing cause => "failed to list pods: " ++ cause
  | .deadline desiredPodCount summary =>
    "got context deadline exceeded while waiting for " ++ toString desiredPodCount ++
      " pods to be running in " ++ lister ++ " - summary of pods : " ++ summary
  | .canceled => "context canceled"

inductive Outcome where
  | success
  | failure (pods : Option (List PodInfo)) (err : WaitError)

structure LoopState where
  oldPods : List Pod
  oldPodsStatus : PodsStartupStatus

section Loop

variable (options : WaitForPodOptions)

def succeeded (desiredPodCount : Int) (pods : List Pod) : Bool :=
  let podsStatus := computePodsStartupStatus options.isPodUpdated pods desiredPodCount
  (pods.length = podsStatus.running + podsStatus.inactive &&
    podsStatus.running = podsStatus.runningUpdated &&
    podsStatus.runningUpdated = desiredPodCount) ||
  (0 < options.countErrorMargin &&
    podsStatus.runningUpdated ≥ desiredPodCount - options.countErrorMargin &&
    (pods.length : Int) - podsStatus.inactive ≤ desiredPodCount &&
    podsStatus.inactive ≤ options.countErrorMargin)

def iterate (s : LoopState) : Event → Outcome ⊕ LoopState
  | .done .deadlineExceeded desiredPodCount =>
    .inl (.failure (some (notRunningAndReady (computePodsStatus s.oldPods)))
      (.deadline desiredPodCount s.oldPodsStatus.text))
  | .done .canceled _ =>
    .inl (.failure (some (notRunningAndReady (computePodsStatus s.oldPods))) .canceled)
  | .poll _ (.error cause) => .inl (.failure none (.listing cause))
  | .poll desiredPodCount (.ok pods) =>
    if succeeded options desiredPodCount pods then .inl .success
    else .inr ⟨pods, computePodsStartupStatus options.isPodUpdated pods desiredPodCount⟩

/-- The event at which the loop returns, and what it returns. -/
def waitLoop : LoopState → List Event → Option (Nat × Outcome)
  | _, [] => none
  | s, event :: rest =>
    match iterate options s event with
    | .inl outcome => some (0, outcome)
    | .inr s => (waitLoop s rest).map fun result => (result.1 + 1, result.2)

def waitForPods (first : Except String (List Pod)) (events : List Event) :
    Option (Nat × Outcome) :=
  match first with
  | .error cause => some (0, .failure none (.listing cause))
  | .ok pods => waitLoop options ⟨pods, .initial 0⟩ events

end Loop

/-! ## The two conditions -/

variable {p : Pod}

section Conditions

variable (options : WaitForPodOptions)

/-- Running, ready, and up to date for the check if there is one. -/
structure ReadyUpdated (p : Pod) : Prop where
  alive : p.deletionTimestamp = none
  running : p.phase = "Running"
  ready : ∃ c ∈ p.conditions, c.type = "Ready" ∧ c.status = "True"
  updated : ∀ check, options.isPodUpdated = some check → check p = none

/-- Ended, and not being deleted. -/
structure Inactive (p : Pod) : Prop where
  alive : p.deletionTimestamp = none
  ended : p.phase = "Succeeded" ∨ p.phase = "Failed"

variable {options} in
theorem readyUpdated_iff :
    readyUpdated options.isPodUpdated p = true ↔ ReadyUpdated options p := by
  have hupdated : Updated options.isPodUpdated p ↔
      ∀ check, options.isPodUpdated = some check → check p = none := by
    rw [Updated, updateError]
    exact Option.bind_eq_none_iff
  have hready : ready p = true ↔ ∃ c ∈ p.conditions, c.type = "Ready" ∧ c.status = "True" := by
    simp only [ready, List.any_eq_true, Bool.and_eq_true, decide_eq_true_eq]
  simp only [readyUpdated, decide_eq_true_eq, hupdated, podStatus_eq_runningAndReady_iff, hready]
  constructor
  · rintro ⟨⟨alive, running, ready⟩, updated⟩
    exact ⟨alive, running, ready, updated⟩
  · rintro ⟨alive, running, ready, updated⟩
    exact ⟨⟨alive, running, ready⟩, updated⟩

theorem called_inactive_iff : called .inactive p = true ↔ Inactive p := by
  rw [called, decide_eq_true_eq, podStatus_eq_inactive_iff]
  exact ⟨fun h => ⟨h.1, h.2⟩, fun h => ⟨h.alive, h.ended⟩⟩

instance (p : Pod) : Decidable (ReadyUpdated options p) := decidable_of_iff _ readyUpdated_iff

instance (p : Pod) : Decidable (Inactive p) := decidable_of_iff _ called_inactive_iff

variable (desiredPodCount : Int) (pods : List Pod)

/-- The pods that are ready and updated are as many as desired, and all others are
inactive. -/
structure AllSettled : Prop where
  noneTerminating : ∀ p ∈ pods, p.deletionTimestamp = none
  settled : ∀ p ∈ pods, ReadyUpdated options p ∨ Inactive p
  asDesired : (pods.countP (ReadyUpdated options ·) : Int) = desiredPodCount

structure WithinMargin : Prop where
  positive : 0 < options.countErrorMargin
  enough : desiredPodCount - options.countErrorMargin ≤ pods.countP (ReadyUpdated options ·)
  active : (pods.countP (¬ Inactive ·) : Int) ≤ desiredPodCount
  inactive : (pods.countP (Inactive ·) : Int) ≤ options.countErrorMargin

def Enough : Prop :=
  AllSettled options desiredPodCount pods ∨ WithinMargin options desiredPodCount pods

end Conditions

section Counts

variable {options : WaitForPodOptions} {desiredPodCount : Int} {pods : List Pod}

theorem called_unique {status status' : Status} (h : called status p = true)
    (h' : called status' p = true) : status = status' := by
  simp only [called, decide_eq_true_eq] at h h'
  exact h.symm.trans h'

theorem countP_readyUpdated :
    pods.countP (ReadyUpdated options ·) = pods.countP (readyUpdated options.isPodUpdated) :=
  List.countP_congr fun p _ => by rw [decide_eq_true_eq, readyUpdated_iff]

theorem countP_inactive : pods.countP (Inactive ·) = pods.countP (called .inactive) :=
  List.countP_congr fun p _ => by rw [decide_eq_true_eq, called_inactive_iff]

theorem countP_not_inactive :
    pods.countP (¬ Inactive ·) = pods.countP fun p => !called .inactive p :=
  List.countP_congr fun p _ => by
    rw [decide_eq_true_eq, ← called_inactive_iff, Bool.not_eq_true', Bool.not_eq_true]

theorem called_of_readyUpdated (h : readyUpdated options.isPodUpdated p = true) :
    called .runningAndReady p = true := by
  simp only [readyUpdated, called, decide_eq_true_eq] at h ⊢
  exact h.1

theorem countP_active (pods : List Pod) :
    pods.countP (fun p => !called .inactive p) + pods.countP (called .inactive) =
      pods.length := by
  have hsplit : pods.length = pods.countP (called .inactive) +
      pods.countP fun p => decide ¬ called .inactive p = true :=
    List.length_eq_countP_add_countP (called .inactive)
  have hnot : pods.countP (fun p => !called .inactive p) =
      pods.countP fun p => decide ¬ called .inactive p = true :=
    List.countP_congr fun p _ => by simp
  omega

/-- Every pod is ready or inactive. -/
theorem length_eq_iff :
    pods.length = pods.countP (called .runningAndReady) + pods.countP (called .inactive) ↔
      ∀ p ∈ pods, called .runningAndReady p = true ∨ called .inactive p = true := by
  have hready : ∀ p ∈ pods, called .runningAndReady p = true → (!called .inactive p) = true := by
    intro p _ hp
    rw [Bool.not_eq_true', Bool.eq_false_iff]
    intro inactive
    cases called_unique hp inactive
  have hactive : pods.length =
      pods.countP (called .runningAndReady) + pods.countP (called .inactive) ↔
      pods.countP (called .runningAndReady) = pods.countP fun p => !called .inactive p := by
    have := countP_active pods
    omega
  rw [hactive, countP_eq_iff hready]
  refine forall₂_congr fun p _ => ?_
  cases called .inactive p <;> simp

/-- Every ready pod is updated. -/
theorem countP_running_eq_iff :
    pods.countP (called .runningAndReady) = pods.countP (readyUpdated options.isPodUpdated) ↔
      ∀ p ∈ pods, called .runningAndReady p = true →
        readyUpdated options.isPodUpdated p = true := by
  rw [eq_comm, countP_eq_iff fun p _ => called_of_readyUpdated]

theorem allSettled_iff :
    AllSettled options desiredPodCount pods ↔
      (pods.length = pods.countP (called .runningAndReady) + pods.countP (called .inactive) ∧
        pods.countP (called .runningAndReady) =
          pods.countP (readyUpdated options.isPodUpdated)) ∧
      (pods.countP (readyUpdated options.isPodUpdated) : Int) = desiredPodCount := by
  rw [length_eq_iff, countP_running_eq_iff, ← countP_readyUpdated]
  constructor
  · rintro ⟨_, settled, asDesired⟩
    have settled : ∀ p ∈ pods,
        readyUpdated options.isPodUpdated p = true ∨ called .inactive p = true :=
      fun p hp => (settled p hp).imp readyUpdated_iff.mpr called_inactive_iff.mpr
    refine ⟨⟨fun p hp => (settled p hp).imp_left called_of_readyUpdated, ?_⟩, asDesired⟩
    intro p hp running
    refine (settled p hp).resolve_right fun inactive => ?_
    cases called_unique running inactive
  · rintro ⟨⟨settled, updated⟩, asDesired⟩
    have settled : ∀ p ∈ pods, ReadyUpdated options p ∨ Inactive p := fun p hp =>
      (settled p hp).imp (fun running => readyUpdated_iff.mp (updated p hp running))
        called_inactive_iff.mp
    refine ⟨fun p hp => ?_, settled, asDesired⟩
    exact (settled p hp).elim ReadyUpdated.alive Inactive.alive

theorem withinMargin_iff :
    WithinMargin options desiredPodCount pods ↔
      ((0 < options.countErrorMargin ∧
          (pods.countP (readyUpdated options.isPodUpdated) : Int) ≥
            desiredPodCount - options.countErrorMargin) ∧
        (pods.length : Int) - pods.countP (called .inactive) ≤ desiredPodCount) ∧
      (pods.countP (called .inactive) : Int) ≤ options.countErrorMargin := by
  have hactive := countP_active pods
  constructor
  · rintro ⟨positive, enough, active, inactive⟩
    rw [countP_readyUpdated] at enough
    rw [countP_not_inactive] at active
    rw [countP_inactive] at inactive
    exact ⟨⟨⟨positive, enough⟩, by omega⟩, inactive⟩
  · rintro ⟨⟨⟨positive, enough⟩, active⟩, inactive⟩
    rw [← countP_readyUpdated] at enough
    rw [← countP_inactive] at inactive
    refine ⟨positive, enough, ?_, inactive⟩
    rw [countP_not_inactive]
    omega

theorem succeeded_iff :
    succeeded options desiredPodCount pods = true ↔ Enough options desiredPodCount pods := by
  have totals := totals_computePodsStartupStatus options.isPodUpdated pods desiredPodCount
  rw [Enough, allSettled_iff, withinMargin_iff]
  simp only [succeeded, Bool.or_eq_true, Bool.and_eq_true, decide_eq_true_eq, totals.running,
    totals.inactive, totals.runningUpdated]

/-- On success the ready and updated pods are not more than desired, and fewer by the
margin at most. -/
theorem Enough.bounds (h : Enough options desiredPodCount pods) :
    desiredPodCount - max options.countErrorMargin 0 ≤
        pods.countP (ReadyUpdated options ·) ∧
      (pods.countP (ReadyUpdated options ·) : Int) ≤ desiredPodCount := by
  rcases h with h | h
  · have := h.asDesired
    omega
  · have hle : pods.countP (ReadyUpdated options ·) ≤ pods.countP (¬ Inactive ·) := by
      refine List.countP_mono_left fun p _ hp => ?_
      simp only [decide_eq_true_eq] at hp ⊢
      intro inactive
      have := hp.running
      rcases inactive.ended with ended | ended <;> simp_all
    have := h.enough
    have := h.active
    omega

end Counts

/-! ## The first poll at which enough pods are ready -/

section Polling

variable {options : WaitForPodOptions}

/-- A tick whose listing succeeds, with pods as described. -/
def PollWith (good : Int → List Pod → Prop) (event : Event) : Prop :=
  ∃ desiredPodCount pods, event = .poll desiredPodCount (.ok pods) ∧ good desiredPodCount pods

/-- The loop returns, or goes on if there are not enough pods. -/
theorem iterate_cases (options : WaitForPodOptions) (s : LoopState) (event : Event) :
    (iterate options s event = .inl .success ∧ PollWith (Enough options) event) ∨
    (∃ s', iterate options s event = .inr s' ∧
      PollWith (fun desired pods => ¬ Enough options desired pods) event) ∨
    ((∃ pods err, iterate options s event = .inl (.failure pods err)) ∧
      ¬ PollWith (fun _ _ => True) event) := by
  cases event with
  | done err desiredPodCount =>
    cases err with
    | deadlineExceeded | canceled => exact .inr (.inr ⟨⟨_, _, rfl⟩, by rintro ⟨_, _, ⟨⟩, _⟩⟩)
  | poll desiredPodCount listing =>
    cases listing with
    | error cause => exact .inr (.inr ⟨⟨_, _, rfl⟩, by rintro ⟨_, _, ⟨⟩, _⟩⟩)
    | ok pods =>
      by_cases enough : succeeded options desiredPodCount pods = true
      · refine .inl ⟨if_pos enough, desiredPodCount, pods, rfl, succeeded_iff.mp enough⟩
      · refine .inr (.inl ⟨_, if_neg enough, desiredPodCount, pods, rfl, ?_⟩)
        exact fun h => enough (succeeded_iff.mpr h)

variable {good : Int → List Pod → Prop} {event : Event}

theorem PollWith.both {good' : Int → List Pod → Prop}
    (h : PollWith good event) (h' : PollWith good' event) :
    PollWith (fun desired pods => good desired pods ∧ good' desired pods) event := by
  obtain ⟨desired, pods, rfl, hgood⟩ := h
  obtain ⟨_, _, ⟨⟩, hgood'⟩ := h'
  exact ⟨desired, pods, rfl, hgood, hgood'⟩

theorem not_enough_and_not (h : PollWith (Enough options) event)
    (h' : PollWith (fun desired pods => ¬ Enough options desired pods) event) : False := by
  obtain ⟨_, _, _, enough, missing⟩ := h.both h'
  exact missing enough

theorem PollWith.weaken (h : PollWith good event) : PollWith (fun _ _ => True) event := by
  obtain ⟨desired, pods, rfl, _⟩ := h
  exact ⟨desired, pods, rfl, trivial⟩

/-- The first of the events at which there are enough pods, with nothing but polls
before it. -/
def FirstEnough (options : WaitForPodOptions) (events : List Event) (i : Nat) : Prop :=
  (∃ event, events[i]? = some event ∧ PollWith (Enough options) event) ∧
    ∀ j < i, ∃ event, events[j]? = some event ∧
      PollWith (fun desired pods => ¬ Enough options desired pods) event

theorem firstEnough_zero {rest : List Event} :
    FirstEnough options (event :: rest) 0 ↔ PollWith (Enough options) event := by
  constructor
  · rintro ⟨⟨_, ⟨⟩, h⟩, _⟩
    exact h
  · exact fun h => ⟨⟨event, rfl, h⟩, nofun⟩

theorem firstEnough_succ {rest : List Event} {i : Nat} :
    FirstEnough options (event :: rest) (i + 1) ↔
      PollWith (fun desired pods => ¬ Enough options desired pods) event ∧
        FirstEnough options rest i := by
  constructor
  · rintro ⟨found, before⟩
    obtain ⟨_, ⟨⟩, hfirst⟩ := before 0 (by omega)
    exact ⟨hfirst, found, fun j hj => before (j + 1) (by omega)⟩
  · rintro ⟨hfirst, found, before⟩
    refine ⟨found, fun j hj => ?_⟩
    cases j with
    | zero => exact ⟨event, rfl, hfirst⟩
    | succ j => exact before j (by omega)

theorem waitLoop_success_iff {s : LoopState} {events : List Event} {i : Nat} :
    waitLoop options s events = some (i, .success) ↔ FirstEnough options events i := by
  induction events generalizing s i with
  | nil =>
    refine iff_of_false nofun ?_
    rintro ⟨⟨_, ⟨⟩, _⟩, _⟩
  | cons event rest ih =>
    rw [waitLoop]
    rcases iterate_cases options s event with ⟨hstep, hpoll⟩ | ⟨s', hstep, hpoll⟩ |
      ⟨⟨pods, err, hstep⟩, hpoll⟩
    · rw [hstep]
      cases i with
      | zero => exact iff_of_true rfl (firstEnough_zero.mpr hpoll)
      | succ i =>
        refine iff_of_false nofun fun h => ?_
        exact not_enough_and_not hpoll (firstEnough_succ.mp h).1
    · rw [hstep]
      cases i with
      | zero =>
        refine iff_of_false ?_ fun h => not_enough_and_not (firstEnough_zero.mp h) hpoll
        intro h
        obtain ⟨_, _, ⟨⟩⟩ := Option.map_eq_some_iff.mp h
      | succ i =>
        rw [firstEnough_succ, ← ih (s := s')]
        constructor
        · intro h
          obtain ⟨⟨_, _⟩, hrest, ⟨⟩⟩ := Option.map_eq_some_iff.mp h
          exact ⟨hpoll, hrest⟩
        · rintro ⟨_, hrest⟩
          simp only [hrest, Option.map_some]
    · rw [hstep]
      refine iff_of_false nofun fun h => hpoll ?_
      cases i with
      | zero => exact (firstEnough_zero.mp h).weaken
      | succ i => exact (firstEnough_succ.mp h).1.weaken

theorem exists_pollWith_iff {events : List Event} {i : Nat} :
    (∃ event, events[i]? = some event ∧ PollWith good event) ↔
      ∃ desired pods, events[i]? = some (.poll desired (.ok pods)) ∧ good desired pods := by
  constructor
  · rintro ⟨_, hevent, desired, pods, rfl, hgood⟩
    exact ⟨desired, pods, hevent, hgood⟩
  · rintro ⟨desired, pods, hevent, hgood⟩
    exact ⟨_, hevent, desired, pods, rfl, hgood⟩

/-- The wait succeeds at the first poll with enough pods, if neither a listing fails
nor the context is done before; and then the number of ready updated pods is within the
margin below the desired one. -/
theorem waitForPods_success_iff (options : WaitForPodOptions)
    (first : Except String (List Pod)) (events : List Event) (i : Nat) :
    (waitForPods options first events = some (i, .success) ↔
      (∃ pods, first = .ok pods) ∧
      (∃ desired pods, events[i]? = some (.poll desired (.ok pods)) ∧
        Enough options desired pods) ∧
      ∀ j < i, ∃ desired pods, events[j]? = some (.poll desired (.ok pods)) ∧
        ¬ Enough options desired pods) ∧
    ∀ desired pods, waitForPods options first events = some (i, .success) →
      events[i]? = some (.poll desired (.ok pods)) →
      desired - max options.countErrorMargin 0 ≤ pods.countP (ReadyUpdated options ·) ∧
        (pods.countP (ReadyUpdated options ·) : Int) ≤ desired := by
  have hfirst : waitForPods options first events = some (i, .success) ↔
      (∃ pods, first = .ok pods) ∧ FirstEnough options events i := by
    cases first with
    | error cause =>
      refine iff_of_false nofun ?_
      rintro ⟨⟨_, ⟨⟩⟩, _⟩
    | ok pods =>
      rw [waitForPods, waitLoop_success_iff]
      exact ⟨fun h => ⟨⟨pods, rfl⟩, h⟩, fun h => h.2⟩
  refine ⟨?_, fun desired pods h hevent => ?_⟩
  · simp only [hfirst, FirstEnough, exists_pollWith_iff]
  · obtain ⟨_, found, _⟩ := hfirst.mp h
    obtain ⟨_, _, hevent', enough⟩ := exists_pollWith_iff.mp found
    cases hevent.symm.trans hevent'
    exact enough.bounds

end Polling

end WaitForPods
