import ClusterLoader.Informers
import ClusterLoader.PodStartup

/-!
# Lifecycle latencies of jobs

The informer's callback puts every notification into a queue, from which one
goroutine takes it; the times of a job are recorded under its name, each only
once. Gather polls until as many jobs have been completed as created, counting
the ones after the others, or until a timeout; then it stops the informer and
the queue and computes the latencies. The goroutine may still be at work then.

A table is locked for one access at a time, so the goroutine and the poll
interleave between the accesses. Only the goroutine writes, and looking a time
up and setting it count as one access of it. The measurement is started once.
-/

namespace JobLifecycle

open EnabledRuns Informers TransitionTimes
open PodStartup (createMetaNamespaceKey)

/-- A state of a job; `uid` tells the object. -/
structure Job where
  ns : String
  name : String
  uid : String
  creationTimestamp : Int
  startTime : Option Int
  completionTime : Option Int

def Job.key (j : Job) : String := createMetaNamespaceKey j.ns j.name

inductive JobPhase where
  | jobCreated
  | jobStarted
  | jobCompleted
  deriving DecidableEq

abbrev Table := ObjectTransitionTimes JobPhase

def Job.time (j : Job) : JobPhase → Option Int
  | .jobCreated => some j.creationTimestamp
  | .jobStarted => j.startTime
  | .jobCompleted => j.completionTime

/-- One of the three parts of `processEvent`. -/
def recordPhase (entries : Table) (j : Job) (phase : JobPhase) : Table :=
  match j.time phase with
  | none => entries
  | some t => if (entries.get j.key phase).isSome then entries else entries.set j.key phase t

def jobLifecycleTransitions : List (String × Transition JobPhase) :=
  [("create_to_start", ⟨.jobCreated, .jobStarted⟩),
    ("start_to_complete", ⟨.jobStarted, .jobCompleted⟩)]

def matchAll (_ : String) : Bool := true

/-- What gather puts into its summary. -/
def latencyReport (entries : Table) : List (String × LatencyMetric) :=
  calculateTransitionsLatency entries jobLifecycleTransitions matchAll

/-! ## Callback, goroutine and gather -/

inductive Gathering where
  | idle
  | polling
  /-- The created jobs have been counted. -/
  | counted (created : Nat)
  | polled
  | stopped
  /-- The latencies have been computed from the table. -/
  | returned (entries : Table)

structure System where
  isRunning : Bool
  /-- What `Get` has not returned; a deletion has no object. -/
  queue : List (Option Job)
  shutDown : Bool
  /-- The job that is processed, and the phases still to be looked at. -/
  processing : Option (Job × List JobPhase)
  jobStateEntries : Table
  gathering : Gathering
  /-- The jobs of all the notifications that were enqueued. -/
  enqueued : List Job
  /-- Those when gather stopped waiting before its timeout. -/
  early : Option (List Job)

def initial : System where
  isRunning := false
  queue := []
  shutDown := false
  processing := none
  jobStateEntries := .empty
  gathering := .idle
  enqueued := []
  early := none

inductive Act where
  | start
  /-- The informer calls `addEvent`. -/
  | addEvent (n : Notification Job)
  | take
  | process
  | gather
  | countCreated
  | countCompleted
  | timeout
  | stop
  | calculate

/-- A queue that has been shut down takes nothing. -/
def addEvent (s : System) (n : Notification Job) : System :=
  if s.shutDown = true then s
  else { s with queue := s.queue ++ [n.stored], enqueued := s.enqueued ++ n.stored.toList }

def step (s : System) : Act → Option System
  | .start => if s.shutDown = true then none else some { s with isRunning := true }
  | .addEvent n => if s.isRunning = true ∨ s.shutDown = true then some (addEvent s n) else none
  | .take =>
    match s.queue, s.processing with
    | obj :: rest, none =>
      some { s with
        queue := rest
        processing := obj.map fun j => (j, [.jobCreated, .jobStarted, .jobCompleted]) }
    | _, _ => none
  | .process =>
    match s.processing with
    | some (j, phase :: rest) =>
      some { s with
        jobStateEntries := recordPhase s.jobStateEntries j phase
        processing := some (j, rest) }
    | some (_, []) => some { s with processing := none }
    | none => none
  | .gather =>
    match s.gathering with
    | .idle => some (if s.isRunning = true then { s with gathering := .polling } else s)
    | _ => none
  | .countCreated =>
    match s.gathering with
    | .polling => some { s with gathering := .counted (s.jobStateEntries.count .jobCreated) }
    | _ => none
  | .countCompleted =>
    match s.gathering with
    | .counted created =>
      some (if created = s.jobStateEntries.count .jobCompleted then
          { s with gathering := .polled, early := some s.enqueued }
        else { s with gathering := .polling })
    | _ => none
  | .timeout =>
    match s.gathering with
    | .polling => some { s with gathering := .polled }
    | _ => none
  | .stop =>
    match s.gathering with
    | .polled => some { s with gathering := .stopped, isRunning := false, shutDown := true }
    | _ => none
  | .calculate =>
    match s.gathering with
    | .stopped => some { s with gathering := .returned s.jobStateEntries }
    | _ => none

/-! ## What the latencies should be -/

/-- The latencies of the transition, one for each name that has both times. -/
def lags (entries : Table) (transition : Transition JobPhase) : List Int :=
  entries.times.entries.filterMap fun entry => lag entry.2 transition

/-- The latency between times that two states of jobs show, cut at the largest duration. -/
def between (j j' : Job) (transition : Transition JobPhase) : Option Int := do
  let fromTime ← j.time transition.start
  let toTime ← j'.time transition.stop
  return min maxDuration (max 0 (toTime - fromTime))

/-- The latency is between two times of one object. -/
def Describes (jobs : List Job) (transition : Transition JobPhase) (l : Int) : Prop :=
  ∃ j ∈ jobs, ∃ j' ∈ jobs, j'.uid = j.uid ∧ between j j' transition = some l

def AllCompleted (jobs : List Job) : Prop :=
  ∀ j ∈ jobs, ∃ j' ∈ jobs, j'.uid = j.uid ∧ j'.completionTime.isSome = true

structure Sound (s : System) : Prop where
  single : ∀ entries, s.gathering = .returned entries → ∀ named ∈ jobLifecycleTransitions,
    ∀ l ∈ lags entries named.2, Describes s.enqueued named.2 l
  waited : ∀ jobs, s.early = some jobs → AllCompleted jobs

def Gathering.created : Gathering → Option Nat
  | .counted created => some created
  | _ => none

/-- No name is used by two objects, and a poll that ends the wait has counted
when everything enqueued had been processed. -/
def Guard (s : System) : Act → Prop
  | .addEvent n => ∀ j ∈ n.stored, ∀ j' ∈ s.enqueued, j'.key = j.key → j'.uid = j.uid
  | .countCompleted => ∀ created ∈ s.gathering.created,
    created = s.jobStateEntries.count .jobCompleted →
      s.queue = [] ∧ s.processing = none ∧ created = s.jobStateEntries.count .jobCreated
  | _ => True

instance Guard.decidable (s : System) : ∀ a, Decidable (Guard s a)
  | .addEvent n => inferInstanceAs
    (Decidable (∀ j ∈ n.stored, ∀ j' ∈ s.enqueued, j'.key = j.key → j'.uid = j.uid))
  | .countCompleted => inferInstanceAs
    (Decidable (∀ created ∈ s.gathering.created,
      created = s.jobStateEntries.count .jobCompleted →
        s.queue = [] ∧ s.processing = none ∧ created = s.jobStateEntries.count .jobCreated))
  | .start | .take | .process | .gather | .countCreated | .timeout | .stop | .calculate =>
    isTrue trivial

/-! ## The reported percentiles -/

/-- What the report says of a transition are latencies of it. -/
theorem report_mem_lags (entries : Table) {named : String × LatencyMetric}
    (h : named ∈ latencyReport entries) :
    ∃ transition, (named.1, transition) ∈ jobLifecycleTransitions ∧
      (lags entries transition ≠ [] → ∀ l ∈ [named.2.perc50, named.2.perc90, named.2.perc99],
        l ∈ lags entries transition) := by
  obtain ⟨⟨name, transition⟩, hmem, rfl⟩ := List.mem_map.mp h
  refine ⟨transition, hmem, fun nonempty l hl => ?_⟩
  have hlags : (collect matchAll transition entries.times.entries).map LatencyData.latency =
      lags entries transition := latency_collect _ _ _
  have hsorted : 0 < ((lags entries transition).insertionSort (· ≤ ·)).length := by
    rw [List.length_insertionSort]
    exact List.length_pos_iff.mpr nonempty
  have hvalue : ∀ q, percentile _ hsorted q ∈ lags entries transition :=
    fun q => (List.mem_insertionSort _).mp (List.get_mem _ _)
  simp only [hlags, newLatencyMetric, dif_pos hsorted, List.mem_cons, List.not_mem_nil,
    or_false] at hl
  rcases hl with rfl | rfl | rfl
  · exact hvalue .perc50
  · exact hvalue .perc90
  · exact hvalue .perc99

/-! ## Runs -/

theorem get_recordPhase (entries : Table) (j : Job) (phase : JobPhase) (key : String)
    (phase' : JobPhase) : (recordPhase entries j phase).get key phase' =
      if key = j.key ∧ phase' = phase then (entries.get key phase').or (j.time phase')
      else entries.get key phase' := by
  unfold recordPhase
  cases htime : j.time phase with
  | none =>
    dsimp only
    split
    · rename_i same
      rw [same.2, htime, Option.or_none]
    · rfl
  | some t =>
    dsimp only
    split
    · rename_i known
      split
      · rename_i same
        rw [← same.1, ← same.2] at known
        rw [Option.or_of_isSome known]
      · rfl
    · rename_i unknown
      rw [ObjectTransitionTimes.get_set]
      split
      · rename_i same
        rw [← same.1, ← same.2, Option.not_isSome_iff_eq_none] at unknown
        rw [unknown, same.2, htime, Option.none_or]
      · rfl

/-- The table holds times of the jobs, and the creation of every job that is no
longer in the queue or being processed. -/
structure Inv (s : System) : Prop where
  unique : ∀ j ∈ s.enqueued, ∀ j' ∈ s.enqueued, j'.key = j.key → j'.uid = j.uid
  queued : ∀ j, some j ∈ s.queue → j ∈ s.enqueued
  processing : ∀ j phases, s.processing = some (j, phases) → j ∈ s.enqueued
  shown : ∀ key phase t, s.jobStateEntries.get key phase = some t →
    ∃ j ∈ s.enqueued, j.key = key ∧ j.time phase = some t
  created : ∀ j ∈ s.enqueued, some j ∈ s.queue ∨
    (∃ phases, s.processing = some (j, phases) ∧ JobPhase.jobCreated ∈ phases) ∨
    (s.jobStateEntries.get j.key .jobCreated).isSome = true
  sound : Sound s

theorem inv_initial : Inv initial where
  unique := fun _ hj => absurd hj List.not_mem_nil
  queued := fun _ hj => absurd hj List.not_mem_nil
  processing := nofun
  shown := nofun
  created := fun _ hj => absurd hj List.not_mem_nil
  sound := ⟨nofun, nofun⟩

variable {s : System}

/-- Once everything has been processed, equal counts mean that all have completed. -/
theorem Inv.allCompleted (inv : Inv s) (queue : s.queue = []) (idle : s.processing = none)
    (counts : s.jobStateEntries.count .jobCreated = s.jobStateEntries.count .jobCompleted) :
    AllCompleted s.enqueued := by
  have hcreated : ∀ j ∈ s.enqueued,
      (s.jobStateEntries.get j.key .jobCreated).isSome = true := by
    intro j hj
    rcases inv.created j hj with queued | ⟨phases, processed, _⟩ | done
    · simp [queue] at queued
    · simp [idle] at processed
    · exact done
  have among : ∀ key, (s.jobStateEntries.get key .jobCompleted).isSome = true →
      key ∈ s.jobStateEntries.keysWith .jobCreated := by
    intro key h
    obtain ⟨t, ht⟩ := Option.isSome_iff_exists.mp h
    obtain ⟨j, hj, rfl, _⟩ := inv.shown key _ t ht
    exact (s.jobStateEntries.mem_keysWith).mpr (hcreated j hj)
  intro j hj
  have completed : (s.jobStateEntries.get j.key .jobCompleted).isSome = true := by
    refine s.jobStateEntries.isSome_get_of_length_le among ?_
      ((s.jobStateEntries.mem_keysWith).mpr (hcreated j hj))
    rw [← ObjectTransitionTimes.count_eq_length]
    omega
  obtain ⟨t, ht⟩ := Option.isSome_iff_exists.mp completed
  obtain ⟨j', hj', same, htime⟩ := inv.shown _ _ t ht
  refine ⟨j', hj', inv.unique j hj j' hj' same, ?_⟩
  rw [show j'.completionTime = some t from htime]
  rfl

variable {transition : Transition JobPhase}

/-- The times under one name are of one object. -/
theorem Inv.describes (inv : Inv s) {l : Int} (h : l ∈ lags s.jobStateEntries transition) :
    Describes s.enqueued transition l := by
  obtain ⟨entry, hentry, hlag⟩ := List.mem_filterMap.mp h
  have hget : ∀ phase, s.jobStateEntries.get entry.1 phase = entry.2.get phase := by
    intro phase
    rw [ObjectTransitionTimes.get, KeyedStore.Map.get_of_mem hentry]
    rfl
  unfold lag at hlag
  split at hlag
  · rename_i fromTime toTime hfrom hto
    obtain ⟨j, hj, hkey, htime⟩ := inv.shown _ _ _ ((hget _).trans hfrom)
    obtain ⟨j', hj', hkey', htime'⟩ := inv.shown _ _ _ ((hget _).trans hto)
    refine ⟨j, hj, j', hj', inv.unique j hj j' hj' (hkey'.trans hkey.symm), ?_⟩
    rw [between, htime, htime', ← hlag]
    simp only [Option.bind_eq_bind, Option.bind_some, Option.pure_def, sub, minDuration,
      maxDuration, Option.some_inj]
    omega
  · cases hlag

theorem Describes.mono {jobs jobs' : List Job} (sub : jobs ⊆ jobs') {l : Int}
    (h : Describes jobs transition l) :
    Describes jobs' transition l := by
  obtain ⟨j, hj, j', hj', same⟩ := h
  exact ⟨j, sub hj, j', sub hj', same⟩

theorem Inv.addEvent {n : Notification Job} (inv : Inv s)
    (guard : Guard s (.addEvent n)) : Inv (addEvent s n) := by
  unfold JobLifecycle.addEvent
  split
  · exact inv
  have sub : s.enqueued ⊆ s.enqueued ++ n.stored.toList := List.subset_append_left _ _
  constructor
  · intro j hj j' hj' same
    rcases List.mem_append.mp hj with hj | hj <;> rcases List.mem_append.mp hj' with hj' | hj'
    · exact inv.unique j hj j' hj' same
    · exact (guard j' (Option.mem_toList.mp hj') j hj same.symm).symm
    · exact guard j (Option.mem_toList.mp hj) j' hj' same
    · have := (Option.mem_toList.mp hj).symm.trans (Option.mem_toList.mp hj')
      rw [Option.some.inj this]
  · intro j hj
    rcases List.mem_append.mp hj with hj | hj
    · exact sub (inv.queued j hj)
    · refine List.mem_append_right _ (Option.mem_toList.mpr ?_)
      exact (List.mem_singleton.mp hj).symm
  · exact fun j phases h => sub (inv.processing j phases h)
  · intro key phase t h
    obtain ⟨j, hj, shows⟩ := inv.shown key phase t h
    exact ⟨j, sub hj, shows⟩
  · intro j hj
    rcases List.mem_append.mp hj with hj | hj
    · exact (inv.created j hj).imp_left (List.mem_append_left _)
    · refine Or.inl (List.mem_append_right _ (List.mem_singleton.mpr ?_))
      exact (Option.mem_toList.mp hj).symm
  · constructor
    · exact fun entries h named hn l hl => (inv.sound.single entries h named hn l hl).mono sub
    · exact inv.sound.waited

theorem Inv.take {obj : Option Job} {rest : List (Option Job)} (inv : Inv s)
    (queue : s.queue = obj :: rest) (idle : s.processing = none) :
    Inv { s with
      queue := rest
      processing := obj.map fun j => (j, [.jobCreated, .jobStarted, .jobCompleted]) } := by
  refine ⟨inv.unique, ?_, ?_, inv.shown, ?_, inv.sound.single, inv.sound.waited⟩
  · intro j hj
    exact inv.queued j (by rw [queue]; exact List.mem_cons_of_mem _ hj)
  · intro j phases h
    obtain ⟨j', rfl, same⟩ := Option.map_eq_some_iff.mp h
    cases same
    exact inv.queued j (by rw [queue]; exact List.mem_cons_self)
  · intro j hj
    rcases inv.created j hj with queued | ⟨phases, processed, _⟩ | done
    · rw [queue] at queued
      rcases List.mem_cons.mp queued with rfl | queued
      · exact Or.inr (Or.inl ⟨_, rfl, List.mem_cons_self⟩)
      · exact Or.inl queued
    · simp [idle] at processed
    · exact Or.inr (Or.inr done)

theorem Inv.process {j : Job} {phase : JobPhase} {rest : List JobPhase} (inv : Inv s)
    (processing : s.processing = some (j, phase :: rest)) :
    Inv { s with
      jobStateEntries := recordPhase s.jobStateEntries j phase
      processing := some (j, rest) } := by
  have hj : j ∈ s.enqueued := inv.processing j _ processing
  refine ⟨inv.unique, inv.queued, ?_, ?_, ?_, inv.sound.single, inv.sound.waited⟩
  · rintro j' phases ⟨⟩
    exact hj
  · intro key phase' t h
    rw [get_recordPhase] at h
    split at h
    · rename_i same
      rcases Option.or_eq_some_iff.mp h with known | ⟨_, shows⟩
      · exact inv.shown key phase' t known
      · exact ⟨j, hj, same.1.symm, shows⟩
    · exact inv.shown key phase' t h
  · intro j' hj'
    rw [get_recordPhase]
    rcases inv.created j' hj' with queued | ⟨phases, processed, hmem⟩ | done
    · exact Or.inl queued
    · obtain ⟨rfl, rfl⟩ : j = j' ∧ phase :: rest = phases := by
        simpa using processing.symm.trans processed
      rcases List.mem_cons.mp hmem with rfl | hmem
      · simp [Job.time]
      · exact Or.inr (Or.inl ⟨rest, rfl, hmem⟩)
    · refine Or.inr (Or.inr ?_)
      split
      · rw [Option.isSome_or, done]
        rfl
      · exact done

/-- Gather moves on, before its return. -/
theorem Inv.gathers (inv : Inv s) {gathering : Gathering}
    (waits : ∀ entries, gathering ≠ .returned entries) (isRunning shutDown : Bool) :
    Inv { s with gathering, isRunning, shutDown } := by
  refine ⟨inv.unique, inv.queued, inv.processing, inv.shown, inv.created, ?_, inv.sound.waited⟩
  intro entries h
  exact absurd h (waits entries)

theorem Inv.countCompleted {n : Nat} (inv : Inv s)
    (counted : s.gathering = .counted n) (guard : Guard s .countCompleted) :
    Inv (if n = s.jobStateEntries.count .jobCompleted then
        { s with gathering := .polled, early := some s.enqueued }
      else { s with gathering := .polling }) := by
  split
  · rename_i counts
    obtain ⟨queue, idle, current⟩ := guard n (by rw [counted]; rfl) counts
    refine ⟨inv.unique, inv.queued, inv.processing, inv.shown, inv.created, nofun, ?_⟩
    rintro jobs ⟨⟩
    exact inv.allCompleted queue idle (current.symm.trans counts)
  · refine inv.gathers ?_ s.isRunning s.shutDown
    nofun

theorem Inv.step {t : System} {a : Act} (inv : Inv s) (guard : Guard s a)
    (h : step s a = some t) : Inv t := by
  cases a <;> simp only [JobLifecycle.step] at h
  case start =>
    obtain ⟨_, ⟨⟩⟩ := Option.ite_none_left_eq_some.mp h
    exact ⟨inv.unique, inv.queued, inv.processing, inv.shown, inv.created, inv.sound.single,
      inv.sound.waited⟩
  case addEvent n =>
    obtain ⟨_, ⟨⟩⟩ := Option.ite_none_right_eq_some.mp h
    exact inv.addEvent guard
  case take =>
    split at h
    · rename_i queue idle
      cases h
      exact inv.take queue idle
    · cases h
  case process =>
    split at h
    · rename_i processing
      cases h
      exact inv.process processing
    · rename_i j processing
      cases h
      refine ⟨inv.unique, inv.queued, nofun, inv.shown, fun j' hj' => ?_, inv.sound.single,
        inv.sound.waited⟩
      rcases inv.created j' hj' with queued | ⟨phases, processed, hmem⟩ | done
      · exact Or.inl queued
      · cases processing.symm.trans processed
        cases hmem
      · exact Or.inr (Or.inr done)
    · cases h
  case gather =>
    split at h
    · cases h
      split
      · refine inv.gathers ?_ s.isRunning s.shutDown
        nofun
      · exact inv
    · cases h
  case countCreated =>
    split at h
    · cases h
      refine inv.gathers ?_ s.isRunning s.shutDown
      nofun
    · cases h
  case countCompleted =>
    split at h
    · rename_i counted
      cases h
      exact inv.countCompleted counted guard
    · cases h
  case timeout =>
    split at h
    · cases h
      refine inv.gathers ?_ s.isRunning s.shutDown
      nofun
    · cases h
  case stop =>
    split at h
    · cases h
      refine inv.gathers ?_ false true
      nofun
    · cases h
  case calculate =>
    split at h
    · cases h
      refine ⟨inv.unique, inv.queued, inv.processing, inv.shown, inv.created, ?_,
        inv.sound.waited⟩
      rintro entries ⟨⟩ named _ l hl
      exact inv.describes hl
    · cases h

/-- Where no name is used by two objects and the poll that ends the wait comes
when everything enqueued has been processed, every latency is one of a single
job and all the jobs have completed. What is reported are such latencies. -/
theorem latencies_single (actions : List Act) (guarded : Along step Guard initial actions) :
    Throughout step Sound initial actions ∧
    ∀ entries named, named ∈ latencyReport entries →
      ∃ transition, (named.1, transition) ∈ jobLifecycleTransitions ∧
        (lags entries transition ≠ [] → ∀ l ∈ [named.2.perc50, named.2.perc90, named.2.perc99],
          l ∈ lags entries transition) := by
  constructor
  · refine throughout_of_along (q := Inv) ?_ ?_ inv_initial guarded
    · exact fun _ inv => inv.sound
    · exact fun _ _ _ inv guard h => inv.step guard h
  · exact fun entries named h => report_mem_lags entries h

section Histories

private def firstJob : Job := ⟨"batch", "import", "1", 0, none, none⟩

private def secondJob : Job := ⟨"batch", "import", "2", 100, some 105, some 110⟩

/-- The goroutine takes an event of a job and processes it. -/
private def handle : List Act := [.take, .process, .process, .process, .process]

private def finish : List Act := [.gather, .timeout, .stop, .calculate]

/-- A job is deleted before it starts and made again under its name. -/
private def recreated : List Act :=
  [.start, .addEvent (.add firstJob)] ++ handle ++
    [.addEvent (.delete (.known firstJob)), .take, .addEvent (.add secondJob)] ++ handle ++ finish

/-- Gather counts before a job has been processed. -/
private def hasty : List Act :=
  [.start, .addEvent (.add firstJob), .gather, .countCreated, .countCompleted]

/-- A latency is that between the times of two jobs, and gather stops waiting
while a job that was enqueued runs. -/
theorem latencies_mixed_and_hasty :
    (∃ t entries, exec step initial recreated = some t ∧ t.gathering = .returned entries ∧
      lags entries ⟨.jobCreated, .jobStarted⟩ = [105] ∧
      ¬ Describes t.enqueued ⟨.jobCreated, .jobStarted⟩ 105) ∧
    ∃ t, exec step initial hasty = some t ∧ t.early = some [firstJob] ∧
      ¬ AllCompleted [firstJob] := by
  refine ⟨⟨_, _, rfl, rfl, by decide +kernel, ?_⟩, ⟨_, rfl, rfl, ?_⟩⟩
  · unfold Describes
    decide +kernel
  · unfold AllCompleted
    decide

/-- The second job alone, gathered when it has been processed. -/
private def processed : List Act :=
  [.start, .addEvent (.add secondJob)] ++ handle ++
    [.gather, .countCreated, .countCompleted, .stop, .calculate]

theorem latencies_single_processed :
    (exec step initial processed).any (·.early.isSome) = true ∧
    Along step Guard initial processed ∧ Throughout step Sound initial processed := by
  have guarded : Along step Guard initial processed := by decide +kernel
  exact ⟨by decide +kernel, guarded, (latencies_single processed guarded).1⟩

end Histories

end JobLifecycle
