import ClusterLoader.EnabledRuns
import ClusterLoader.Histories
import ClusterLoader.DedupQueues
import ClusterLoader.Parties

/-!
# The worker queue of the measurements

A fixed number of workers drain a queue of functions. Functions are known by
their pointers: two additions of one pointer are additions of one function. A
worker waits for a function, runs it and reports it done; Stop shuts the queue
down and waits for the workers to leave. Any goroutine may add functions, a
worker also from inside the function that it runs. The call of Stop is its
first step, the shutdown.

The queue is client-go's, with its waiting callers let through as soon as there
is something for them. What a function does other than adding functions is left
out; a function that never returns keeps its worker, one that panics ends the
program. Stop is called once, not from inside a function. `log` records what has
happened.
-/

namespace WorkerQueue

open DedupQueues Histories EnabledRuns Parties

universe u

variable {F : Type u} {size : Nat}

/-- A worker at the step it takes next: `running` inside the function, `returned`
before it reports the function done. -/
inductive Phase (F : Type u) where
  | ready
  | running (f : F)
  | returned (f : F)
  | exited
  deriving DecidableEq

/-- The function that a worker has taken. -/
def Phase.item : Phase F → Option F
  | .running f | .returned f => some f
  | .ready | .exited => none

def Phase.isRunning : Phase F → Bool
  | .running _ => true
  | .ready | .returned _ | .exited => false

inductive StopCall where
  | notCalled
  | waiting
  | returned
  deriving DecidableEq

/-- Who adds a function: a worker from inside the one it runs, or anyone else. -/
inductive Caller (size : Nat) where
  | other
  | worker (w : Fin size)
  deriving DecidableEq

inductive Event (F : Type u) (size : Nat) where
  | add (caller : Caller size) (f : F)
  | start (w : Fin size) (f : F)
  | finish (w : Fin size) (f : F)
  | shutDown
  | returnStop
  deriving DecidableEq

structure State (F : Type u) (size : Nat) where
  queue : Queue F
  workers : Fin size → Phase F
  stop : StopCall
  log : List (Event F size)

def newWorkerQueue (F : Type u) (size : Nat) : State F size where
  queue := .empty
  workers := fun _ => .ready
  stop := .notCalled
  log := []

inductive Action (F : Type u) (size : Nat) where
  | add (caller : Caller size) (f : F)
  | get (w : Fin size)
  | finish (w : Fin size)
  | done (w : Fin size)
  | shutDown
  | returnStop

def State.canAdd (s : State F size) : Caller size → Bool
  | .other => true
  | .worker w => (s.workers w).isRunning

variable [DecidableEq F]

def step (s : State F size) : Action F size → Option (State F size)
  | .add caller f =>
    if s.canAdd caller then
      some { s with queue := s.queue.add f, log := s.log ++ [.add caller f] }
    else none
  | .get w =>
    match s.workers w, s.queue.get with
    | .ready, some (none, queue) =>
      some { s with queue := queue, workers := Function.update s.workers w .exited }
    | .ready, some (some f, queue) =>
      some { s with
        queue := queue
        workers := Function.update s.workers w (.running f)
        log := s.log ++ [.start w f] }
    | _, _ => none
  | .finish w =>
    match s.workers w with
    | .running f =>
      some { s with
        workers := Function.update s.workers w (.returned f)
        log := s.log ++ [.finish w f] }
    | _ => none
  | .done w =>
    match s.workers w with
    | .returned f =>
      some { s with queue := s.queue.done f, workers := Function.update s.workers w .ready }
    | _ => none
  | .shutDown =>
    if s.stop = .notCalled then
      some { s with
        stop := .waiting, queue := s.queue.shutDown, log := s.log ++ [.shutDown] }
    else none
  | .returnStop =>
    if s.stop = .waiting ∧ ∀ w, s.workers w = .exited then
      some { s with stop := .returned, log := s.log ++ [.returnStop] }
    else none

/-- What an action can do and when it can be taken. -/
inductive Effect (s : State F size) : Action F size → State F size → Prop where
  | add (caller : Caller size) (f : F) :
    Effect s (.add caller f)
      { s with queue := s.queue.add f, log := s.log ++ [.add caller f] }
  | exit (w : Fin size) (ready : s.workers w = .ready) (queued : s.queue.queue = [])
    (shut : s.queue.shuttingDown = true) :
    Effect s (.get w) { s with workers := Function.update s.workers w .exited }
  | start (w : Fin size) (f : F) (queue : Queue F) (ready : s.workers w = .ready)
    (taken : s.queue.get = some (some f, queue)) :
    Effect s (.get w)
      { s with
        queue := queue
        workers := Function.update s.workers w (.running f)
        log := s.log ++ [.start w f] }
  | finish (w : Fin size) (f : F) (running : s.workers w = .running f) :
    Effect s (.finish w)
      { s with
        workers := Function.update s.workers w (.returned f)
        log := s.log ++ [.finish w f] }
  | done (w : Fin size) (f : F) (returned : s.workers w = .returned f) :
    Effect s (.done w)
      { s with queue := s.queue.done f, workers := Function.update s.workers w .ready }
  | shutDown (notCalled : s.stop = .notCalled) :
    Effect s .shutDown
      { s with stop := .waiting, queue := s.queue.shutDown, log := s.log ++ [.shutDown] }
  | returnStop (waiting : s.stop = .waiting) (exited : ∀ w, s.workers w = .exited) :
    Effect s .returnStop { s with stop := .returned, log := s.log ++ [.returnStop] }

variable {s t : State F size} {a : Action F size}

theorem effect_of_step (h : step s a = some t) : Effect s a t := by
  cases a with
  | add caller f =>
    simp only [step] at h
    split at h
    · cases h
      exact .add caller f
    · cases h
  | get w =>
    simp only [step] at h
    split at h
    · rename_i queue ready taken
      obtain ⟨queued, shut, rfl⟩ := Queue.get_eq_stop taken
      cases h
      exact .exit w ready queued shut
    · rename_i f queue ready taken
      cases h
      exact .start w f queue ready taken
    · cases h
  | finish w =>
    simp only [step] at h
    split at h
    · cases h
      exact .finish w _ ‹_›
    · cases h
  | done w =>
    simp only [step] at h
    split at h
    · cases h
      exact .done w _ ‹_›
    · cases h
  | shutDown =>
    simp only [step] at h
    split at h
    · cases h
      exact .shutDown ‹_›
    · cases h
  | returnStop =>
    simp only [step] at h
    split at h
    · rename_i last
      cases h
      exact .returnStop last.1 last.2
    · cases h

/-! ### Shutting down -/

structure ShutDown (s : State F size) : Prop where
  flag : s.queue.shuttingDown = true ↔ .shutDown ∈ s.log
  notCalled : s.stop = .notCalled ↔ s.queue.shuttingDown = false
  exited : ∀ w, s.workers w = .exited → s.queue.shuttingDown = true
  returned : s.stop = .returned → ∀ w, s.workers w = .exited

variable {w : Fin size} {p : Phase F} {workers : Fin size → Phase F}

omit [DecidableEq F] in
/-- Where a worker that is not gone takes a step, no worker that was gone comes back. -/
theorem exited_of_update {v : Fin size}
    (h : Function.update workers w p v = .exited) : p = .exited ∨ workers v = .exited := by
  rw [Function.update_apply] at h
  split at h
  · exact .inl h
  · exact .inr h

theorem ShutDown.step (inv : ShutDown s) (h : Effect s a t) : ShutDown t := by
  -- a worker that still moves keeps Stop from returning
  have moving : ∀ {w p}, s.workers w ≠ .exited → s.stop = .returned →
      ∀ v, Function.update s.workers w p v = .exited :=
    fun {w _} alive stopped => absurd (inv.returned stopped w) alive
  cases h with
  | add caller f =>
    exact ⟨by simpa using inv.flag, by simpa using inv.notCalled, by simpa using inv.exited,
      inv.returned⟩
  | exit w ready queued shut =>
    exact ⟨inv.flag, inv.notCalled, fun _ _ => shut, moving (by simp [ready])⟩
  | start w f queue ready taken =>
    obtain ⟨rest, -, rfl⟩ := Queue.get_eq_some taken
    refine ⟨by simpa using inv.flag, inv.notCalled, fun v gone => ?_, moving (by simp [ready])⟩
    exact (exited_of_update gone).elim nofun (inv.exited v)
  | finish w f running =>
    refine ⟨by simpa using inv.flag, inv.notCalled, fun v gone => ?_, moving (by simp [running])⟩
    exact (exited_of_update gone).elim nofun (inv.exited v)
  | done w f returned =>
    refine ⟨inv.flag, inv.notCalled, fun v gone => ?_, moving (by simp [returned])⟩
    exact (exited_of_update gone).elim nofun (inv.exited v)
  | shutDown notCalled => exact ⟨by simp [Queue.shutDown], by simp [Queue.shutDown], by simp
      [Queue.shutDown], nofun⟩
  | returnStop waiting exited =>
    exact ⟨by simpa using inv.flag, by simpa [waiting] using inv.notCalled, inv.exited,
      fun _ => exited⟩

/-! ### Which function a worker has -/

structure Held (s : State F size) : Prop where
  valid : s.queue.Valid
  held : ∀ f, f ∈ s.queue.processing ↔ ∃ w, (s.workers w).item = some f
  alone : ∀ w v f, (s.workers w).item = some f → (s.workers v).item = some f → w = v

omit [DecidableEq F] in
theorem item_update (same : (workers w).item = p.item) (v : Fin size) :
    (Function.update workers w p v).item = (workers v).item := by
  rw [Function.update_apply]
  split
  · rename_i here
    rw [here, same]
  · rfl

omit [DecidableEq F] in
theorem Held.of_items (inv : Held s) (queue : t.queue = s.queue)
    (items : ∀ w, (t.workers w).item = (s.workers w).item) : Held t where
  valid := queue ▸ inv.valid
  held := fun f => by simpa only [queue, items] using inv.held f
  alone := fun w v f hw hv => inv.alone w v f (items w ▸ hw) (items v ▸ hv)

variable {f : F}

theorem Held.start (inv : Held s) {queue : Queue F}
    (ready : s.workers w = .ready) (taken : s.queue.get = some (some f, queue)) :
    Held { s with queue := queue, workers := Function.update s.workers w (.running f),
                  log := s.log ++ [.start w f] } := by
  have fresh := (inv.valid.taken taken).2
  have others : ∀ v, (s.workers v).item ≠ some f := fun v hv => fresh ((inv.held f).mpr ⟨v, hv⟩)
  have idle : (s.workers w).item = none := by rw [ready]; rfl
  have valid := inv.valid.get taken
  obtain ⟨rest, -, rfl⟩ := Queue.get_eq_some taken
  have items : ∀ v g, (Function.update s.workers w (.running f) v).item = some g ↔
      (v = w ∧ g = f) ∨ (s.workers v).item = some g := by
    intro v g
    rw [Function.update_apply]
    split
    · rename_i here
      subst here
      rw [idle]
      simp [Phase.item, eq_comm]
    · rename_i elsewhere
      simp [elsewhere]
  refine ⟨valid, fun g => ?_, fun v v' g hv hv' => ?_⟩
  · simp only [Finset.mem_insert, items, inv.held g]
    constructor
    · rintro (rfl | ⟨v, hv⟩)
      · exact ⟨w, .inl ⟨rfl, rfl⟩⟩
      · exact ⟨v, .inr hv⟩
    · rintro ⟨v, ⟨-, rfl⟩ | hv⟩
      · exact .inl rfl
      · exact .inr ⟨v, hv⟩
  · rcases (items v g).mp hv with ⟨here, same⟩ | hv
    · rcases (items v' g).mp hv' with ⟨here', -⟩ | hv'
      · exact here.trans here'.symm
      · exact absurd (same ▸ hv') (others v')
    · rcases (items v' g).mp hv' with ⟨-, same⟩ | hv'
      · exact absurd (same ▸ hv) (others v)
      · exact inv.alone v v' g hv hv'

theorem Held.done (inv : Held s) (returned : s.workers w = .returned f) :
    Held { s with queue := s.queue.done f, workers := Function.update s.workers w .ready } := by
  have has : (s.workers w).item = some f := by rw [returned]; rfl
  have items : ∀ v g, (Function.update s.workers w .ready v).item = some g ↔
      v ≠ w ∧ (s.workers v).item = some g := by
    intro v g
    rw [Function.update_apply]
    split
    · rename_i here
      simp [here, Phase.item]
    · rename_i elsewhere
      simp [elsewhere]
  refine ⟨inv.valid.done ((inv.held f).mpr ⟨w, has⟩), fun g => ?_, fun v v' g hv hv' => ?_⟩
  · simp only [Queue.done, Finset.mem_erase, items, inv.held g]
    constructor
    · rintro ⟨other, v, hv⟩
      refine ⟨v, ?_, hv⟩
      rintro rfl
      exact other (Option.some.inj (hv.symm.trans has))
    · rintro ⟨v, elsewhere, hv⟩
      refine ⟨?_, v, hv⟩
      rintro rfl
      exact elsewhere (inv.alone v w g hv has)
  · exact inv.alone v v' g ((items v g).mp hv).2 ((items v' g).mp hv').2

theorem Held.step (inv : Held s) (h : Effect s a t) : Held t := by
  cases h with
  | add caller f => exact ⟨inv.valid.add, by simpa using inv.held, inv.alone⟩
  | exit w ready queued shut => exact inv.of_items rfl (item_update (by rw [ready]; rfl))
  | start w f queue ready taken => exact inv.start ready taken
  | finish w f running => exact inv.of_items rfl (item_update (by rw [running]; rfl))
  | done w f returned => exact inv.done returned
  | shutDown notCalled => exact ⟨inv.valid.shutDown, inv.held, inv.alone⟩
  | returnStop waiting exited => exact inv.of_items rfl fun _ => rfl

/-! ### Additions against executions -/

/-- The functions added before the queue is shut down, in their order. -/
def accepted : List (Event F size) → List F
  | [] => []
  | .add _ f :: rest => f :: accepted rest
  | .shutDown :: _ => []
  | .start _ _ :: rest | .finish _ _ :: rest | .returnStop :: rest => accepted rest

def Event.started : Event F size → Option F
  | .start _ f => some f
  | .add _ _ | .finish _ _ | .shutDown | .returnStop => none

/-- The functions that workers have begun to run, in their order. -/
def startedIn (log : List (Event F size)) : List F := log.filterMap Event.started

variable (log : List (Event F size))

omit [DecidableEq F] in
@[simp] theorem startedIn_concat (e : Event F size) :
    startedIn (log ++ [e]) = startedIn log ++ e.started.toList := filterMap_concat _ log e

theorem accepted_concat (e : Event F size) :
    accepted (log ++ [e]) = accepted log ++ if .shutDown ∈ log then [] else accepted [e] := by
  induction log with
  | nil => rfl
  | cons first rest ih => cases first <;> simp [accepted, ih]

/-- Only additions are accepted. -/
theorem accepted_concat_other {e : Event F size} (other : accepted [e] = []) :
    accepted (log ++ [e]) = accepted log := by
  rw [accepted_concat, other, ite_self, List.append_nil]

structure Counted (s : State F size) : Prop where
  count_le : ∀ f, (startedIn s.log).count f ≤ (accepted s.log).count f
  count_lt : ∀ f ∈ s.queue.dirty, (startedIn s.log).count f < (accepted s.log).count f
  begun : ∀ f ∈ s.queue.processing, f ∈ startedIn s.log

/-- Nothing has been added or begun, and no worker has taken a function. -/
theorem Counted.of_same (inv : Counted s) (dirty : t.queue.dirty = s.queue.dirty)
    (processing : ∀ f ∈ t.queue.processing, f ∈ s.queue.processing)
    (begun : startedIn t.log = startedIn s.log) (same : accepted t.log = accepted s.log) :
    Counted t := by
  constructor
  · simpa only [begun, same] using inv.count_le
  · simpa only [begun, same, dirty] using inv.count_lt
  · intro f hf
    exact begun ▸ inv.begun f (processing f hf)

theorem Counted.add (shut : ShutDown s) (inv : Counted s) (caller : Caller size) (f : F) :
    Counted { s with queue := s.queue.add f, log := s.log ++ [.add caller f] } := by
  have begun : startedIn (s.log ++ [.add caller f]) = startedIn s.log := by
    simp [Event.started]
  by_cases closed : s.queue.shuttingDown = true
  · refine inv.of_same ?_ (by simp) begun ?_
    · simp only [Queue.add_shuttingDown closed]
    · simp [accepted_concat, shut.flag.mp closed]
  · have more : accepted (s.log ++ [.add caller f]) = accepted s.log ++ [f] := by
      simp [accepted_concat, mt shut.flag.mpr closed, accepted]
    constructor
    · intro g
      have := inv.count_le g
      simp only [begun, more, List.count_append]
      omega
    · intro g hg
      simp only [begun, more, List.count_append]
      rcases (Queue.mem_dirty_add (Bool.eq_false_iff.mpr closed)).mp hg with rfl | hg
      · have := inv.count_le g
        rw [List.count_singleton_self]
        omega
      · have := inv.count_lt g hg
        omega
    · simpa only [begun, Queue.add_processing] using inv.begun

theorem Counted.start (held : Held s) (inv : Counted s) {queue : Queue F}
    (taken : s.queue.get = some (some f, queue)) :
    Counted { s with queue := queue, workers := Function.update s.workers w (.running f),
                     log := s.log ++ [.start w f] } := by
  have dirty := (held.valid.taken taken).1
  obtain ⟨rest, queued, rfl⟩ := Queue.get_eq_some taken
  have more : startedIn (s.log ++ [.start w f]) = startedIn s.log ++ [f] := by
    simp [Event.started]
  have same := accepted_concat_other s.log (e := .start w f) rfl
  have others : ∀ g, g ≠ f → [f].count g = 0 := fun g other =>
    List.count_eq_zero_of_not_mem (by simpa using other)
  constructor
  · intro g
    simp only [more, same, List.count_append]
    by_cases here : g = f
    · have := inv.count_lt f dirty
      rw [here, List.count_singleton_self]
      omega
    · have := inv.count_le g
      rw [others g here]
      omega
  · intro g hg
    obtain ⟨other, hg⟩ := Finset.mem_erase.mp hg
    have := inv.count_lt g hg
    simp only [more, same, List.count_append, others g other]
    omega
  · intro g hg
    simp only [more, List.mem_append, List.mem_singleton]
    exact (Finset.mem_insert.mp hg).elim .inr fun hg => .inl (inv.begun g hg)

theorem Counted.step (shut : ShutDown s) (held : Held s) (inv : Counted s) (h : Effect s a t) :
    Counted t := by
  cases h with
  | add caller f => exact inv.add shut caller f
  | exit w ready queued closed => exact inv.of_same rfl (fun _ h => h) rfl rfl
  | start w f queue ready taken => exact inv.start held taken
  | done w f returned =>
    exact inv.of_same rfl (fun _ h => Finset.mem_of_mem_erase h) rfl rfl
  | finish | shutDown | returnStop =>
    exact inv.of_same rfl (fun _ h => h) (by simp [Event.started]) (accepted_concat_other _ rfl)

/-! ### Every addition is followed by an execution -/

/-- An addition before the shutdown is due an execution of its function. -/
def Event.adds (f : F) (before : List (Event F size)) (e : Event F size) : Prop :=
  .shutDown ∉ before ∧ ∃ caller, e = .add caller f

def Event.starts (f : F) (e : Event F size) : Prop := ∃ w, e = .start w f

omit [DecidableEq F] in
theorem not_adds {before : List (Event F size)} {e : Event F size}
    (other : ∀ caller, e ≠ .add caller f) : ¬ e.adds f before := by
  rintro ⟨-, caller, same⟩
  exact other caller same

/-- Each function is still to be run or has been run since it was last added. -/
def Served (s : State F size) : Prop :=
  ∀ f, f ∈ s.queue.dirty ∨ Answered (Event.adds f) (Event.starts f) s.log

theorem Served.step (shut : ShutDown s) (inv : Served s) (h : Effect s a t) : Served t := by
  intro g
  have quiet : ∀ {e : Event F size}, (∀ caller, e ≠ .add caller g) →
      g ∈ s.queue.dirty ∨ Answered (Event.adds g) (Event.starts g) (s.log ++ [e]) :=
    fun other => (inv g).imp_right fun answered => answered.concat (not_adds other)
  cases h with
  | add caller f =>
    by_cases closed : s.queue.shuttingDown = true
    · rw [Queue.add_shuttingDown closed]
      -- the queue ignores the addition, which therefore is not due an execution
      refine (inv g).imp_right fun answered => answered.concat ?_
      rintro ⟨early, -⟩
      exact early (shut.flag.mp closed)
    · rw [Queue.mem_dirty_add (Bool.eq_false_iff.mpr closed)]
      by_cases same : g = f
      · exact .inl (.inl same)
      · refine (quiet fun _ added => same ?_).imp_left .inr
        cases added
        rfl
  | exit w ready queued closed => exact inv g
  | start w f queue ready taken =>
    obtain ⟨rest, queued, rfl⟩ := Queue.get_eq_some taken
    by_cases same : g = f
    · exact .inr (answered_concat.mpr ⟨not_adds nofun, .inl ⟨w, same ▸ rfl⟩⟩)
    · exact (quiet (e := .start w f) nofun).imp_left fun dirty =>
        Finset.mem_erase.mpr ⟨same, dirty⟩
  | done w f returned => exact inv g
  | finish | shutDown | returnStop => exact quiet nofun

/-- Whatever a worker has begun it is still running or has finished. -/
def Ended (s : State F size) : Prop :=
  ∀ w f, s.workers w = .running f ∨
    Answered (fun _ e => e = .start w f) (· = .finish w f) s.log

omit [DecidableEq F] in
theorem running_update {v : Fin size}
    (running : workers v = .running f) (other : v = w → workers w ≠ .running f) :
    Function.update workers w p v = .running f := by
  have elsewhere : v ≠ w := by
    rintro rfl
    exact other rfl running
  rw [Function.update_of_ne elsewhere, running]

theorem Ended.step (inv : Ended s) (h : Effect s a t) : Ended t := by
  intro v g
  have quiet : ∀ {e : Event F size}, e ≠ .start v g → s.workers v = .running g ∨
      Answered (fun _ e => e = .start v g) (· = .finish v g) (s.log ++ [e]) :=
    fun other => (inv v g).imp_right fun answered => answered.concat other
  cases h with
  | add caller f => exact quiet nofun
  | exit w ready queued closed =>
    exact (inv v g).imp_left fun running => running_update running (by simp [ready])
  | start w f queue ready taken =>
    by_cases same : v = w ∧ g = f
    · obtain ⟨rfl, rfl⟩ := same
      exact .inl (Function.update_self v _ s.workers)
    · refine (quiet fun begun => same ?_).imp_left fun running =>
        running_update running (by simp [ready])
      cases begun
      exact ⟨rfl, rfl⟩
  | finish w f running =>
    by_cases same : v = w ∧ g = f
    · obtain ⟨rfl, rfl⟩ := same
      exact .inr (answered_concat.mpr ⟨nofun, .inl rfl⟩)
    · rcases inv v g with still | answered
      · refine .inl (running_update still fun here there => same ⟨here, ?_⟩)
        exact Phase.running.inj (there.symm.trans running)
      · exact .inr (answered.concat nofun)
  | done w f returned =>
    exact (inv v g).imp_left fun running => running_update running (by simp [returned])
  | shutDown | returnStop => exact quiet nofun

/-! ### Nothing is left behind -/

/-- The last worker leaves an empty queue. -/
def Empty (s : State F size) : Prop := (∀ w, s.workers w = .exited) → s.queue.queue = []

theorem Empty.step (positive : 0 < size) (shut : ShutDown s) (inv : Empty s)
    (h : Effect s a t) : Empty t := by
  have alive : ∀ {w : Fin size} {p : Phase F}, p ≠ .exited →
      ¬ ∀ v, Function.update s.workers w p v = .exited :=
    fun {w p} stays all => stays (by simpa using all w)
  cases h with
  | add caller f =>
    intro all
    have closed := shut.exited ⟨0, positive⟩ (all _)
    simpa only [Queue.add_shuttingDown closed] using inv all
  | exit w ready queued closed => exact fun _ => queued
  | start | finish | done => exact fun all => absurd all (alive nofun)
  | shutDown | returnStop => exact inv

/-- Functions that are added once are begun in the order of their additions. -/
def Ordered (s : State F size) : Prop :=
  ∀ p : F → Bool, (∀ f, p f = true → (accepted s.log).count f ≤ 1) →
    (startedIn s.log ++ s.queue.queue).filter p = (accepted s.log).filter p

theorem Ordered.add (shut : ShutDown s) (counted : Counted s) (inv : Ordered s)
    (caller : Caller size) (f : F) :
    Ordered { s with queue := s.queue.add f, log := s.log ++ [.add caller f] } := by
  intro p single
  have begun : startedIn (s.log ++ [.add caller f]) = startedIn s.log := by
    simp [Event.started]
  simp only [begun] at single ⊢
  by_cases closed : s.queue.shuttingDown = true
  · have same : accepted (s.log ++ [.add caller f]) = accepted s.log := by
      simp [accepted_concat, shut.flag.mp closed]
    simp only [same, Queue.add_shuttingDown closed] at single ⊢
    exact inv p single
  · have more : accepted (s.log ++ [.add caller f]) = accepted s.log ++ [f] := by
      simp [accepted_concat, mt shut.flag.mpr closed, accepted]
    simp only [more, List.count_append] at single ⊢
    have before := inv p fun g hg => Nat.le_trans (Nat.le_add_right _ _) (single g hg)
    rw [Queue.queue_add (Bool.eq_false_iff.mpr closed), List.filter_append (accepted s.log),
      ← before]
    split
    · rename_i known
      have skipped : p f = false := by
        by_contra kept
        have twice := single f (by simpa using kept)
        rw [List.count_singleton_self] at twice
        have := counted.count_le f
        rcases known with dirty | processing
        · have := counted.count_lt f dirty
          omega
        · have := List.count_pos_iff.mpr (counted.begun f processing)
          omega
      simp [skipped]
    · rw [← List.append_assoc, List.filter_append]

theorem Ordered.done (held : Held s) (counted : Counted s) (inv : Ordered s)
    (returned : s.workers w = .returned f) :
    Ordered { s with queue := s.queue.done f, workers := Function.update s.workers w .ready } := by
  intro p single
  have before := inv p single
  simp only [Queue.done]
  split
  · rename_i dirty
    have has := (held.held f).mpr ⟨w, by rw [returned]; rfl⟩
    have skipped : p f = false := by
      by_contra kept
      have once := single f (by simpa using kept)
      have := counted.count_lt f dirty
      have := List.count_pos_iff.mpr (counted.begun f has)
      simp only at once
      omega
    simpa [skipped] using before
  · exact before

theorem Ordered.step (shut : ShutDown s) (held : Held s) (counted : Counted s) (inv : Ordered s)
    (h : Effect s a t) : Ordered t := by
  have quiet : ∀ {t : State F size} {e : Event F size}, t.log = s.log ++ [e] →
      t.queue.queue = s.queue.queue → e.started = none → accepted [e] = [] → Ordered t := by
    intro t e log queue notStarted notAdded p single
    have begun : startedIn (s.log ++ [e]) = startedIn s.log := by simp [notStarted]
    rw [log, accepted_concat_other _ notAdded] at single ⊢
    rw [begun, queue]
    exact inv p single
  cases h with
  | add caller f => exact inv.add shut counted caller f
  | exit w ready queued closed => exact inv
  | start w f queue ready taken =>
    intro p single
    have same := accepted_concat_other s.log (e := .start w f) rfl
    simp only [same] at single ⊢
    obtain ⟨rest, queued, rfl⟩ := Queue.get_eq_some taken
    rw [← inv p single, queued]
    simp [Event.started]
  | done w f returned => exact inv.done held counted returned
  | finish | shutDown | returnStop => exact quiet rfl rfl rfl rfl

/-! ### One worker -/

def Event.finished : Event F size → Option F
  | .finish _ f => some f
  | .add _ _ | .start _ _ | .shutDown | .returnStop => none

/-- The functions that workers have run to their end, in their order. -/
def finishedIn (log : List (Event F size)) : List F := log.filterMap Event.finished

omit [DecidableEq F] in
@[simp] theorem finishedIn_concat (e : Event F size) :
    finishedIn (log ++ [e]) = finishedIn log ++ e.finished.toList := filterMap_concat _ log e

def Phase.current : Phase F → List F
  | .running f => [f]
  | .ready | .returned _ | .exited => []

/-- A single worker runs one function at a time. -/
def Sequential (s : State F size) : Prop :=
  ∀ w, startedIn s.log = finishedIn s.log ++ (s.workers w).current

theorem Sequential.step (single : ∀ v w : Fin size, v = w) (inv : Sequential s)
    (h : Effect s a t) : Sequential t := by
  intro v
  have before := inv v
  cases h with
  | add | shutDown | returnStop => simpa [Event.started, Event.finished] using before
  | exit w here | done w f here =>
    obtain rfl := single v w
    simpa [here, Phase.current] using before
  | start w f queue here | finish w f here =>
    obtain rfl := single v w
    simp only [here] at before
    simp [before, Event.started, Event.finished, Phase.current]

/-! ### Whole runs -/

structure Inv (s : State F size) : Prop where
  shut : ShutDown s
  held : Held s
  counted : Counted s
  served : Served s
  ended : Ended s
  ordered : Ordered s

theorem Inv.step (inv : Inv s) (h : step s a = some t) : Inv t where
  shut := inv.shut.step (effect_of_step h)
  held := inv.held.step (effect_of_step h)
  counted := inv.counted.step inv.shut inv.held (effect_of_step h)
  served := inv.served.step inv.shut (effect_of_step h)
  ended := inv.ended.step (effect_of_step h)
  ordered := inv.ordered.step inv.shut inv.held inv.counted (effect_of_step h)

theorem inv_newWorkerQueue : Inv (newWorkerQueue F size) where
  shut := {
    flag := by simp [newWorkerQueue, Queue.empty]
    notCalled := by simp [newWorkerQueue, Queue.empty]
    exited := nofun
    returned := nofun }
  held := {
    valid := Queue.valid_empty
    held := by simp [newWorkerQueue, Queue.empty, Phase.item]
    alone := nofun }
  counted := {
    count_le := by simp [newWorkerQueue, startedIn]
    count_lt := by simp [newWorkerQueue, Queue.empty]
    begun := by simp [newWorkerQueue, Queue.empty] }
  served := fun _ => .inr answered_nil
  ended := fun _ _ => .inr answered_nil
  ordered := fun _ _ => rfl

variable {actions : List (Action F size)}

theorem inv_of_exec (h : exec step (newWorkerQueue F size) actions = some s) : Inv s :=
  exec_keeps (fun _ _ _ _ inv h => inv.step h) inv_newWorkerQueue h

theorem empty_of_exec (positive : 0 < size)
    (h : exec step (newWorkerQueue F size) actions = some s) : Empty s := by
  have both : Inv s ∧ Empty s := by
    refine exec_keeps (p := fun s => Inv s ∧ Empty s) ?_ ⟨inv_newWorkerQueue, fun _ => rfl⟩ h
    rintro s a t - ⟨inv, empty⟩ h
    exact ⟨inv.step h, empty.step positive inv.shut (effect_of_step h)⟩
  exact both.2

theorem sequential_of_exec (single : ∀ v w : Fin size, v = w)
    (h : exec step (newWorkerQueue F size) actions = some s) : Sequential s := by
  refine exec_keeps (fun _ _ _ _ inv h => inv.step single (effect_of_step h)) ?_ h
  exact fun _ => rfl

/-- What Stop leaves behind. Each addition before Stop is followed by a whole
execution of its function; a function is executed at most as often as it is added;
functions that are added once are begun in the order of their additions, and one
worker finishes each before it begins the next. -/
structure Drained (s : State F size) : Prop where
  executed : ∀ before caller f after, s.log = before ++ .add caller f :: after →
    .shutDown ∉ before → ∃ waited w rest,
      after = waited ++ .start w f :: rest ∧ .finish w f ∈ rest
  atMost : ∀ f, (startedIn s.log).count f ≤ (accepted s.log).count f
  once : ∀ f, (accepted s.log).count f = 1 → (startedIn s.log).count f = 1
  inOrder : ∀ p : F → Bool, (∀ f, p f = true → (accepted s.log).count f ≤ 1) →
    (startedIn s.log).filter p = (accepted s.log).filter p
  inTurn : size = 1 → finishedIn s.log = startedIn s.log

omit [DecidableEq F] in
theorem exists_of_mem_accepted {log : List (Event F size)} (h : f ∈ accepted log) :
    ∃ before caller after, log = before ++ .add caller f :: after ∧ .shutDown ∉ before := by
  induction log with
  | nil => exact absurd h List.not_mem_nil
  | cons first rest ih =>
    have later : first ≠ .shutDown → f ∈ accepted rest →
        ∃ before caller after, first :: rest = before ++ .add caller f :: after ∧
          .shutDown ∉ before := by
      intro other later
      obtain ⟨before, caller, after, rfl, early⟩ := ih later
      exact ⟨first :: before, caller, after, rfl, by simp [early, other.symm]⟩
    cases first with
    | add caller g =>
      rcases List.mem_cons.mp h with rfl | h
      · exact ⟨[], caller, rest, rfl, List.not_mem_nil⟩
      · exact later nofun h
    | shutDown => exact absurd h List.not_mem_nil
    | start | finish | returnStop => exact later nofun h

theorem drained (positive : 0 < size) (inv : Inv s) (empty : Empty s)
    (returned : s.stop = .returned) (inTurn : size = 1 → Sequential s) : Drained s := by
  have exited := inv.shut.returned returned
  have queued : s.queue.queue = [] := empty exited
  have processing : s.queue.processing = ∅ := by
    refine Finset.eq_empty_of_forall_notMem fun f hf => ?_
    obtain ⟨w, has⟩ := (inv.held.held f).mp hf
    rw [exited w] at has
    cases has
  have served : ∀ f, Answered (Event.adds f) (Event.starts f) s.log := fun f =>
    (inv.served f).resolve_left (by
      simp [inv.held.valid.dirty_eq_empty queued processing])
  have ended : ∀ w f, Answered (fun _ e => e = .start w f) (· = .finish w f) s.log := fun w f =>
    (inv.ended w f).resolve_left (by simp [exited w])
  refine ⟨fun before caller f after log early => ?_, inv.counted.count_le, fun f single => ?_,
    fun p single => ?_, fun one => ?_⟩
  · obtain ⟨-, begun, w, rfl⟩ := served f before _ after log ⟨early, caller, rfl⟩
    obtain ⟨waited, rest, rfl⟩ := List.append_of_mem begun
    obtain ⟨-, finished, rfl⟩ := ended w f (before ++ .add caller f :: waited) _ rest
      (by rw [log]; simp) rfl
    exact ⟨waited, w, rest, rfl, finished⟩
  · have added : f ∈ accepted s.log := List.count_pos_iff.mp (by omega)
    obtain ⟨before, caller, after, log, early⟩ := exists_of_mem_accepted added
    obtain ⟨-, begun, w, rfl⟩ := served f before _ after log ⟨early, caller, rfl⟩
    have some : f ∈ startedIn s.log := by
      refine List.mem_filterMap.mpr ⟨.start w f, ?_, rfl⟩
      rw [log]
      exact List.mem_append_right _ (List.mem_cons_of_mem _ begun)
    have := List.count_pos_iff.mpr some
    have := inv.counted.count_le f
    omega
  · simpa only [queued, List.append_nil] using inv.ordered p single
  · simpa [exited, Phase.current] using (inTurn one ⟨0, positive⟩).symm

/-! ### Stop returns -/

/-- What the workers and Stop do, as opposed to their callers. -/
def Action.isInternal : Action F size → Bool
  | .get _ | .finish _ | .done _ | .returnStop => true
  | .add _ _ | .shutDown => false

def Phase.rank : Phase F → Nat
  | .exited => 0
  | .ready => 1
  | .returned _ => 2
  | .running _ => 3

def StopCall.rank : StopCall → Nat
  | .notCalled | .waiting => 1
  | .returned => 0

/-- Steps left: three for each function that is to be run, and those that the
workers and Stop have before them. -/
def rank (s : State F size) : Nat :=
  3 * s.queue.dirty.card + ∑ w, (s.workers w).rank + s.stop.rank

theorem rank_lt (held : Held s) (internal : a.isInternal = true) (h : Effect s a t) :
    rank t < rank s := by
  cases h with
  | add | shutDown => cases internal
  | exit w ready queued closed =>
    have moved := sum_update_lt Phase.rank s.workers w .exited
      (by rw [ready]; exact Nat.zero_lt_one)
    simp only [rank]
    omega
  | start w f queue ready taken =>
    have moved := sum_update (fun _ => Phase.rank) s.workers w (.running f)
    rw [ready] at moved
    change _ + 1 = _ + 3 at moved
    have smaller := Finset.card_erase_lt_of_mem (held.valid.taken taken).1
    obtain ⟨rest, -, rfl⟩ := Queue.get_eq_some taken
    simp only [rank]
    omega
  | finish w f running =>
    have moved := sum_update_lt Phase.rank s.workers w (.returned f)
      (by rw [running]; exact Nat.lt_succ_self 2)
    simp only [rank]
    omega
  | done w f returned =>
    have moved := sum_update_lt Phase.rank s.workers w .ready
      (by rw [returned]; exact Nat.lt_succ_self 1)
    simp only [rank, Queue.done]
    omega
  | returnStop waiting exited => simp [rank, waiting, StopCall.rank]

/-- Where neither a worker nor Stop can go on, Stop has returned. -/
theorem returned_of_stuck (shut : ShutDown s) (called : s.stop ≠ .notCalled)
    (stuck : ∀ a : Action F size, a.isInternal = true → step s a = none) :
    s.stop = .returned := by
  cases stop : s.stop with
  | notCalled => exact absurd stop called
  | returned => rfl
  | waiting =>
    have closed := Bool.eq_true_of_not_eq_false fun opened => called (shut.notCalled.mpr opened)
    have exited : ∀ w, s.workers w = .exited := by
      intro w
      cases phase : s.workers w with
      | exited => rfl
      | ready =>
        obtain ⟨⟨item, queue⟩, taken⟩ := Queue.get_isSome closed
        have waits := stuck (.get w) rfl
        cases item <;> simp [step, phase, taken] at waits
      | running f => simpa [step, phase] using stuck (.finish w) rfl
      | returned f => simpa [step, phase] using stuck (.done w) rfl
    simpa [step, stop, exited] using stuck .returnStop rfl

theorem terminates (inv : Inv s) (called : s.stop ≠ .notCalled) :
    Terminates step (fun a : Action F size => a.isInternal = true) (·.stop = .returned) s := by
  refine terminates_of_decreasing (q := fun s => Inv s ∧ s.stop ≠ .notCalled) rank ?_ ?_ ?_
    ⟨inv, called⟩
  · rintro s a t - ⟨inv, called⟩ h
    refine ⟨inv.step h, ?_⟩
    cases effect_of_step h <;> first | exact called | exact nofun
  · rintro s a t internal ⟨inv, -⟩ h
    exact rank_lt inv.held internal (effect_of_step h)
  · rintro s ⟨inv, called⟩ stuck
    exact returned_of_stuck inv.shut called stuck

/-- Whatever the callers add and in whatever order the workers get on: once Stop
has returned the queue is drained, once Stop is called it returns as soon as the
functions do, and a single worker never has begun a function before it has run the
ones before to their end. -/
theorem stop_drains (positive : 0 < size)
    (h : exec step (newWorkerQueue F size) actions = some s) :
    (s.stop = .returned → Drained s) ∧ (s.stop ≠ .notCalled →
      Terminates step (fun a : Action F size => a.isInternal = true) (·.stop = .returned) s) ∧
    (size = 1 → Sequential s) := by
  have inv := inv_of_exec h
  have inTurn : size = 1 → Sequential s := by
    rintro rfl
    exact sequential_of_exec (fun v w => Subsingleton.elim v w) h
  exact ⟨fun returned => drained positive inv (empty_of_exec positive h) returned inTurn,
    terminates inv, inTurn⟩

/-- Three workers; one of the functions adds another while it runs. -/
def nestedRun : List (Action Nat 3) :=
  [.add .other 0, .get 0, .add (.worker 0) 1, .add .other 2, .get 1, .finish 1, .done 1,
    .finish 0, .get 1, .shutDown, .finish 1, .done 1, .get 1, .done 0, .get 0, .get 2,
    .returnStop]

theorem stop_drains_nestedRun : ∃ s, exec step (newWorkerQueue Nat 3) nestedRun = some s ∧
    s.stop = .returned ∧ accepted s.log = [0, 1, 2] ∧ Drained s := by
  have ran : (exec step (newWorkerQueue Nat 3) nestedRun).isSome = true := by decide
  obtain ⟨s, h⟩ := Option.isSome_iff_exists.mp ran
  have result : (exec step (newWorkerQueue Nat 3) nestedRun).map
      (fun s => (s.stop, accepted s.log)) = some (.returned, [0, 1, 2]) := by decide
  rw [h] at result
  obtain ⟨stop, log⟩ := Prod.mk.inj (Option.some.inj result)
  exact ⟨s, h, stop, log, (stop_drains (by decide) h).1 stop⟩

/-- A function is added again while it runs, and another one after it. -/
def repeatedRun : List (Action Nat 1) :=
  [.add .other 0, .get 0, .add .other 0, .add .other 1, .finish 0, .done 0, .get 0, .finish 0,
    .done 0, .get 0, .finish 0, .done 0, .shutDown, .get 0, .returnStop]

/-- A function that is added twice may run twice, and not in its turn. -/
theorem repeated_function_runs_twice :
    (exec step (newWorkerQueue Nat 1) repeatedRun).map
      (fun s => (s.stop, accepted s.log, startedIn s.log)) =
    some (.returned, [0, 0, 1], [0, 1, 0]) := by
  decide

end WorkerQueue
