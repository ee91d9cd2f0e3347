import ClusterLoader.EnabledRuns

/-!
# The lifecycle of PodPeriodicCommand

A start launches a worker that runs commands in pods at each tick; gather and
Dispose close the stop channel and wait until the worker has closed its own. The
calls come one after the other, the worker runs next to them.

What the parameter getters make of the configuration, whether the informer syncs
and what the commands yield is given with the call or the tick. A command ends
or runs into its timeout and the channels of a tick hold as many results as are
sent, so a tick always ends. `Live` says that a call can return from wherever
the worker has gone meanwhile; that enabled steps are taken is not claimed.
-/

namespace PodPeriodicCommand

open EnabledRuns

structure Pod where
  name : String
  ns : String
  running : Bool
  containers : List String
  ready : Bool

structure CommandResult where
  name : String
  stdout : String
  stderr : String
  exitCode : Int
  timeout : String
  hitTimeout : Bool
  startTime : String
  execError : String

structure PodResult where
  pod : String
  ns : String
  container : String
  commands : List CommandResult

structure Params where
  interval : Int
  container : String
  limit : Int
  failOnCommandError : Bool
  failOnExecError : Bool
  failOnTimeout : Bool

structure Stats where
  execs : Nat := 0
  execErrors : Nat := 0
  timeouts : Nat := 0
  nonZeroRCs : Nat := 0
  measurements : Nat := 0
  ticks : Nat := 0
  ticksNoPods : Nat := 0

inductive Chan where
  | opened
  | closed
  deriving DecidableEq

/-- A pointer or channel that no start has set is `none`. -/
structure Measurement where
  params : Option Params
  isRunning : Bool
  skipGather : Bool
  stopCh : Option Chan
  doneCh : Option Chan
  results : List PodResult
  stats : Option Stats

inductive Content where
  | results (results : List PodResult)
  | stats (stats : Stats)
  | text (text : String)

structure Summary where
  name : String
  ext : String
  content : Content

def measurementName : String := "PodPeriodicCommand"

/-! ## One tick -/

def isApplicablePod (p : Params) (pod : Pod) : Bool :=
  pod.running && pod.containers.contains p.container && pod.ready

/-- The first pods that apply, cut off once there are as many as the limit. -/
def getMaxNPods (p : Params) (store : List Pod) : List Pod :=
  (store.filter (isApplicablePod p)).take (max p.limit 1).toNat

def Stats.command (st : Stats) (c : CommandResult) : Stats :=
  { st with
    execs := st.execs + 1
    execErrors := st.execErrors + (c.execError ≠ "" : Bool).toNat
    timeouts := st.timeouts + c.hitTimeout.toNat
    nonZeroRCs := st.nonZeroRCs + (c.exitCode ≠ 0 : Bool).toNat }

/-- The tick's work on the results and the statistics; `run` is what the
commands yield in a pod. -/
def doTick (p : Params) (store : List Pod) (run : Pod → List CommandResult)
    (results : List PodResult) (st : Stats) : List PodResult × Stats :=
  let st := { st with ticks := st.ticks + 1 }
  match getMaxNPods p store with
  | [] => (results, { st with ticksNoPods := st.ticksNoPods + 1 })
  | pods =>
    let found := pods.map fun pod => ⟨pod.name, pod.ns, p.container, run pod⟩
    (results ++ found, (found.flatMap PodResult.commands).foldl Stats.command st)

/-! ## What gather reports -/

def summaryName (r : PodResult) (c : CommandResult) (suffix : String) : String :=
  String.intercalate "-" [measurementName, c.startTime, r.ns, r.pod, c.name, suffix]

def outputs (r : PodResult) (c : CommandResult) : List Summary :=
  (if c.stdout ≠ "" then [⟨summaryName r c "stdout", "txt", .text c.stdout⟩] else []) ++
    (if c.stderr ≠ "" then [⟨summaryName r c "stderr", "txt", .text c.stderr⟩] else [])

def place (r : PodResult) (c : CommandResult) : String :=
  "command " ++ c.name ++ " in pod " ++ r.ns ++ "/" ++ r.pod

def commandError (p : Params) (r : PodResult) (c : CommandResult) : Option String :=
  if p.failOnCommandError && c.exitCode ≠ 0 then
    some ("unexpected non-zero RC while executing " ++ place r c ++ ": got RC " ++
      toString c.exitCode)
  else if p.failOnExecError && c.execError ≠ "" then
    some ("unexpected error while executing " ++ place r c ++ ": " ++ c.execError)
  else if p.failOnTimeout && c.hitTimeout then
    some ("hit timeout of " ++ c.timeout ++ " while executing " ++ place r c)
  else none

/-- The part of gather after `stop`. A nil pointer is only followed where the
code comes to it: the parameters at the first command, the statistics always. -/
def Measurement.summarize (m : Measurement) :
    Except String (Measurement × List Summary × Option String) :=
  let commands := m.results.flatMap fun r => r.commands.map fun c => (r, c)
  let summaries := ⟨measurementName, "json", .results m.results⟩ ::
    commands.flatMap fun rc => outputs rc.1 rc.2
  let failure : Except String (Option String) :=
    match m.params with
    | some p => .ok (commands.findSome? fun rc => commandError p rc.1 rc.2)
    | none => if commands.isEmpty then .ok none else .error "nil pointer: params"
  match failure with
  | .error text => .error text
  | .ok err =>
    match m.stats with
    | none => .error "nil pointer: stats"
    | some st =>
      let st := { st with measurements := summaries.length + 1 }
      .ok ({ m with stats := some st },
        summaries ++ [⟨measurementName ++ "-stats", "json", .stats st⟩], err)

/-! ## Calls and the worker -/

inductive Worker where
  | absent
  | spawned
  | ticking
  | selecting
  | gone
  deriving DecidableEq

/-- The calls that stop the worker. -/
inductive Stopper where
  | gather
  | dispose
  deriving DecidableEq

inductive Controller where
  | idle
  | receiving (call : Stopper)
  deriving DecidableEq

/-- How the last call has ended. -/
inductive Outcome where
  | started (err : Option String)
  | gathered (summaries : List Summary) (err : Option String)
  | disposed

structure System where
  measurement : Measurement
  /-- The worker of the last start that was carried out. -/
  worker : Worker
  controller : Controller
  returned : Option Outcome
  panicked : Option String

def created : System where
  measurement :=
    { params := none, isRunning := false, skipGather := false, stopCh := none, doneCh := none,
      results := [], stats := none }
  worker := .absent
  controller := .idle
  returned := none
  panicked := none

def System.panic (s : System) (text : String) : System := { s with panicked := some text }

def start (p : Params) (synced : Bool) (s : System) : System :=
  if s.measurement.isRunning then
    { s with returned := some (.started (some (measurementName ++
      ": measurement already running"))) }
  else
    { s with
      measurement :=
        { params := some p, isRunning := true, skipGather := false, stopCh := some .opened,
          doneCh := some .opened, results := [], stats := some {} }
      worker := if synced then .spawned else .absent
      returned := some (.started (if synced then none
        else some "timed out waiting for caches to sync")) }

/-- What a call does once the worker has stopped, or was not running. -/
def finish (s : System) : Stopper → System
  | .gather =>
    match s.measurement.summarize with
    | .error text => s.panic text
    | .ok (m, summaries, err) =>
      { s with
        measurement := m
        controller := .idle
        returned := some (.gathered summaries err) }
  | .dispose => { s with controller := .idle, returned := some .disposed }

/-- `stop` up to the receive on the done channel. -/
def stop (call : Stopper) (s : System) : System :=
  if s.measurement.isRunning then
    let m := { s.measurement with isRunning := false }
    match m.stopCh with
    | some .opened =>
      { s with measurement := { m with stopCh := some .closed }, controller := .receiving call }
    | some .closed => { s with measurement := m, panicked := some "close of closed channel" }
    | none => { s with measurement := m, panicked := some "close of nil channel" }
  else finish s call

inductive Call where
  | start (params : Except String Params) (synced : Bool)
  | gather
  | dispose

def execute (s : System) : Call → System
  | .start (.error text) _ =>
    { s with
      measurement := { s.measurement with skipGather := true }
      returned := some (.started (some text)) }
  | .start (.ok p) synced => start p synced s
  | .gather =>
    if s.measurement.skipGather then { s with returned := some (.gathered [] none) }
    else stop .gather s
  | .dispose => stop .dispose s

def newTicker (s : System) : System :=
  match s.measurement.params with
  | none => s.panic "nil pointer: params"
  | some p =>
    if p.interval ≤ 0 then s.panic "non-positive interval for NewTicker"
    else { s with worker := .ticking }

def tick (store : List Pod) (run : Pod → List CommandResult) (s : System) : System :=
  match s.measurement.params, s.measurement.stats with
  | some p, some st =>
    let done := doTick p store run s.measurement.results st
    { s with
      measurement := { s.measurement with results := done.1, stats := some done.2 }
      worker := .selecting }
  | none, _ => s.panic "nil pointer: params"
  | some _, none => s.panic "nil pointer: stats"

/-- The worker's deferred function. -/
def exit (s : System) : System :=
  match s.measurement.doneCh with
  | some .opened =>
    { s with measurement := { s.measurement with doneCh := some .closed }, worker := .gone }
  | some .closed => s.panic "close of closed channel"
  | none => s.panic "close of nil channel"

inductive Action where
  | call (c : Call)
  | newTicker
  | tick (store : List Pod) (run : Pod → List CommandResult)
  | tickerFired
  | observeStop
  | received

def step (s : System) (a : Action) : Option System :=
  if s.panicked.isSome then none
  else match a with
    | .call c => if s.controller = .idle then some (execute s c) else none
    | .newTicker => if s.worker = .spawned then some (newTicker s) else none
    | .tick store run => if s.worker = .ticking then some (tick store run s) else none
    | .tickerFired =>
      if s.worker = .selecting then some { s with worker := .ticking } else none
    | .observeStop =>
      if s.worker = .selecting ∧ s.measurement.stopCh = some .closed then some (exit s) else none
    | .received =>
      match s.controller with
      | .idle => none
      | .receiving call =>
        if s.measurement.doneCh = some .closed then some (finish s call) else none

/-- Everything but a new call. -/
def Internal : Action → Prop
  | .call _ => False
  | _ => True

def Alive : Worker → Prop
  | .spawned | .ticking | .selecting => True
  | .absent | .gone => False

/-- The last call to return was gather or Dispose. -/
def Stopped : Option Outcome → Prop
  | some (.gathered _ _) | some .disposed => True
  | none | some (.started _) => False

/-- Nothing has panicked or will, a pending call can return, and no worker is
left behind. A second close of a channel would be a panic. -/
structure Safe (s : System) : Prop where
  noPanic : ∀ t, Reaches step Internal s t → t.panicked = none
  returns : Live step Internal (fun t => t.controller = .idle) s
  terminated : Stopped s.returned → ¬ Alive s.worker

/-- What makes a call safe in the state it is issued in. -/
def Guarded (s : System) : Action → Prop
  | .call (.start (.ok p) synced) =>
    s.measurement.isRunning = false → synced = true → 0 < p.interval
  | .call .gather =>
    if s.measurement.skipGather then ¬ Alive s.worker
    else s.measurement.stats.isSome = true ∧
      (s.measurement.isRunning = true → s.worker ≠ .absent)
  | .call .dispose => s.measurement.isRunning = true → s.worker ≠ .absent
  | _ => True

/-! ## What holds while every call is guarded -/

structure Sound (s : System) : Prop where
  calm : s.panicked = none
  known : s.measurement.stats.isSome = true → s.measurement.params.isSome = true
  begun : Alive s.worker ∨ s.measurement.isRunning = true ∨ s.controller ≠ .idle →
    s.measurement.stats.isSome = true
  ticks : Alive s.worker → ∀ p, s.measurement.params = some p → 0 < p.interval
  opened : Alive s.worker → s.measurement.doneCh = some .opened
  running : s.measurement.isRunning = true → s.measurement.stopCh = some .opened ∧
    s.measurement.doneCh = some .opened ∧ s.worker ≠ .gone
  resting : s.measurement.isRunning = false → s.controller = .idle → ¬ Alive s.worker
  stopping : s.controller ≠ .idle → s.measurement.isRunning = false ∧
    s.measurement.stopCh = some .closed ∧ s.worker ≠ .absent ∧
    (s.worker = .gone → s.measurement.doneCh = some .closed)
  terminated : Stopped s.returned → ¬ Alive s.worker

theorem sound_created : Sound created where
  calm := rfl
  known := by simp [created]
  begun := by simp [created, Alive]
  ticks := by simp [created]
  opened := by simp [created, Alive]
  running := by simp [created]
  resting := by simp [created, Alive]
  stopping := by simp [created]
  terminated := nofun

variable {s t : System}

theorem summarize_of_stats {m : Measurement} {st : Stats} (hstats : m.stats = some st)
    (known : m.params.isSome = true) :
    ∃ st' summaries err,
      m.summarize = .ok ({ m with stats := some st' }, summaries, err) := by
  obtain ⟨p, hparams⟩ := Option.isSome_iff_exists.mp known
  simp only [Measurement.summarize, hparams, hstats]
  exact ⟨_, _, _, rfl⟩

theorem summarize_of_no_stats {m : Measurement} (hstats : m.stats = none) :
    ∃ text, m.summarize = .error text := by
  simp only [Measurement.summarize, hstats]
  split
  · exact ⟨_, rfl⟩
  · exact ⟨_, rfl⟩

/-- A call that need not wait, or has waited, leaves only its outcome behind. -/
theorem finish_eq (known : s.measurement.params.isSome = true)
    (hstats : s.measurement.stats.isSome = true) (call : Stopper) :
    ∃ st outcome, finish s call =
      { s with
        measurement := { s.measurement with stats := some st }
        controller := .idle
        returned := some outcome } := by
  obtain ⟨st, hst⟩ := Option.isSome_iff_exists.mp hstats
  cases call with
  | gather =>
    obtain ⟨st', summaries, err, hsum⟩ := summarize_of_stats hst known
    refine ⟨st', .gathered summaries err, ?_⟩
    rw [finish, hsum]
  | dispose =>
    refine ⟨st, .disposed, ?_⟩
    rw [finish, ← hst]

/-- What each action does, where it can be taken. -/
inductive Effect (s : System) : Action → System → Prop where
  | call (c : Call) (idle : s.controller = .idle) : Effect s (.call c) (execute s c)
  | newTicker (spawned : s.worker = .spawned) : Effect s .newTicker (newTicker s)
  | tick (store : List Pod) (run : Pod → List CommandResult) (ticking : s.worker = .ticking) :
    Effect s (.tick store run) (tick store run s)
  | tickerFired (selecting : s.worker = .selecting) :
    Effect s .tickerFired { s with worker := .ticking }
  | observeStop (selecting : s.worker = .selecting)
    (stopped : s.measurement.stopCh = some .closed) : Effect s .observeStop (exit s)
  | received (call : Stopper) (waiting : s.controller = .receiving call)
    (done : s.measurement.doneCh = some .closed) : Effect s .received (finish s call)

variable {a : Action}

theorem step_of_effect (calm : s.panicked = none) (effect : Effect s a t) : step s a = some t := by
  cases effect with
  | call c idle => simp [step, calm, idle]
  | newTicker spawned => simp [step, calm, spawned]
  | tick store run ticking => simp [step, calm, ticking]
  | tickerFired selecting => simp [step, calm, selecting]
  | observeStop selecting stopped => simp [step, calm, selecting, stopped]
  | received call waiting done => simp [step, calm, waiting, done]

theorem effect_of_step (h : step s a = some t) : s.panicked = none ∧ Effect s a t := by
  obtain ⟨calm, h⟩ := Option.ite_none_left_eq_some.mp h
  refine ⟨by simpa using calm, ?_⟩
  cases a with
  | call c =>
    obtain ⟨idle, h⟩ := Option.ite_none_right_eq_some.mp h
    cases h
    exact .call c idle
  | newTicker =>
    obtain ⟨spawned, h⟩ := Option.ite_none_right_eq_some.mp h
    cases h
    exact .newTicker spawned
  | tick store run =>
    obtain ⟨ticking, h⟩ := Option.ite_none_right_eq_some.mp h
    cases h
    exact .tick store run ticking
  | tickerFired =>
    obtain ⟨selecting, h⟩ := Option.ite_none_right_eq_some.mp h
    cases h
    exact .tickerFired selecting
  | observeStop =>
    obtain ⟨⟨selecting, stopped⟩, h⟩ := Option.ite_none_right_eq_some.mp h
    cases h
    exact .observeStop selecting stopped
  | received =>
    cases waiting : s.controller with
    | idle => simp [waiting] at h
    | receiving call =>
      simp only [waiting] at h
      obtain ⟨done, h⟩ := Option.ite_none_right_eq_some.mp h
      cases h
      exact .received call waiting done

/-! ## The worker's steps -/

section
variable (sound : Sound s)
include sound

theorem Sound.worker (alive : Alive s.worker) {w : Worker} (still : Alive w) :
    Sound { s with worker := w } where
  calm := sound.calm
  known := sound.known
  begun := fun _ => sound.begun (.inl alive)
  ticks := fun _ => sound.ticks alive
  opened := fun _ => sound.opened alive
  running := fun running => by
    obtain ⟨stopCh, doneCh, _⟩ := sound.running running
    refine ⟨stopCh, doneCh, ?_⟩
    rintro rfl
    exact still
  resting := fun resting idle => absurd alive (sound.resting resting idle)
  stopping := fun waiting => by
    obtain ⟨resting, stopCh, _, _⟩ := sound.stopping waiting
    refine ⟨resting, stopCh, ?_, ?_⟩
    · rintro rfl
      exact still
    · rintro rfl
      exact absurd still id
  terminated := fun stopped => absurd alive (sound.terminated stopped)

/-- A tick only adds to the results and the statistics. -/
theorem tick_eq (ticking : s.worker = .ticking) (store : List Pod)
    (run : Pod → List CommandResult) :
    ∃ results st, tick store run s =
      { s with
        measurement := { s.measurement with results := results, stats := some st }
        worker := .selecting } := by
  have begun := sound.begun (.inl (ticking ▸ trivial))
  obtain ⟨st, hstats⟩ := Option.isSome_iff_exists.mp begun
  obtain ⟨p, hparams⟩ := Option.isSome_iff_exists.mp (sound.known begun)
  rw [tick, hparams, hstats]
  exact ⟨_, _, rfl⟩

theorem Sound.tick (ticking : s.worker = .ticking) (store : List Pod)
    (run : Pod → List CommandResult) : Sound (tick store run s) := by
  have alive : Alive s.worker := ticking ▸ trivial
  have next := sound.worker alive (w := .selecting) trivial
  obtain ⟨results, st, heq⟩ := tick_eq sound ticking store run
  rw [heq]
  exact { next with
    known := fun _ => sound.known (sound.begun (.inl alive))
    begun := fun _ => rfl }

theorem newTicker_eq (spawned : s.worker = .spawned) :
    newTicker s = { s with worker := .ticking } := by
  have alive : Alive s.worker := spawned ▸ trivial
  obtain ⟨p, hparams⟩ := Option.isSome_iff_exists.mp (sound.known (sound.begun (.inl alive)))
  have positive := sound.ticks alive p hparams
  rw [newTicker, hparams]
  simp only [if_neg (show ¬ p.interval ≤ 0 by omega)]

theorem Sound.newTicker (spawned : s.worker = .spawned) : Sound (newTicker s) := by
  rw [newTicker_eq sound spawned]
  exact sound.worker (spawned ▸ trivial) trivial

theorem Sound.exit (selecting : s.worker = .selecting)
    (stopped : s.measurement.stopCh = some .closed) : Sound (exit s) := by
  have alive : Alive s.worker := selecting ▸ trivial
  have resting : s.measurement.isRunning = false := by
    rw [Bool.eq_false_iff]
    intro running
    cases stopped.symm.trans (sound.running running).1
  rw [PodPeriodicCommand.exit, sound.opened alive]
  exact { sound with
    begun := fun _ => sound.begun (.inl alive)
    ticks := nofun
    opened := nofun
    running := fun running => by cases resting.symm.trans running
    resting := fun _ _ => id
    stopping := fun waiting => ⟨resting, stopped, nofun, fun _ => rfl⟩
    terminated := fun _ => id }

/-- Once the worker is gone the call only leaves its outcome. -/
theorem Sound.finish (resting : s.measurement.isRunning = false) (gone : ¬ Alive s.worker)
    (hstats : s.measurement.stats.isSome = true) (call : Stopper) :
    Sound (finish s call) ∧ (finish s call).controller = .idle := by
  obtain ⟨st, outcome, heq⟩ := finish_eq (sound.known hstats) hstats call
  rw [heq]
  refine ⟨?_, rfl⟩
  exact { sound with
    known := fun _ => sound.known hstats
    begun := fun _ => rfl
    ticks := fun alive => absurd alive gone
    opened := fun alive => absurd alive gone
    running := fun running => by cases resting.symm.trans running
    resting := fun _ _ => gone
    stopping := fun waiting => absurd rfl waiting
    terminated := fun _ => gone }

theorem Sound.received {call : Stopper} (waiting : s.controller = .receiving call)
    (done : s.measurement.doneCh = some .closed) :
    Sound (PodPeriodicCommand.finish s call) ∧
      (PodPeriodicCommand.finish s call).controller = .idle := by
  have busy : s.controller ≠ .idle := by
    rw [waiting]
    nofun
  have gone : ¬ Alive s.worker := by
    intro alive
    cases done.symm.trans (sound.opened alive)
  exact sound.finish (sound.stopping busy).1 gone (sound.begun (.inr (.inr busy))) call

theorem Sound.internal (h : step s a = some t) (internal : Internal a) : Sound t := by
  cases (effect_of_step h).2 with
  | call c idle => exact absurd internal id
  | newTicker spawned => exact sound.newTicker spawned
  | tick store run ticking => exact sound.tick ticking store run
  | tickerFired selecting => exact sound.worker (selecting ▸ trivial) trivial
  | observeStop selecting stopped => exact sound.exit selecting stopped
  | received call waiting done => exact (sound.received waiting done).1

end

/-! ## A pending call returns -/

/-- A run of the worker leads to where the call is over. -/
def Returns (s : System) : Prop := ∃ u, Reaches step Internal s u ∧ u.controller = .idle

theorem Returns.of_effect (calm : s.panicked = none) (effect : Effect s a t)
    (internal : Internal a) (returns : Returns t) : Returns s := by
  obtain ⟨u, reached, idle⟩ := returns
  exact ⟨u, .head internal (step_of_effect calm effect) reached, idle⟩

section
variable (sound : Sound s)
include sound

theorem Sound.returns_of_selecting {call : Stopper} (waiting : s.controller = .receiving call)
    (selecting : s.worker = .selecting) :
    Returns s := by
  have busy : s.controller ≠ .idle := by
    rw [waiting]
    nofun
  have stopped := (sound.stopping busy).2.1
  have exited := sound.exit selecting stopped
  refine .of_effect sound.calm (.observeStop selecting stopped) trivial ?_
  have hexit : PodPeriodicCommand.exit s =
      { s with measurement := { s.measurement with doneCh := some .closed }, worker := .gone } := by
    rw [PodPeriodicCommand.exit, sound.opened (selecting ▸ trivial)]
  rw [hexit] at exited ⊢
  exact .of_effect exited.calm (.received call waiting rfl) trivial
    ⟨_, .refl _, (exited.received waiting rfl).2⟩

theorem Sound.returns_of_ticking {call : Stopper} (waiting : s.controller = .receiving call)
    (ticking : s.worker = .ticking) :
    Returns s := by
  have next := sound.tick ticking [] fun _ => []
  obtain ⟨results, st, heq⟩ := tick_eq sound ticking [] fun _ => []
  refine .of_effect sound.calm (.tick [] (fun _ => []) ticking) trivial ?_
  rw [heq] at next ⊢
  exact next.returns_of_selecting waiting rfl

theorem Sound.returns : Returns s := by
  cases waiting : s.controller with
  | idle => exact ⟨s, .refl s, waiting⟩
  | receiving call =>
    have busy : s.controller ≠ .idle := by
      rw [waiting]
      nofun
    obtain ⟨_, _, started, gone⟩ := sound.stopping busy
    cases hworker : s.worker with
    | absent => exact absurd hworker started
    | spawned =>
      have next := sound.newTicker hworker
      refine .of_effect sound.calm (.newTicker hworker) trivial ?_
      rw [newTicker_eq sound hworker] at next ⊢
      exact next.returns_of_ticking waiting rfl
    | ticking => exact sound.returns_of_ticking waiting hworker
    | selecting => exact sound.returns_of_selecting waiting hworker
    | gone =>
      refine .of_effect sound.calm (.received call waiting (gone hworker)) trivial ?_
      exact ⟨_, .refl _, (sound.received waiting (gone hworker)).2⟩

theorem Sound.safe : Safe s :=
  { sound with
    noPanic := fun _ reached =>
      (reached.keeps (fun _ _ _ internal sound h => sound.internal h internal) sound).calm
    returns := live_of_keeps (fun _ _ _ internal sound h => sound.internal h internal)
      (fun _ sound => sound.returns) sound }

/-! ## The calls -/

theorem Sound.stop (idle : s.controller = .idle) (begun : s.measurement.stats.isSome = true)
    (started : s.measurement.isRunning = true → s.worker ≠ .absent) (call : Stopper) :
    Sound (stop call s) := by
  unfold PodPeriodicCommand.stop
  cases running : s.measurement.isRunning with
  | false =>
    exact (sound.finish running (sound.resting running idle) begun call).1
  | true =>
    obtain ⟨stopCh, doneCh, notGone⟩ := sound.running running
    simp only [stopCh]
    exact { sound with
      begun := fun _ => begun
      running := nofun
      resting := fun _ => nofun
      stopping := fun _ => ⟨rfl, rfl, started running, fun gone => absurd gone notGone⟩ }

theorem Sound.dispose (idle : s.controller = .idle)
    (started : s.measurement.isRunning = true → s.worker ≠ .absent) :
    Sound (PodPeriodicCommand.stop .dispose s) := by
  cases running : s.measurement.isRunning with
  | true => exact sound.stop idle (sound.begun (.inr (.inl running))) started .dispose
  | false =>
    have gone := sound.resting running idle
    rw [PodPeriodicCommand.stop, running]
    exact { sound with
      begun := fun h => by
        rcases h with alive | running' | waiting
        · exact absurd alive gone
        · cases running.symm.trans running'
        · exact absurd rfl waiting
      ticks := fun alive => absurd alive gone
      opened := fun alive => absurd alive gone
      running := fun running' => by cases running.symm.trans running'
      resting := fun _ _ => gone
      stopping := fun waiting => absurd rfl waiting
      terminated := fun _ => gone }

/-- A call that only answers. -/
theorem Sound.answered (skip : Bool) {outcome : Outcome}
    (h : Stopped (some outcome) → ¬ Alive s.worker) :
    Sound { s with
      measurement := { s.measurement with skipGather := skip }
      returned := some outcome } :=
  { sound with terminated := h }

theorem Sound.start (idle : s.controller = .idle) {p : Params} {synced : Bool}
    (positive : s.measurement.isRunning = false → synced = true → 0 < p.interval) :
    Sound (start p synced s) := by
  unfold PodPeriodicCommand.start
  cases running : s.measurement.isRunning with
  | true => exact sound.answered s.measurement.skipGather nofun
  | false =>
    exact { sound with
      known := fun _ => rfl
      begun := fun _ => rfl
      ticks := by
        intro alive q hq
        cases hq
        cases synced with
        | true => exact positive running rfl
        | false => exact absurd alive id
      opened := fun _ => rfl
      running := fun _ => ⟨rfl, rfl, by cases synced <;> nofun⟩
      resting := nofun
      stopping := fun waiting => absurd idle waiting
      terminated := nofun }

end

theorem execute_gather (s : System) :
    execute s .gather = if s.measurement.skipGather then
      { s with returned := some (.gathered [] none) } else PodPeriodicCommand.stop .gather s :=
  rfl

theorem guarded_gather :
    Guarded s (.call .gather) ↔ if s.measurement.skipGather then ¬ Alive s.worker
      else s.measurement.stats.isSome = true ∧
        (s.measurement.isRunning = true → s.worker ≠ .absent) :=
  Iff.rfl

theorem Sound.call {c : Call} (sound : Sound s) (idle : s.controller = .idle)
    (guarded : Guarded s (.call c)) : Sound (execute s c) := by
  cases c with
  | start params synced =>
    cases params with
    | error text => exact sound.answered true nofun
    | ok p => exact sound.start idle guarded
  | gather =>
    rw [guarded_gather] at guarded
    rw [execute_gather]
    by_cases skip : s.measurement.skipGather = true
    · rw [if_pos skip] at guarded ⊢
      exact sound.answered s.measurement.skipGather fun _ => guarded
    · rw [if_neg skip] at guarded ⊢
      exact sound.stop idle guarded.1 guarded.2 .gather
  | dispose => exact sound.dispose idle guarded

theorem Sound.step (sound : Sound s) (guarded : Guarded s a) (h : step s a = some t) : Sound t := by
  cases a with
  | call c =>
    cases (effect_of_step h).2 with
    | call _ idle => exact sound.call idle guarded
  | _ => exact sound.internal h trivial

/-! ## Unguarded calls -/

/-- Nobody is left to close the done channel. -/
structure Stuck (s : System) : Prop where
  waiting : s.controller ≠ .idle
  absent : s.worker = .absent
  pending : s.measurement.doneCh = some .opened

theorem Stuck.internal (internal : Internal a) (stuck : Stuck s)
    (h : PodPeriodicCommand.step s a = some t) : Stuck t := by
  have absent := stuck.absent
  cases (effect_of_step h).2 with
  | call c idle => exact absurd internal id
  | newTicker spawned => cases absent.symm.trans spawned
  | tick store run ticking => cases absent.symm.trans ticking
  | tickerFired selecting | observeStop selecting => cases absent.symm.trans selecting
  | received call waiting done => cases stuck.pending.symm.trans done

theorem stop_stuck (sound : Sound s) (running : s.measurement.isRunning = true)
    (absent : s.worker = .absent) (call : Stopper) : Stuck (stop call s) := by
  obtain ⟨stopCh, doneCh, _⟩ := sound.running running
  unfold PodPeriodicCommand.stop
  simp only [running, stopCh]
  exact ⟨nofun, absent, doneCh⟩

theorem Stuck.not_safe (stuck : Stuck s) : ¬ Safe s := fun safe =>
  not_live_of_keeps (fun _ _ _ internal stuck h => Stuck.internal internal stuck h)
    (fun _ stuck idle => stuck.waiting idle) stuck safe.returns

theorem not_safe_of_panicked {text : String} (h : s.panicked = some text) : ¬ Safe s := by
  intro safe
  cases h.symm.trans (safe.noPanic s (.refl s))

theorem start_not_safe (sound : Sound s) (resting : s.measurement.isRunning = false)
    {p : Params} (nonPositive : p.interval ≤ 0) : ¬ Safe (start p true s) := by
  intro safe
  have hstart : (start p true s).worker = .spawned ∧
      (start p true s).measurement.params = some p ∧ (start p true s).panicked = none := by
    simp [PodPeriodicCommand.start, resting, sound.calm]
  obtain ⟨spawned, hparams, calm⟩ := hstart
  have hpanic : newTicker (start p true s) =
      (start p true s).panic "non-positive interval for NewTicker" := by
    rw [newTicker, hparams]
    simp only [if_pos nonPositive]
  have reached : Reaches PodPeriodicCommand.step Internal (start p true s)
      (newTicker (start p true s)) :=
    .single (show Internal .newTicker from trivial) (step_of_effect calm (.newTicker spawned))
  rw [hpanic] at reached
  cases safe.noPanic _ reached

theorem gather_not_safe (sound : Sound s) (unguarded : ¬ Guarded s (.call .gather)) :
    ¬ Safe (execute s .gather) := by
  rw [guarded_gather] at unguarded
  rw [execute_gather]
  by_cases skip : s.measurement.skipGather = true
  · rw [if_pos skip] at unguarded ⊢
    intro safe
    exact safe.terminated (by trivial) (not_not.mp unguarded)
  · rw [if_neg skip] at unguarded ⊢
    cases running : s.measurement.isRunning with
    | true =>
      have absent : s.worker = .absent := by
        by_contra started
        exact unguarded ⟨sound.begun (.inr (.inl running)), fun _ => started⟩
      exact (stop_stuck sound running absent .gather).not_safe
    | false =>
      have hstats : s.measurement.stats = none := by
        rw [← Option.not_isSome_iff_eq_none]
        intro begun
        exact unguarded ⟨begun, fun running' => by cases running.symm.trans running'⟩
      obtain ⟨text, hsum⟩ := summarize_of_no_stats hstats
      have hpanic : (stop .gather s).panicked = some text := by
        rw [PodPeriodicCommand.stop, running]
        simp only [Bool.false_eq_true, if_false, PodPeriodicCommand.finish, hsum, System.panic]
      exact not_safe_of_panicked hpanic

theorem not_safe_of_not_guarded (sound : Sound s) (unguarded : ¬ Guarded s a)
    (h : PodPeriodicCommand.step s a = some t) : ¬ Safe t := by
  cases a with
  | call c =>
    cases (effect_of_step h).2 with
    | call _ idle =>
      cases c with
      | start params synced =>
        cases params with
        | error text => exact absurd trivial unguarded
        | ok p =>
          obtain ⟨resting, hrest⟩ := Classical.not_imp.mp unguarded
          obtain ⟨rfl, nonPositive⟩ := Classical.not_imp.mp hrest
          exact start_not_safe sound resting (by omega)
      | gather => exact gather_not_safe sound unguarded
      | dispose =>
        obtain ⟨running, absent⟩ := Classical.not_imp.mp unguarded
        exact (stop_stuck sound running (not_not.mp absent) .dispose).not_safe
  | _ => exact absurd trivial unguarded

/-- A run is safe throughout exactly if each of its calls is guarded: a start
that gets as far as its worker has a positive interval, a gather that is not
skipped comes after a start that was carried out, one that is skipped finds no
worker, and neither gather nor Dispose meets a running measurement whose
informer has not synced. -/
theorem safe_throughout_iff (actions : List Action) :
    Throughout PodPeriodicCommand.step Safe created actions ↔
      Along PodPeriodicCommand.step Guarded created actions :=
  throughout_iff_along (fun _ sound => sound.safe)
    (fun _ _ _ sound guarded h => sound.step guarded h)
    (fun _ _ _ sound unguarded h => not_safe_of_not_guarded sound unguarded h) sound_created

def everySecond : Params where
  interval := 1000000000
  container := "busybox"
  limit := 1
  failOnCommandError := false
  failOnExecError := false
  failOnTimeout := false

/-- A gather before any start panics. After a start whose informer has not
synced it waits for a worker that was never launched, and so does Dispose. A
zero interval panics in the worker. A second start with parameters that are
rejected makes the gather return while the worker is running. -/
theorem broken_lifecycles :
    ¬ Throughout PodPeriodicCommand.step Safe created [.call .gather] ∧
    ¬ Throughout PodPeriodicCommand.step Safe created
      [.call (.start (.ok everySecond) false), .call .gather] ∧
    ¬ Throughout PodPeriodicCommand.step Safe created
      [.call (.start (.ok everySecond) false), .call .dispose] ∧
    ¬ Throughout PodPeriodicCommand.step Safe created
      [.call (.start (.ok { everySecond with interval := 0 }) true)] ∧
    ¬ Throughout PodPeriodicCommand.step Safe created
      [.call (.start (.ok everySecond) true), .call (.start (.error "key commands not found") true),
        .call .gather] := by
  refine ⟨fun safe => ?_, fun safe => ?_, fun safe => ?_, fun safe => ?_, fun safe => ?_⟩
  · exact not_safe_of_panicked rfl (safe.2 _ rfl)
  · have stuck : Stuck (stop .gather (start everySecond false created)) := ⟨nofun, rfl, rfl⟩
    exact stuck.not_safe ((safe.2 _ rfl).2 _ rfl)
  · have stuck : Stuck (stop .dispose (start everySecond false created)) := ⟨nofun, rfl, rfl⟩
    exact stuck.not_safe ((safe.2 _ rfl).2 _ rfl)
  · exact start_not_safe sound_created rfl (by decide) (safe.2 _ rfl)
  · exact (((safe.2 _ rfl).2 _ rfl).2 _ rfl).terminated (by trivial) trivial

end PodPeriodicCommand
