import ClusterLoader.PodStartup

/-!
# Windows of PodStartupLatency

A start that succeeds opens a window and the next gather closes it. The tables
and the queue are made once, with the instance, and the queue that a gather has
shut down stays so: a second window reports the pods of the first and none of its
own. What holds is said of the runs in which a start is the first to be carried
out, gather finds nothing left to process, and no notification arrives between the
call of gather and the shutdown of the queue.

`since` holds the open window and `closed` the one of the last gather, with the
answer to its list of events. Dispose closes a window without a report.
-/

namespace PodStartupWindows

open TransitionTimes EnabledRuns PodStartup

/-- The parameters of a start and the notifications delivered since. -/
structure Window where
  params : Params
  events : List EventData
  deriving DecidableEq

structure Windowed where
  system : System
  since : Option Window
  closed : Option Window
  response : Option (Except String (List Event))

/-- The start returns no error. -/
def succeeds (s : System) : StartOutcome → Bool
  | .rejected => false
  | .synced => true
  | .timedOut => s.isRunning

def Window.add (window : Window) (event : EventData) : Window :=
  { window with events := window.events ++ [event] }

def record (w : Windowed) (t : System) : Action → Windowed
  | .start params outcome =>
    let since := if succeeds w.system outcome then some ⟨params, []⟩ else w.since
    { w with system := t, since := since }
  | .gather _ => ⟨t, none, w.since, none⟩
  | .dispose => { w with system := t, since := none }
  | .notify event => { w with system := t, since := w.since.map (·.add event) }
  | .list response => { w with system := t, response := some response }
  | _ => { w with system := t }

def windowStep (w : Windowed) (a : Action) : Option Windowed :=
  (step w.system a).map fun t => record w t a

def opened : Windowed := ⟨created, none, none, none⟩

/-- What a new instance returns for the notifications of the window. -/
def newInstance (window : Window) (identifier : String)
    (response : Except String (List Event)) : Result :=
  report window.params identifier (tablesOf window.events) response

/-- The first window of an instance, with all its notifications processed when
gather is called, is reported so. -/
theorem returned_newInstance {actions : List Action} {s t : System} {identifier : String}
    {response : Except String (List Event)} (h : exec step created actions = some s)
    (running : s.isRunning = true) (alone : s.processors.length = 1) (settled : Settled s)
    (reached : Reaches step (Quiet response) (s.gather identifier) t)
    (done : t.controller = .idle) :
    t.returned = some (newInstance ⟨s.params, s.history⟩ identifier response) := by
  have window : FirstWindow s := exec_keeps
    (fun _ _ _ _ window h => FirstWindow.step window (effect_of_step h)) FirstWindow.created h
  rw [newInstance, ← window.tables running alone settled]
  exact returned_of_settled running settled reached done

/-- The notification shows the pod with this key running. -/
def Runs (key : String) (event : EventData) : Prop :=
  ∃ pod, event.obj = some pod ∧ pod.running = true ∧ pod.key = key

/-- gather reports the pods seen running in the window that it closes, as a new
instance would. -/
structure Independent (w : Windowed) : Prop where
  pods : ∀ window, w.closed = some window → w.system.controller.computing = true → ∀ key,
    w.system.tables.has key .create = true ↔ ∃ event ∈ window.events, Runs key event
  returned : ∀ window, w.closed = some window → w.system.controller = .idle →
    ∃ response, w.response = some response ∧
      w.system.returned = some (newInstance window w.system.identifier response)

/-- The queue is about to be shut down by a gather. -/
def shutsDown : Controller → Bool
  | .stopping true => true
  | _ => false

def Guarded (w : Windowed) : Action → Prop
  | .start _ _ => w.system.processors = []
  | .gather _ => w.system.isRunning = true → Settled w.system
  | .notify _ => shutsDown w.system.controller = false
  | _ => True

instance (w : Windowed) : (a : Action) → Decidable (Guarded w a)
  | .start _ _ => inferInstanceAs (Decidable (_ = _))
  | .gather _ => inferInstanceAs (Decidable (_ → _))
  | .notify _ => inferInstanceAs (Decidable (_ = _))
  | .dispose | .take _ | .process _ | .quit _ | .shutDown | .list _ | .next => .isTrue trivial

/-! ## The pods in the tables -/

theorem has_setCreate (T : Tables) (pod : Pod) (key : String) :
    (T.setCreate pod).has key .create = true ↔ key = pod.key ∨ T.has key .create = true := by
  unfold Tables.setCreate
  split
  · rw [has_set, has_set]
    simp
  · rw [has_set]
    simp

theorem has_enter (T : Tables) (pod : Pod) (recvTime : Int) (key : String) :
    (T.enter pod recvTime).has key .create = true ↔
      key = pod.key ∨ T.has key .create = true := by
  unfold Tables.enter
  split
  · rename_i known
    refine ⟨.inr, fun h => ?_⟩
    rcases h with rfl | h
    · exact known
    · exact h
  · rw [has_setCreate, has_set]
    simp

theorem runs_iff {event : EventData} {pod : Pod} (hobj : event.obj = some pod) (key : String) :
    Runs key event ↔ pod.running = true ∧ key = pod.key := by
  constructor
  · rintro ⟨pod', h, running, rfl⟩
    obtain rfl := Option.some.inj (hobj.symm.trans h)
    exact ⟨running, rfl⟩
  · rintro ⟨running, rfl⟩
    exact ⟨pod, hobj, running, rfl⟩

theorem has_processEvent (T : Tables) (event : EventData) (key : String) :
    (T.processEvent event).has key .create = true ↔
      Runs key event ∨ T.has key .create = true := by
  unfold Tables.processEvent
  cases hobj : event.obj with
  | none => simp [Runs, hobj]
  | some pod =>
    rw [runs_iff hobj]
    cases hrunning : pod.running with
    | false => simp [hrunning, Tables.setStateless, Tables.has]
    | true =>
      have unchanged : (T.setStateless pod.key (isPodStateless pod)).has key .create =
        T.has key .create := rfl
      simp [hrunning, has_enter, unchanged]

theorem has_foldl (events : List EventData) (T : Tables) (key : String) :
    (events.foldl Tables.processEvent T).has key .create = true ↔
      (∃ event ∈ events, Runs key event) ∨ T.has key .create = true := by
  induction events generalizing T with
  | nil => simp
  | cons event rest ih =>
    rw [List.foldl_cons, ih, has_processEvent]
    simp only [List.mem_cons, exists_eq_or_imp]
    rw [or_left_comm, or_assoc]

theorem has_tablesOf (events : List EventData) (key : String) :
    (tablesOf events).has key .create = true ↔ ∃ event ∈ events, Runs key event := by
  rw [tablesOf, has_foldl, or_iff_left]
  exact Bool.false_ne_true

/-! ## The first window -/

/-- The state while the window of the first start is open. -/
structure Open (window : Window) (s : System) : Prop where
  running : s.isRunning = true
  idle : s.controller = .idle
  alone : s.processors.length = 1
  accepting : s.shutDown = false
  params : s.params = window.params
  history : s.history = window.events

/-- The state once gather has closed the window. -/
structure Closed (window : Window) (w : Windowed) : Prop where
  resting : w.system.isRunning = false
  launched : w.system.processors ≠ []
  dropping : shutsDown w.system.controller = true ∨ w.system.shutDown = true
  pods : ∀ key, w.system.tables.has key .create = true ↔ ∃ event ∈ window.events, Runs key event
  waiting : w.response = none →
    shutsDown w.system.controller = true ∨ w.system.controller = .list
  answered : w.response ≠ none →
    w.system.controller.answered = true ∨ w.system.controller = .idle
  undisturbed : ∀ response, (∀ r ∈ w.response, r = response) →
    Undisturbed response (newInstance window w.system.identifier response) w.system

structure Kept (w : Windowed) : Prop where
  first : FirstWindow w.system
  since : ∀ window, w.since = some window → Open window w.system
  closed : ∀ window, w.closed = some window → Closed window w

theorem Kept.independent {w : Windowed} (kept : Kept w) : Independent w where
  pods := fun window h _ => (kept.closed window h).pods
  returned := by
    intro window h idle
    have closed := kept.closed window h
    cases hr : w.response with
    | none =>
      have early := closed.waiting hr
      rw [idle] at early
      rcases early with early | early <;> cases early
    | some response =>
      refine ⟨response, rfl, ?_⟩
      have undisturbed := closed.undisturbed response fun r h => Option.some.inj (h.symm.trans hr)
      rcases undisturbed.comes with ⟨gathering, _⟩ | ⟨_, returned⟩
      · rw [idle] at gathering
        cases gathering
      · exact returned

variable {w : Windowed} {t : System}

theorem Kept.start {params : Params} {outcome : StartOutcome} (kept : Kept w)
    (fresh : w.system.processors = []) (idle : w.system.controller = .idle) :
    Kept (record w (w.system.start params outcome) (.start params outcome)) where
  first := kept.first.start idle params outcome
  since := by
    intro window h
    obtain ⟨resting, _, accepting, _, history, _⟩ := kept.first.pristine fresh
    change (if succeeds w.system outcome then some ⟨params, []⟩ else w.since) = some window at h
    cases outcome with
    | rejected =>
      have before := (kept.since window h).running
      rw [resting] at before
      cases before
    | timedOut =>
      rw [succeeds, resting] at h
      have before := (kept.since window h).running
      rw [resting] at before
      cases before
    | synced =>
      cases h
      have carried : w.system.start params .synced =
          { w.system with params := params, isRunning := true, processors := [.idle] } := by
        simp [System.start, resting, fresh]
      rw [carried]
      exact ⟨rfl, idle, rfl, accepting, rfl, history⟩
  closed := by
    intro window h
    exact absurd fresh (kept.closed window h).launched

theorem Kept.gather {identifier : String} (kept : Kept w) (idle : w.system.controller = .idle)
    (settled : w.system.isRunning = true → Settled w.system) :
    Kept (record w (w.system.gather identifier) (.gather identifier)) where
  first := kept.first.step (.gather identifier idle)
  since := nofun
  closed := by
    intro window h
    have since := kept.since window h
    have tables := kept.first.tables since.running since.alone (settled since.running)
    have carried : record w (w.system.gather identifier) (.gather identifier) =
        ⟨{ w.system with
          isRunning := false
          controller := .stopping true
          identifier := identifier
          called := w.system.history.length }, none, w.since, none⟩ := by
      simp [record, System.gather, since.running]
    rw [carried]
    refine ⟨rfl, List.ne_nil_of_length_eq_add_one since.alone, .inl rfl, fun key => ?_,
      fun _ => .inl rfl, fun answered => absurd rfl answered, fun response _ => ?_⟩
    · rw [← has_tablesOf, ← since.history, ← tables]
    · refine ⟨settled since.running, .inl ⟨rfl, ?_⟩⟩
      rw [newInstance, ← since.params, ← since.history, ← tables]
      rfl

theorem Kept.dispose (kept : Kept w) (idle : w.system.controller = .idle) :
    Kept (record w w.system.dispose .dispose) where
  first := kept.first.step (.dispose idle)
  since := nofun
  closed := by
    intro window h
    have closed := kept.closed window h
    have skipped : w.system.dispose = w.system := by simp [System.dispose, closed.resting]
    rw [skipped]
    exact ⟨closed.resting, closed.launched, closed.dropping, closed.pods, closed.waiting,
      closed.answered, closed.undisturbed⟩

theorem Kept.notify {event : EventData} (kept : Kept w)
    (early : shutsDown w.system.controller = false) (informed : w.system.processors ≠ []) :
    Kept (record w (w.system.addEvent event) (.notify event)) where
  first := kept.first.addEvent informed event
  since := by
    intro window h
    obtain ⟨before, hbefore, rfl⟩ := Option.map_eq_some_iff.mp h
    have since := kept.since before hbefore
    have accepted : w.system.addEvent event = { w.system with
        queue := w.system.queue ++ [(w.system.history.length, event)]
        history := w.system.history ++ [event] } := by
      simp [System.addEvent, since.accepting]
    rw [accepted]
    exact ⟨since.running, since.idle, since.alone, since.accepting, since.params,
      congrArg (· ++ [event]) since.history⟩
  closed := by
    intro window h
    have closed := kept.closed window h
    have shut : w.system.shutDown = true := by
      rcases closed.dropping with late | shut
      · rw [early] at late
        cases late
      · exact shut
    have dropped : w.system.addEvent event = w.system := by simp [System.addEvent, shut]
    rw [dropped]
    exact ⟨closed.resting, closed.launched, closed.dropping, closed.pods, closed.waiting,
      closed.answered, closed.undisturbed⟩

variable {window : Window}

theorem Closed.settled (closed : Closed window w) : Settled w.system :=
  (closed.undisturbed (w.response.getD (.ok [])) fun r h => by rw [h]; rfl).settled

variable {a : Action}

/-- The steps that are neither calls nor notifications leave an open window open. -/
theorem Open.step (since : Open window w.system)
    (inside : Internal a) (quiet : ∀ event, a ≠ .notify event) (effect : Effect w.system a t) :
    Open window t := by
  obtain ⟨running, idle, alone, accepting, params, history⟩ := since
  have one : ∀ i p, (w.system.processors.set i p).length = 1 := fun i p => by
    rw [List.length_set, alone]
  cases effect with
  | start | gather | dispose => cases inside
  | notify event informed => exact absurd rfl (quiet event)
  | take i p number event rest free hqueue named finish =>
    exact ⟨running, idle, one i p, accepting, params, history⟩
  | process i p p' T hp busy named finish =>
    exact ⟨running, idle, one i p', accepting, params, history⟩
  | quit i free drained shutDown => exact ⟨running, idle, one i .gone, accepting, params, history⟩
  | shutDown _ hc | listed _ hc | listFailed _ hc => cases idle.symm.trans hc
  | next c T before after creates result =>
    rw [idle] at before
    cases before
  | report summaries err hc => cases idle.symm.trans hc

theorem shutsDown_of_answered {c : Controller} (h : c.answered = true) : shutsDown c = false := by
  cases c with
  | stopping gather => cases h
  | _ => rfl

section
variable (closed : Closed window w)
include closed

theorem Closed.shut (h : shutsDown w.system.controller = false) : w.system.shutDown = true :=
  closed.dropping.resolve_left (Bool.eq_false_iff.mp h)

/-- Before the list of events is answered, gather is at one of two steps. -/
theorem Closed.response_of_answered (h : w.system.controller.answered = true) :
    w.response ≠ none := by
  intro hr
  rcases closed.waiting hr with early | early
  · rw [shutsDown_of_answered h] at early
    cases early
  · rw [early] at h
    cases h

theorem Closed.response_none (h : w.system.controller.answered = false)
    (busy : w.system.controller ≠ .idle) :
    w.response = none := by
  by_contra hr
  rcases closed.answered hr with answered | idle
  · rw [h] at answered
    cases answered
  · exact busy idle

/-- A step that is recorded is quiet for the answer on record. -/
theorem Closed.quiet (inside : Internal a) (quiet : ∀ event, a ≠ .notify event)
    (effect : Effect w.system a t) {response : Except String (List Event)}
    (h : ∀ r ∈ (record w t a).response, r = response) :
    Quiet response a ∧ ∀ r ∈ w.response, r = response := by
  cases a with
  | start | gather | dispose => cases inside
  | notify event => exact absurd rfl (quiet event)
  | list r =>
    refine ⟨h r rfl, ?_⟩
    cases effect with
    | listed _ hc | listFailed _ hc =>
      rw [closed.response_none (by rw [hc]; rfl) (by rw [hc]; nofun)]
      nofun
  | _ => exact ⟨trivial, h⟩

theorem Closed.step (inside : Internal a) (quiet : ∀ event, a ≠ .notify event)
    (effect : Effect w.system a t) :
    Closed window (record w t a) := by
  have settled := closed.settled
  have undisturbed : ∀ response, (∀ r ∈ (record w t a).response, r = response) →
      Undisturbed response (newInstance window w.system.identifier response) t := by
    intro response h
    obtain ⟨still, before⟩ := closed.quiet inside quiet effect h
    exact (closed.undisturbed response before).step effect still
  cases effect with
  | start | gather | dispose => cases inside
  | notify event informed => exact absurd rfl (quiet event)
  | take i p number event rest free hqueue named finish =>
    rw [settled.1] at hqueue
    cases hqueue
  | process i p p' T hp busy named finish =>
    exact absurd (settled.2 p (List.mem_of_getElem? hp)) busy
  | quit i free drained shutDown =>
    exact ⟨closed.resting, set_ne_nil free .gone, closed.dropping, closed.pods, closed.waiting,
      closed.answered, undisturbed⟩
  | shutDown gather hc =>
    have hr := closed.response_none (by rw [hc]; rfl) (by rw [hc]; nofun)
    have early := closed.waiting hr
    rw [hc] at early
    cases gather with
    | true =>
      exact ⟨closed.resting, closed.launched, .inr rfl, closed.pods, fun _ => .inr rfl,
        fun answered => absurd hr answered, undisturbed⟩
    | false => rcases early with early | early <;> cases early
  | listed events hc =>
    exact ⟨closed.resting, closed.launched, .inr (closed.shut (by rw [hc]; rfl)), closed.pods,
      nofun, fun _ => .inl rfl, undisturbed⟩
  | listFailed err hc =>
    exact ⟨closed.resting, closed.launched, .inr (closed.shut (by rw [hc]; rfl)), closed.pods,
      nofun, fun _ => .inr rfl, undisturbed⟩
  | next c T before after creates result =>
    refine ⟨closed.resting, closed.launched, .inr (closed.shut (shutsDown_of_answered before)),
      fun key => ?_, fun hr => ?_, fun _ => .inl after, undisturbed⟩
    · rw [← closed.pods key, ← creates key]
      rfl
    · exact absurd hr (closed.response_of_answered before)
  | report summaries err hc =>
    refine ⟨closed.resting, closed.launched, .inr (closed.shut (by rw [hc]; rfl)), closed.pods,
      fun hr => ?_, fun _ => .inr rfl, undisturbed⟩
    exact absurd hr (closed.response_of_answered (by rw [hc]; rfl))

end

theorem record_since_of_internal (inside : Internal a)
    (quiet : ∀ event, a ≠ .notify event) : (record w t a).since = w.since ∧
      (record w t a).closed = w.closed ∧ (record w t a).system = t := by
  cases a with
  | start | gather | dispose => cases inside
  | notify event => exact absurd rfl (quiet event)
  | _ => exact ⟨rfl, rfl, rfl⟩

theorem Kept.internal (kept : Kept w) (inside : Internal a)
    (quiet : ∀ event, a ≠ .notify event) (effect : Effect w.system a t) : Kept (record w t a) := by
  obtain ⟨since, closed, system⟩ := record_since_of_internal (w := w) (t := t) inside quiet
  refine ⟨?_, fun window h => ?_, fun window h => ?_⟩
  · rw [system]
    exact kept.first.step effect
  · rw [system]
    exact (kept.since window (since ▸ h)).step inside quiet effect
  · exact (kept.closed window (closed ▸ h)).step inside quiet effect

theorem Kept.step {w' : Windowed} (kept : Kept w) (guarded : Guarded w a)
    (h : windowStep w a = some w') : Kept w' := by
  obtain ⟨t, ht, rfl⟩ := Option.map_eq_some_iff.mp h
  have effect := effect_of_step ht
  cases a with
  | start params outcome =>
    cases effect with
    | start _ _ idle => exact kept.start guarded idle
  | gather identifier =>
    cases effect with
    | gather _ idle => exact kept.gather idle guarded
  | dispose =>
    cases effect with
    | dispose idle => exact kept.dispose idle
  | notify event =>
    cases effect with
    | notify _ informed => exact kept.notify guarded informed
  | _ => exact kept.internal trivial nofun effect

theorem Kept.opened : Kept opened where
  first := FirstWindow.created
  since := nofun
  closed := nofun

/-- In a run whose starts find that none has been carried out before, whose gathers
find nothing left to process and in which no notification arrives between the call
of a gather and the shutdown of the queue, every gather that closes a window
reports its pods, and returns what a new instance returns. -/
theorem windows_independent (actions : List Action)
    (guarded : Along windowStep Guarded opened actions) :
    Throughout windowStep Independent opened actions :=
  throughout_of_along (fun _ kept => Kept.independent kept)
    (fun _ _ _ kept guarded h => Kept.step kept guarded h) Kept.opened guarded

theorem windows_independent_processed :
    Along windowStep Guarded opened (notified ++ processed ++ gathered) ∧
    Throughout windowStep Independent opened (notified ++ processed ++ gathered) ∧
    ((exec windowStep opened (notified ++ processed ++ gathered)).bind fun w =>
      w.closed.map fun window => (window, startupMedian w.system)) =
        some (⟨defaults, [⟨some runningPod, 3000⟩]⟩, some 2000) := by
  have guarded : Along windowStep Guarded opened (notified ++ processed ++ gathered) := by
    decide +kernel
  exact ⟨guarded, windows_independent _ guarded, by decide +kernel⟩

/-- A pod that is created after the first window. -/
def latePod : Pod where
  ns := "test"
  name := "db"
  running := true
  creationTimestamp := 8000
  startedAt := [8500]
  volumes := []

/-- A window like the one above and then a second, up to its computations. -/
def secondWindow : List Action :=
  notified ++ processed ++ gathered ++
    [.start defaults .synced, .notify ⟨some latePod, 9000⟩, .gather "id2", .shutDown,
      .list (.ok []), .next, .next]

/-- The second window reports the pod of the first and not its own. -/
theorem second_window_repeats_first :
    (∃ w, exec windowStep opened secondWindow = some w ∧
      w.closed = some ⟨defaults, [⟨some latePod, 9000⟩]⟩ ∧
      w.system.tables.has runningPod.key .create = true ∧
      w.system.tables.has latePod.key .create = false ∧
      ¬ Throughout windowStep Independent opened secondWindow) ∧
    (exec windowStep opened (secondWindow ++ [.next, .next, .next, .next])).bind
      (startupMedian ·.system) = some 2000 := by
  refine ⟨?_, by decide +kernel⟩
  have final : (exec windowStep opened secondWindow).any (fun w =>
      decide (w.closed = some ⟨defaults, [⟨some latePod, 9000⟩]⟩) &&
      w.system.controller.computing && w.system.tables.has runningPod.key .create &&
      !w.system.tables.has latePod.key .create) = true := by decide +kernel
  obtain ⟨w, h, facts⟩ := (Option.any_eq_true _ _).mp final
  simp only [Bool.and_eq_true, decide_eq_true_eq, Bool.not_eq_true'] at facts
  obtain ⟨⟨⟨closed, computing⟩, old⟩, new⟩ := facts
  refine ⟨w, h, closed, old, new, fun independent => ?_⟩
  obtain ⟨event, hevent, runs⟩ := ((independent.last h).pods _ closed computing _).mp old
  rw [List.mem_singleton.mp hevent, runs_iff rfl] at runs
  exact absurd runs.2 (by decide)

end PodStartupWindows
