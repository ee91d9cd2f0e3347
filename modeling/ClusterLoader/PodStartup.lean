import ClusterLoader.EnabledRuns
import ClusterLoader.TransitionTimes

/-!
# The event queue of PodStartupLatency

The informer puts every notification into a queue; a goroutine launched by each
start that is carried out takes them out and fills the tables from which gather
computes the latencies. gather shuts the queue down and does not wait: what is
queued then is still taken out, but nothing says when. The tables are shared, and
each access to one of them is a step of its own.

The calls come one at a time. What the parameters of a start leave in the fields
is given with the call, also where they are rejected; so are the API server's
answers. Times are nanoseconds since the zero time. `history` records what the
queue has accepted and `called` how much of it there was when gather was called;
notifications are numbered in that order. The latencies of one check are computed
in one step. Log output is left out.
-/

namespace PodStartup

open KeyedStore TransitionTimes EnabledRuns

inductive Phase where
  | create
  | schedule
  | run
  | watch
  deriving DecidableEq

inductive Volume where
  | emptyDir
  | downwardAPI
  | configMap
  | secret
  | projected
  | other
  deriving DecidableEq

structure Pod where
  ns : String
  name : String
  running : Bool
  creationTimestamp : Int
  /-- `StartedAt` of the containers that are running. -/
  startedAt : List Int
  volumes : List Volume
  deriving DecidableEq

/-- The object is `none` for a delete, and for what is no pod. -/
structure EventData where
  obj : Option Pod
  recvTime : Int
  deriving DecidableEq

/-- An event of the scheduler about a pod. -/
structure Event where
  ns : String
  name : String
  eventTime : Int
  firstTimestamp : Int

structure Params where
  perc50Threshold : Int
  perc90Threshold : Int
  perc99Threshold : Int
  mapEventsByOrder : Bool
  deriving DecidableEq

def createMetaNamespaceKey (ns name : String) : String := ns ++ "/" ++ name

def Pod.key (pod : Pod) : String := createMetaNamespaceKey pod.ns pod.name

def Event.key (event : Event) : String := createMetaNamespaceKey event.ns event.name

def Event.time (event : Event) : Int :=
  if event.eventTime ≠ 0 then event.eventTime else event.firstTimestamp

def isPodStateless (pod : Pod) : Bool := pod.volumes.all (· ≠ .other)

def startTime (pod : Pod) : Int :=
  pod.startedAt.foldl (fun start t => if start < t then t else start) 0

/-! ## The tables -/

structure Tables where
  entries : ObjectTransitionTimes Phase
  metadata : Map String Bool

namespace Tables

def empty : Tables := ⟨.empty, Store.empty⟩

def set (T : Tables) (key : String) (phase : Phase) (t : Int) : Tables :=
  { T with entries := T.entries.set key phase t }

def has (T : Tables) (key : String) (phase : Phase) : Bool := (T.entries.get key phase).isSome

def setStateless (T : Tables) (key : String) (stateless : Bool) : Tables :=
  { T with metadata := T.metadata.set key stateless }

def filterStateless (T : Tables) (key : String) : Bool := (T.metadata.get key).getD false

def filterStateful (T : Tables) (key : String) : Bool := !T.filterStateless key

/-- The end of `processEvent` for a pod seen running for the first time. -/
def setCreate (T : Tables) (pod : Pod) : Tables :=
  let T := T.set pod.key .create pod.creationTimestamp
  if startTime pod ≠ 0 then T.set pod.key .run (startTime pod) else T

/-- `processEvent` from the test for an entry on. -/
def enter (T : Tables) (pod : Pod) (recvTime : Int) : Tables :=
  if T.has pod.key .create then T else (T.set pod.key .watch recvTime).setCreate pod

def processEvent (T : Tables) (event : EventData) : Tables :=
  match event.obj with
  | none => T
  | some pod =>
    let T := T.setStateless pod.key (isPodStateless pod)
    if pod.running then T.enter pod event.recvTime else T

end Tables

/-- What the notifications amount to, processed one after the other. -/
def tablesOf (events : List EventData) : Tables := events.foldl Tables.processEvent .empty

/-! ## The report -/

def podStartupTransitions : List (String × Transition Phase) :=
  [("create_to_schedule", ⟨.create, .schedule⟩), ("schedule_to_run", ⟨.schedule, .run⟩),
    ("run_to_watch", ⟨.run, .watch⟩), ("schedule_to_watch", ⟨.schedule, .watch⟩),
    ("pod_startup", ⟨.create, .watch⟩)]

inductive Check where
  | all
  | stateless
  | stateful

def checks : List Check := [.all, .stateless, .stateful]

def Check.namePrefix : Check → String
  | all => ""
  | stateless => "Stateless"
  | stateful => "Stateful"

def Check.filter (c : Check) (T : Tables) : String → Bool :=
  match c with
  | all => fun _ => true
  | stateless => T.filterStateless
  | stateful => T.filterStateful

/-- The percentile with the latency found and the one expected. -/
structure Violation where
  percentile : Nat
  got : Int
  expected : Int

def verifyThresholdByPercentile (metric : LatencyMetric) (p : Params) : Option Violation :=
  if p.perc50Threshold < metric.perc50 then some ⟨50, metric.perc50, p.perc50Threshold⟩
  else if p.perc90Threshold < metric.perc90 then some ⟨90, metric.perc90, p.perc90Threshold⟩
  else if p.perc99Threshold < metric.perc99 then some ⟨99, metric.perc99, p.perc99Threshold⟩
  else none

structure Summary where
  name : String
  latencies : List (String × LatencyMetric)

inductive Result where
  | notStarted
  | listFailed (err : String)
  | reported (summaries : List Summary) (err : Option Violation)

def Tables.latencies (T : Tables) (c : Check) : List (String × LatencyMetric) :=
  calculateTransitionsLatency T.entries podStartupTransitions (c.filter T)

def Tables.violation (T : Tables) (p : Params) (c : Check) : Option Violation :=
  ((T.latencies c).lookup "pod_startup").bind (verifyThresholdByPercentile · p)

def Tables.summary (T : Tables) (identifier : String) (c : Check) : Summary :=
  ⟨c.namePrefix ++ "PodStartupLatency" ++ "_" ++ identifier, T.latencies c⟩

/-- The checks left, after the summaries and the error of those before. -/
def summarize (p : Params) (identifier : String) (T : Tables) :
    List Check → List Summary → Option Violation → Result
  | [], summaries, err => .reported summaries err
  | c :: left, summaries, err =>
    summarize p identifier T left (summaries ++ [T.summary identifier c])
      ((T.violation p c).or err)

/-- The scheduling times to be set for the events that belong to tracked pods. -/
def Tables.schedules (T : Tables) (mapEventsByOrder : Bool) (events : List Event) :
    List (String × Int) :=
  if mapEventsByOrder then
    ((T.entries.getOrderedKeys .create).map Prod.fst).zip
      ((events.insertionSort fun a b => a.time ≤ b.time).map Event.time)
  else events.map fun event => (event.key, event.time)

def Tables.setAll (T : Tables) (schedules : List (String × Int)) : Tables :=
  schedules.foldl (fun T entry => T.set entry.1 .schedule entry.2) T

def Tables.tracked (T : Tables) (event : Event) : Bool := T.has event.key .create

def Tables.gatherScheduleTimes (T : Tables) (mapEventsByOrder : Bool) (events : List Event) :
    Tables :=
  T.setAll (T.schedules mapEventsByOrder (events.filter T.tracked))

/-- What gather returns if nothing interferes. -/
def report (p : Params) (identifier : String) (T : Tables) : Except String (List Event) → Result
  | .error err => .listFailed err
  | .ok events =>
    summarize p identifier (T.gatherScheduleTimes p.mapEventsByOrder events) checks [] none

/-! ## The steps -/

/-- A goroutine at the access it makes next, with the number of the notification. -/
inductive Processor where
  | idle
  | gone
  | setStateless (number : Nat) (pod : Pod) (recvTime : Int)
  | getCreate (number : Nat) (pod : Pod) (recvTime : Int)
  | setWatch (number : Nat) (pod : Pod) (recvTime : Int)
  | setCreate (number : Nat) (pod : Pod)
  | setRun (number : Nat) (pod : Pod)
  deriving DecidableEq

/-- The call under way, at the step it makes next. -/
inductive Controller where
  | idle
  | stopping (gather : Bool)
  | list
  | filter (left kept : List Event)
  | order (kept : List Event)
  | set (schedules : List (String × Int))
  | compute (left : List Check) (summaries : List Summary) (err : Option Violation)

structure System where
  params : Params
  isRunning : Bool
  queue : List (Nat × EventData)
  shutDown : Bool
  processors : List Processor
  tables : Tables
  controller : Controller
  identifier : String
  returned : Option Result
  history : List EventData
  called : Nat

def created : System where
  params := ⟨0, 0, 0, false⟩
  isRunning := false
  queue := []
  shutDown := false
  processors := []
  tables := .empty
  controller := .idle
  identifier := ""
  returned := none
  history := []
  called := 0

inductive StartOutcome where
  | rejected
  | synced
  | timedOut
  deriving DecidableEq

inductive Action where
  | start (params : Params) (outcome : StartOutcome)
  | gather (identifier : String)
  | dispose
  | notify (event : EventData)
  | take (i : Nat)
  | process (i : Nat)
  | quit (i : Nat)
  | shutDown
  | list (response : Except String (List Event))
  | next

namespace System

def start (s : System) (params : Params) (outcome : StartOutcome) : System :=
  if outcome = .rejected ∨ s.isRunning = true then { s with params := params }
  else { s with params := params, isRunning := true, processors := s.processors ++ [.idle] }

/-- gather up to the shutdown of the queue. -/
def gather (s : System) (identifier : String) : System :=
  if s.isRunning then
    { s with
      isRunning := false
      controller := .stopping true
      identifier := identifier
      called := s.history.length }
  else { s with returned := some .notStarted }

def dispose (s : System) : System :=
  if s.isRunning then { s with isRunning := false, controller := .stopping false } else s

def addEvent (s : System) (event : EventData) : System :=
  if s.shutDown then s
  else { s with
    queue := s.queue ++ [(s.history.length, event)]
    history := s.history ++ [event] }

def goto (s : System) (i : Nat) (p : Processor) : System :=
  { s with processors := s.processors.set i p }

def set (s : System) (key : String) (phase : Phase) (t : Int) : System :=
  { s with tables := s.tables.set key phase t }

end System

/-- The goroutine has got a notification. -/
def Processor.begin (number : Nat) (event : EventData) : Processor :=
  match event.obj with
  | none => .idle
  | some pod => .setStateless number pod event.recvTime

def take (s : System) (i : Nat) : Option System :=
  match s.processors[i]?, s.queue with
  | some .idle, (number, event) :: rest =>
    some ({ s with queue := rest }.goto i (.begin number event))
  | _, _ => none

def process (s : System) (i : Nat) : Option System :=
  match s.processors[i]? with
  | some (.setStateless number pod recvTime) =>
    some ({ s with tables := s.tables.setStateless pod.key (isPodStateless pod) }.goto i
      (if pod.running then .getCreate number pod recvTime else .idle))
  | some (.getCreate number pod recvTime) =>
    some (s.goto i
      (if s.tables.has pod.key .create then .idle else .setWatch number pod recvTime))
  | some (.setWatch number pod recvTime) =>
    some ((s.set pod.key .watch recvTime).goto i (.setCreate number pod))
  | some (.setCreate number pod) =>
    some ((s.set pod.key .create pod.creationTimestamp).goto i
      (if startTime pod ≠ 0 then .setRun number pod else .idle))
  | some (.setRun _ pod) => some ((s.set pod.key .run (startTime pod)).goto i .idle)
  | _ => none

def quit (s : System) (i : Nat) : Option System :=
  match s.processors[i]?, s.queue with
  | some .idle, [] => if s.shutDown then some (s.goto i .gone) else none
  | _, _ => none

/-- The answer to the list of events. -/
def list (s : System) (response : Except String (List Event)) : Option System :=
  match s.controller, response with
  | .list, .ok events => some { s with controller := .filter events [] }
  | .list, .error err => some { s with controller := .idle, returned := some (.listFailed err) }
  | _, _ => none

/-- The next step of gather after the list of events. -/
def next (s : System) : Option System :=
  match s.controller with
  | .filter (event :: left) kept =>
    some { s with
      controller := .filter left (if s.tables.tracked event then kept ++ [event] else kept) }
  | .filter [] kept =>
    some { s with
      controller := if s.params.mapEventsByOrder then .order kept
        else .set (s.tables.schedules false kept) }
  | .order kept => some { s with controller := .set (s.tables.schedules true kept) }
  | .set ((key, t) :: left) => some { s.set key .schedule t with controller := .set left }
  | .set [] => some { s with controller := .compute checks [] none }
  | .compute (c :: left) summaries err =>
    some { s with
      controller := .compute left (summaries ++ [s.tables.summary s.identifier c])
        ((s.tables.violation s.params c).or err) }
  | .compute [] summaries err =>
    some { s with controller := .idle, returned := some (.reported summaries err) }
  | _ => none

def step (s : System) : Action → Option System
  | .start params outcome =>
    match s.controller with
    | .idle => some (s.start params outcome)
    | _ => none
  | .gather identifier =>
    match s.controller with
    | .idle => some (s.gather identifier)
    | _ => none
  | .dispose =>
    match s.controller with
    | .idle => some s.dispose
    | _ => none
  | .notify event => if s.processors = [] then none else some (s.addEvent event)
  | .take i => take s i
  | .process i => process s i
  | .quit i => quit s i
  | .shutDown =>
    match s.controller with
    | .stopping true => some { s with shutDown := true, controller := .list }
    | .stopping false => some { s with shutDown := true, controller := .idle }
    | _ => none
  | .list response => list s response
  | .next => next s

/-! ## What each step does -/

/-- The number of the notification that the goroutine is at. -/
def Processor.number : Processor → Option Nat
  | .idle | .gone => none
  | .setStateless number _ _ | .getCreate number _ _ | .setWatch number _ _
  | .setCreate number _ | .setRun number _ => some number

/-- The tables when the goroutine is through with its notification. -/
def Processor.finish (T : Tables) : Processor → Tables
  | .idle | .gone => T
  | .setStateless _ pod recvTime => T.processEvent ⟨some pod, recvTime⟩
  | .getCreate _ pod recvTime => T.enter pod recvTime
  | .setWatch _ pod recvTime => (T.set pod.key .watch recvTime).setCreate pod
  | .setCreate _ pod => T.setCreate pod
  | .setRun _ pod => T.set pod.key .run (startTime pod)

/-- A gather is under way. -/
def Controller.gathering : Controller → Bool
  | .idle | .stopping false => false
  | _ => true

/-- A gather is under way and has its list of events. -/
def Controller.answered : Controller → Bool
  | .filter _ _ | .order _ | .set _ | .compute _ _ _ => true
  | _ => false

/-- What the gather under way returns if nothing interferes. -/
def Controller.result (p : Params) (identifier : String) (T : Tables)
    (response : Except String (List Event)) : Controller → Result
  | .filter left kept =>
    summarize p identifier
      (T.setAll (T.schedules p.mapEventsByOrder (kept ++ left.filter T.tracked))) checks [] none
  | .order kept => summarize p identifier (T.setAll (T.schedules true kept)) checks [] none
  | .set schedules => summarize p identifier (T.setAll schedules) checks [] none
  | .compute left summaries err => summarize p identifier T left summaries err
  | _ => report p identifier T response

inductive Effect (s : System) : Action → System → Prop where
  | start (params : Params) (outcome : StartOutcome) (idle : s.controller = .idle) :
    Effect s (.start params outcome) (s.start params outcome)
  | gather (identifier : String) (idle : s.controller = .idle) :
    Effect s (.gather identifier) (s.gather identifier)
  | dispose (idle : s.controller = .idle) : Effect s .dispose s.dispose
  | notify (event : EventData) (informed : s.processors ≠ []) :
    Effect s (.notify event) (s.addEvent event)
  | take (i : Nat) (p : Processor) (number : Nat) (event : EventData)
    (rest : List (Nat × EventData)) (free : s.processors[i]? = some .idle)
    (h : s.queue = (number, event) :: rest) (named : p.number = some number ∨ p.number = none)
    (finish : p.finish s.tables = s.tables.processEvent event) :
    Effect s (.take i) { s with queue := rest, processors := s.processors.set i p }
  | process (i : Nat) (p p' : Processor) (T : Tables) (h : s.processors[i]? = some p)
    (busy : p.number ≠ none) (named : p'.number = p.number ∨ p'.number = none)
    (finish : p'.finish T = p.finish s.tables) :
    Effect s (.process i) { s with tables := T, processors := s.processors.set i p' }
  | quit (i : Nat) (free : s.processors[i]? = some .idle) (drained : s.queue = [])
    (shutDown : s.shutDown = true) :
    Effect s (.quit i) { s with processors := s.processors.set i .gone }
  | shutDown (gather : Bool) (h : s.controller = .stopping gather) :
    Effect s .shutDown
      { s with shutDown := true, controller := if gather then .list else .idle }
  | listed (events : List Event) (h : s.controller = .list) :
    Effect s (.list (.ok events)) { s with controller := .filter events [] }
  | listFailed (err : String) (h : s.controller = .list) :
    Effect s (.list (.error err))
      { s with controller := .idle, returned := some (.listFailed err) }
  | next (c : Controller) (T : Tables) (before : s.controller.answered = true)
    (after : c.answered = true) (creates : ∀ key, T.has key .create = s.tables.has key .create)
    (result : ∀ response, c.result s.params s.identifier T response =
      s.controller.result s.params s.identifier s.tables response) :
    Effect s .next { s with tables := T, controller := c }
  | report (summaries : List Summary) (err : Option Violation)
    (h : s.controller = .compute [] summaries err) :
    Effect s .next { s with controller := .idle, returned := some (.reported summaries err) }

variable {s t : System}

theorem begin_named (number : Nat) (event : EventData) :
    (Processor.begin number event).number = some number ∨
      (Processor.begin number event).number = none := by
  unfold Processor.begin
  split
  · exact .inr rfl
  · exact .inl rfl

theorem begin_finish (T : Tables) (number : Nat) (event : EventData) :
    (Processor.begin number event).finish T = T.processEvent event := by
  obtain ⟨obj, recvTime⟩ := event
  cases obj with
  | none | some => rfl

theorem gathering_of_answered {c : Controller} (h : c.answered = true) : c.gathering = true := by
  cases c with
  | idle | stopping => cases h
  | _ => rfl

theorem has_set (T : Tables) (key : String) (phase : Phase) (time : Int) (key' : String)
    (phase' : Phase) :
    (T.set key phase time).has key' phase' = true ↔
      key' = key ∧ phase' = phase ∨ T.has key' phase' = true := by
  rw [Tables.has, Tables.set, ObjectTransitionTimes.get_set]
  split
  · rename_i same
    exact ⟨fun _ => .inl same, fun _ => rfl⟩
  · rename_i other
    exact ⟨.inr, fun h => h.resolve_left other⟩

theorem has_create_schedule (T : Tables) (key key' : String) (time : Int) :
    (T.set key .schedule time).has key' .create = T.has key' .create := by
  rw [Bool.eq_iff_iff, has_set]
  exact ⟨fun h => h.resolve_left nofun, .inr⟩

theorem effect_of_process {i : Nat} (h : process s i = some t) : Effect s (.process i) t := by
  unfold process at h
  split at h
  · rename_i number pod recvTime hp
    cases h
    refine .process i _ _ _ hp nofun ?_ ?_
    · split
      · exact .inl rfl
      · exact .inr rfl
    · cases hrunning : pod.running <;> simp [Processor.finish, Tables.processEvent, hrunning]
  · rename_i number pod recvTime hp
    cases h
    refine .process i _ _ s.tables hp nofun ?_ ?_
    · split
      · exact .inr rfl
      · exact .inl rfl
    · rw [Processor.finish, Tables.enter]
      split <;> rfl
  · rename_i number pod recvTime hp
    cases h
    exact .process i _ _ _ hp nofun (.inl rfl) rfl
  · rename_i number pod hp
    cases h
    refine .process i _ _ _ hp nofun ?_ ?_
    · split
      · exact .inl rfl
      · exact .inr rfl
    · rw [Processor.finish, Tables.setCreate]
      split <;> rfl
  · rename_i number pod hp
    cases h
    exact .process i _ _ _ hp nofun (.inr rfl) rfl
  · cases h

theorem effect_of_next (h : next s = some t) : Effect s .next t := by
  unfold next at h
  split at h
  · rename_i event left kept hc
    cases h
    refine .next _ s.tables (by rw [hc]; rfl) rfl (fun _ => rfl) fun response => ?_
    rw [hc, Controller.result, Controller.result, List.filter_cons]
    split
    · rw [List.append_assoc]
      rfl
    · rfl
  · rename_i kept hc
    cases h
    refine .next _ s.tables (by rw [hc]; rfl) (by split <;> rfl) (fun _ => rfl) fun response => ?_
    rw [hc, Controller.result, List.filter_nil, List.append_nil]
    split
    · rename_i order
      rw [Controller.result, order]
    · rename_i order
      rw [Controller.result, Bool.eq_false_iff.mpr order]
  · rename_i kept hc
    cases h
    refine .next _ s.tables (by rw [hc]; rfl) rfl (fun _ => rfl) fun response => ?_
    rw [hc, Controller.result, Controller.result]
  · rename_i key time left hc
    cases h
    refine .next _ _ (by rw [hc]; rfl) rfl (fun key' => has_create_schedule s.tables key key' time)
      fun response => ?_
    rw [hc]
    rfl
  · rename_i hc
    cases h
    refine .next _ s.tables (by rw [hc]; rfl) rfl (fun _ => rfl) fun response => ?_
    rw [hc]
    rfl
  · rename_i c left summaries err hc
    cases h
    refine .next _ s.tables (by rw [hc]; rfl) rfl (fun _ => rfl) fun response => ?_
    rw [hc, Controller.result, Controller.result, summarize]
  · rename_i summaries err hc
    cases h
    exact .report summaries err hc
  · cases h

variable {a : Action}

theorem effect_of_step (h : step s a = some t) : Effect s a t := by
  cases a with
  | start params outcome =>
    rw [step] at h
    split at h
    · rename_i idle
      exact Option.some.inj h ▸ .start params outcome idle
    · cases h
  | gather identifier =>
    rw [step] at h
    split at h
    · rename_i idle
      exact Option.some.inj h ▸ .gather identifier idle
    · cases h
  | dispose =>
    rw [step] at h
    split at h
    · rename_i idle
      exact Option.some.inj h ▸ .dispose idle
    · cases h
  | notify event =>
    obtain ⟨informed, h⟩ := Option.ite_none_left_eq_some.mp h
    exact Option.some.inj h ▸ .notify event informed
  | take i =>
    rw [step, take] at h
    split at h
    · rename_i number event rest free hqueue
      cases h
      exact .take i _ number event rest free hqueue (begin_named number event)
        (begin_finish s.tables number event)
    · cases h
  | process i => exact effect_of_process h
  | quit i =>
    rw [step, quit] at h
    split at h
    · rename_i free drained
      obtain ⟨shutDown, h⟩ := Option.ite_none_right_eq_some.mp h
      exact Option.some.inj h ▸ .quit i free drained shutDown
    · cases h
  | shutDown =>
    rw [step] at h
    split at h
    · rename_i hc
      exact Option.some.inj h ▸ .shutDown true hc
    · rename_i hc
      exact Option.some.inj h ▸ .shutDown false hc
    · cases h
  | list response =>
    change list s response = some t at h
    unfold list at h
    split at h
    · rename_i events hc
      exact Option.some.inj h ▸ .listed events hc
    · rename_i err hc
      exact Option.some.inj h ▸ .listFailed err hc
    · cases h
  | next => exact effect_of_next h

/-! ## What gather has seen -/

/-- The notification with this number is queued or being processed. -/
def Pending (s : System) (number : Nat) : Prop :=
  (∃ event, (number, event) ∈ s.queue) ∨ ∃ p ∈ s.processors, p.number = some number

/-- Nothing is queued and nothing is being processed. -/
def Settled (s : System) : Prop := s.queue = [] ∧ ∀ p ∈ s.processors, p.number = none

instance (s : System) : Decidable (Settled s) := inferInstanceAs (Decidable (_ ∧ _))

/-- All notifications enqueued before gather was called have been processed. -/
def Included (s : System) : Prop := ∀ number, Pending s number → s.called ≤ number

/-- The latencies of a check are computed next. -/
def Controller.computing : Controller → Bool
  | .compute (_ :: _) _ _ => true
  | _ => false

/-- All that can happen while a call is under way. -/
def Internal : Action → Prop
  | .start _ _ | .gather _ | .dispose => False
  | _ => True

/-- Whatever happens next, gather computes latencies from tables that include all
notifications enqueued before it was called. -/
def Reflects (s : System) : Prop :=
  ∀ t, Reaches step Internal s t → t.controller.computing = true → Included t

/-- A gather that is carried out finds nothing queued and nothing being processed. -/
def Guarded (s : System) : Action → Prop
  | .gather _ => s.isRunning = true → Settled s
  | _ => True

instance (s : System) (a : Action) : Decidable (Guarded s a) := by
  unfold Guarded
  split <;> infer_instance

theorem settled_iff : Settled s ↔ ∀ number, ¬ Pending s number := by
  constructor
  · rintro ⟨drained, idle⟩ number (⟨event, queued⟩ | ⟨p, hp, hnumber⟩)
    · rw [drained] at queued
      cases queued
    · rw [idle p hp] at hnumber
      cases hnumber
  · intro h
    refine ⟨?_, fun p hp => ?_⟩
    · rw [List.eq_nil_iff_forall_not_mem]
      exact fun entry queued => h entry.1 (.inl ⟨entry.2, queued⟩)
    · rw [Option.eq_none_iff_forall_ne_some]
      exact fun number hnumber => h number (.inr ⟨p, hp, hnumber⟩)

/-- What is pending after a step was so before or has just been enqueued, and only a
call of gather that is carried out begins one. -/
structure Progress (s : System) (a : Action) (t : System) : Prop where
  pending : ∀ number, Pending t number →
    Pending s number ∨ number = s.history.length ∧ t.history.length = s.history.length + 1
  history : s.history.length ≤ t.history.length
  gathering : t.controller.gathering = true →
    (s.controller.gathering = true ∧ t.called = s.called) ∨
      ∃ identifier, a = .gather identifier ∧ s.isRunning = true ∧ t.called = s.history.length

theorem progress_of_effect (effect : Effect s a t) : Progress s a t := by
  cases effect with
  | start params outcome idle =>
    unfold System.start
    split
    · exact ⟨fun _ => .inl, Nat.le_refl _, fun h => .inl ⟨h, rfl⟩⟩
    · refine ⟨fun number h => ?_, Nat.le_refl _, fun h => .inl ⟨h, rfl⟩⟩
      rcases h with queued | ⟨p, hp, hnumber⟩
      · exact .inl (.inl queued)
      · rcases List.mem_append.mp hp with hp | hp
        · exact .inl (.inr ⟨p, hp, hnumber⟩)
        · rw [List.mem_singleton.mp hp] at hnumber
          cases hnumber
  | gather identifier idle =>
    unfold System.gather
    split
    · rename_i running
      exact ⟨fun _ => .inl, Nat.le_refl _, fun _ => .inr ⟨identifier, rfl, running, rfl⟩⟩
    · exact ⟨fun _ => .inl, Nat.le_refl _, fun h => .inl ⟨h, rfl⟩⟩
  | dispose idle =>
    unfold System.dispose
    split
    · exact ⟨fun _ => .inl, Nat.le_refl _, nofun⟩
    · exact ⟨fun _ => .inl, Nat.le_refl _, fun h => .inl ⟨h, rfl⟩⟩
  | notify event informed =>
    unfold System.addEvent
    split
    · exact ⟨fun _ => .inl, Nat.le_refl _, fun h => .inl ⟨h, rfl⟩⟩
    · refine ⟨fun number h => ?_, List.length_append ▸ Nat.le_add_right _ _,
        fun h => .inl ⟨h, rfl⟩⟩
      rcases h with ⟨event', queued⟩ | working
      · rcases List.mem_append.mp queued with queued | queued
        · exact .inl (.inl ⟨event', queued⟩)
        · obtain ⟨rfl, rfl⟩ := Prod.mk.inj (List.mem_singleton.mp queued)
          exact .inr ⟨rfl, List.length_append⟩
      · exact .inl (.inr working)
  | take i p number' event rest free hqueue named finish =>
    refine ⟨fun number h => ?_, Nat.le_refl _, fun h => .inl ⟨h, rfl⟩⟩
    rcases h with ⟨event', queued⟩ | ⟨p', hp, hnumber⟩
    · exact .inl (.inl ⟨event', hqueue ▸ List.mem_cons_of_mem _ queued⟩)
    · rcases List.mem_or_eq_of_mem_set hp with hp | rfl
      · exact .inl (.inr ⟨p', hp, hnumber⟩)
      · rcases named with named | named
        · obtain rfl := Option.some.inj (named.symm.trans hnumber)
          exact .inl (.inl ⟨event, hqueue ▸ List.mem_cons_self⟩)
        · cases named.symm.trans hnumber
  | process i p p' T hp busy named finish =>
    refine ⟨fun number h => ?_, Nat.le_refl _, fun h => .inl ⟨h, rfl⟩⟩
    rcases h with queued | ⟨q, hq, hnumber⟩
    · exact .inl (.inl queued)
    · rcases List.mem_or_eq_of_mem_set hq with hq | rfl
      · exact .inl (.inr ⟨q, hq, hnumber⟩)
      · rcases named with named | named
        · exact .inl (.inr ⟨p, List.mem_of_getElem? hp, named.symm.trans hnumber⟩)
        · cases named.symm.trans hnumber
  | quit i free drained shutDown =>
    refine ⟨fun number h => ?_, Nat.le_refl _, fun h => .inl ⟨h, rfl⟩⟩
    rcases h with queued | ⟨q, hq, hnumber⟩
    · exact .inl (.inl queued)
    · rcases List.mem_or_eq_of_mem_set hq with hq | rfl
      · exact .inl (.inr ⟨q, hq, hnumber⟩)
      · cases hnumber
  | shutDown gather hc =>
    refine ⟨fun _ => .inl, Nat.le_refl _, fun h => ?_⟩
    cases gather with
    | true => exact .inl ⟨by rw [hc]; rfl, rfl⟩
    | false => cases h
  | listed events hc =>
    exact ⟨fun _ => .inl, Nat.le_refl _, fun _ => .inl ⟨by rw [hc]; rfl, rfl⟩⟩
  | next c T before after creates result =>
    exact ⟨fun _ => .inl, Nat.le_refl _, fun _ => .inl ⟨gathering_of_answered before, rfl⟩⟩
  | listFailed | report => exact ⟨fun _ => .inl, Nat.le_refl _, nofun⟩

/-- Pending notifications have numbers given out before, and while a gather is
under way none from before its call. -/
structure Sound (s : System) : Prop where
  numbered : ∀ number, Pending s number → number < s.history.length
  called : s.controller.gathering = true → s.called ≤ s.history.length
  included : s.controller.gathering = true → Included s

theorem Sound.step (sound : Sound s) (guarded : Guarded s a) (effect : Effect s a t) :
    Sound t := by
  obtain ⟨pending, grows, gathering⟩ := progress_of_effect effect
  refine ⟨fun number h => ?_, fun h => ?_, fun h number waiting => ?_⟩
  · rcases pending number h with h | ⟨rfl, longer⟩
    · exact Nat.lt_of_lt_of_le (sound.numbered number h) grows
    · omega
  · rcases gathering h with ⟨before, same⟩ | ⟨identifier, rfl, running, called⟩
    · have := sound.called before
      omega
    · omega
  · rcases gathering h with ⟨before, same⟩ | ⟨identifier, rfl, running, called⟩
    · rw [same]
      rcases pending number waiting with waiting | ⟨rfl, _⟩
      · exact sound.included before number waiting
      · exact sound.called before
    · rcases pending number waiting with waiting | ⟨rfl, _⟩
      · exact absurd waiting (settled_iff.mp (guarded running) number)
      · exact Nat.le_of_eq called

theorem guarded_of_internal (internal : Internal a) : Guarded s a := by
  cases a with
  | gather identifier => cases internal
  | _ => trivial

theorem Sound.reflects (sound : Sound s) : Reflects s := by
  intro t reached computing
  have later : Sound t := reached.keeps
    (fun _ _ _ internal sound h => sound.step (guarded_of_internal internal) (effect_of_step h))
    sound
  refine later.included ?_
  cases hc : t.controller with
  | compute left summaries err => rfl
  | _ =>
    rw [hc] at computing
    cases computing

/-- A gather can come to its computations before the goroutines take another step. -/
theorem computes_of_list (h : s.controller = .list) :
    Reaches step Internal s { s with controller := .compute checks [] none } := by
  have listed : step s (.list (.ok [])) = some { s with controller := .filter [] [] } := by
    simp [step, list, h]
  refine .head (show Internal (.list (.ok [])) from trivial) listed ?_
  have nothing : Reaches step Internal { s with controller := .set [] }
      { s with controller := .compute checks [] none } :=
    .single (show Internal .next from trivial) rfl
  cases order : s.params.mapEventsByOrder with
  | false =>
    refine .head (show Internal .next from trivial) ?_ nothing
    simp [step, next, order, Tables.schedules]
  | true =>
    have filtered : step { s with controller := .filter [] [] } .next =
        some { s with controller := .order [] } := by
      simp [step, next, order]
    refine .head (show Internal .next from trivial) filtered ?_
    refine .head (show Internal .next from trivial) ?_ nothing
    simp [step, next, Tables.schedules]

theorem not_reflects_of_pending {number : Nat} (running : s.isRunning = true)
    (pending : Pending s number) (numbered : number < s.history.length) (identifier : String) :
    ¬ Reflects (s.gather identifier) := by
  intro reflects
  rw [System.gather, if_pos running] at reflects
  have included := reflects _
    (.head (show Internal .shutDown from trivial) rfl (computes_of_list rfl)) rfl number pending
  exact Nat.not_le_of_lt numbered included

theorem Sound.created : Sound created where
  numbered := by
    rintro number (⟨event, queued⟩ | ⟨p, hp, _⟩)
    · cases queued
    · cases hp
  called := nofun
  included := nofun

theorem not_reflects_of_not_guarded (sound : Sound s) (unguarded : ¬ Guarded s a)
    (effect : Effect s a t) : ¬ Reflects t := by
  cases effect with
  | gather identifier idle =>
    obtain ⟨running, unsettled⟩ := Classical.not_imp.mp unguarded
    rw [settled_iff, not_forall_not] at unsettled
    obtain ⟨number, pending⟩ := unsettled
    exact not_reflects_of_pending running pending (sound.numbered number pending) identifier
  | _ => exact absurd trivial unguarded

/-! ## What gather returns -/

/-- No notification arrives, and the list of events is answered in one way. -/
def Quiet (response : Except String (List Event)) : Action → Prop
  | .start _ _ | .gather _ | .dispose | .notify _ => False
  | .list r => r = response
  | _ => True

/-- With nothing left to process, the gather under way comes to this result. -/
structure Undisturbed (response : Except String (List Event)) (r : Result) (s : System) :
    Prop where
  settled : Settled s
  comes : (s.controller.gathering = true ∧
      s.controller.result s.params s.identifier s.tables response = r) ∨
    s.controller = .idle ∧ s.returned = some r

variable {response : Except String (List Event)}

theorem Undisturbed.step {r : Result} (undisturbed : Undisturbed response r s)
    (effect : Effect s a t) (quiet : Quiet response a) :
    Undisturbed response r t := by
  obtain ⟨settled, comes⟩ := undisturbed
  cases effect with
  | start | gather | dispose | notify => cases quiet
  | take i p number event rest free hqueue named finish =>
    rw [settled.1] at hqueue
    cases hqueue
  | process i p p' T hp busy named finish =>
    exact absurd (settled.2 p (List.mem_of_getElem? hp)) busy
  | quit i free drained shutDown =>
    refine ⟨⟨settled.1, fun p hp => ?_⟩, comes⟩
    rcases List.mem_or_eq_of_mem_set hp with hp | rfl
    · exact settled.2 p hp
    · rfl
  | shutDown gather hc =>
    rw [hc] at comes
    rcases comes with ⟨gathering, result⟩ | ⟨idle, _⟩
    · cases gather with
      | true => exact ⟨settled, .inl ⟨rfl, result⟩⟩
      | false => cases gathering
    · cases idle
  | listed events hc =>
    rw [hc] at comes
    rcases comes with ⟨gathering, result⟩ | ⟨idle, _⟩
    · refine ⟨settled, .inl ⟨rfl, ?_⟩⟩
      rw [← result, ← show Except.ok events = response from quiet]
      rfl
    · cases idle
  | listFailed err hc =>
    rw [hc] at comes
    rcases comes with ⟨gathering, result⟩ | ⟨idle, _⟩
    · refine ⟨settled, .inr ⟨rfl, ?_⟩⟩
      rw [← result, ← show Except.error err = response from quiet]
      rfl
    · cases idle
  | next c T before after creates kept =>
    rcases comes with ⟨_, result⟩ | ⟨idle, _⟩
    · exact ⟨settled, .inl ⟨gathering_of_answered after, (kept response).trans result⟩⟩
    · rw [idle] at before
      cases before
  | report summaries err hc =>
    rw [hc] at comes
    rcases comes with ⟨gathering, result⟩ | ⟨idle, _⟩
    · exact ⟨settled, .inr ⟨rfl, congrArg some result⟩⟩
    · cases idle

/-- A gather that finds nothing left to process returns what the tables say. -/
theorem returned_of_settled (running : s.isRunning = true) (settled : Settled s)
    {identifier : String} (reached : Reaches step (Quiet response) (s.gather identifier) t)
    (done : t.controller = .idle) :
    t.returned = some (report s.params identifier s.tables response) := by
  have begins : Undisturbed response (report s.params identifier s.tables response)
      (s.gather identifier) := by
    rw [System.gather, if_pos running]
    exact ⟨settled, .inl ⟨rfl, rfl⟩⟩
  have undisturbed := reached.keeps
    (fun _ a _ quiet undisturbed h =>
      Undisturbed.step (a := a) undisturbed (effect_of_step h) quiet) begins
  rcases undisturbed.comes with ⟨gathering, _⟩ | ⟨_, returned⟩
  · rw [done] at gathering
    cases gathering
  · exact returned

/-! ## The tables of the first window -/

/-- The tables when all that is pending has been processed by this goroutine. -/
def System.finish (s : System) (p : Processor) : Tables :=
  (s.queue.map Prod.snd).foldl Tables.processEvent (p.finish s.tables)

/-- Before the first start that is carried out all is empty. While the first
window is open, the tables lack what is pending and nothing else. -/
structure FirstWindow (s : System) : Prop where
  pristine : s.processors = [] → s.isRunning = false ∧ s.controller = .idle ∧
    s.shutDown = false ∧ s.queue = [] ∧ s.history = [] ∧ s.tables = .empty
  resting : s.controller ≠ .idle → s.isRunning = false
  accounted : s.isRunning = true → ∀ p, s.processors = [p] → s.finish p = tablesOf s.history

theorem set_ne_nil {ps : List Processor} {i : Nat} {p : Processor} (hp : ps[i]? = some p)
    (q : Processor) : ps.set i q ≠ [] := by
  intro h
  rw [List.set_eq_nil_iff] at h
  rw [h] at hp
  cases hp

theorem set_eq_singleton {ps : List Processor} {i : Nat} {p q q' : Processor}
    (hp : ps[i]? = some p) (h : ps.set i q = [q']) : q = q' ∧ ps = [p] := by
  cases ps with
  | nil => cases hp
  | cons a rest =>
    cases i with
    | zero =>
      obtain ⟨rfl, rfl⟩ := List.cons.inj h
      cases hp
      exact ⟨rfl, rfl⟩
    | succ i =>
      have found : rest[i]? = some p := hp
      exact absurd (List.cons.inj h).2 (set_ne_nil found q)

theorem tablesOf_append (events : List EventData) (event : EventData) :
    tablesOf (events ++ [event]) = (tablesOf events).processEvent event :=
  List.foldl_append

theorem FirstWindow.created : FirstWindow created where
  pristine := fun _ => ⟨rfl, rfl, rfl, rfl, rfl, rfl⟩
  resting := fun busy => absurd rfl busy
  accounted := nofun

section
variable (window : FirstWindow s)
include window

theorem FirstWindow.start (idle : s.controller = .idle) (params : Params) (outcome : StartOutcome) :
    FirstWindow (s.start params outcome) := by
  unfold System.start
  split
  · exact ⟨window.pristine, window.resting, window.accounted⟩
  · refine ⟨fun none => absurd none (by simp), fun busy => absurd idle busy, fun _ p hp => ?_⟩
    rcases List.append_eq_singleton_iff.mp hp with ⟨none, launched⟩ | ⟨_, launched⟩
    · obtain ⟨rfl, _⟩ := List.cons.inj launched
      obtain ⟨_, _, _, queue, history, tables⟩ := window.pristine none
      simp [System.finish, Processor.finish, queue, history, tables, tablesOf]
    · cases launched

theorem FirstWindow.addEvent (informed : s.processors ≠ []) (event : EventData) :
    FirstWindow (s.addEvent event) := by
  unfold System.addEvent
  split
  · exact window
  · refine ⟨fun none => absurd none informed, window.resting, fun running p hp => ?_⟩
    have before := window.accounted running p hp
    rw [System.finish] at before ⊢
    rw [tablesOf_append, ← before, List.map_append, List.foldl_append]
    rfl

/-- A call under way does not touch what the first window is about. -/
theorem FirstWindow.busy (busy : s.controller ≠ .idle) (processors : t.processors = s.processors)
    (running : t.isRunning = s.isRunning) :
    FirstWindow t where
  pristine := fun none => absurd (window.pristine (processors ▸ none)).2.1 busy
  resting := fun _ => running.trans (window.resting busy)
  accounted := by
    intro still
    rw [running, window.resting busy] at still
    cases still

theorem FirstWindow.step (effect : Effect s a t) : FirstWindow t := by
  cases effect with
  | start params outcome idle => exact window.start idle params outcome
  | gather identifier idle =>
    unfold System.gather
    split
    · rename_i running
      refine ⟨fun none => ?_, fun _ => rfl, nofun⟩
      rw [(window.pristine none).1] at running
      cases running
    · exact ⟨window.pristine, window.resting, window.accounted⟩
  | dispose idle =>
    unfold System.dispose
    split
    · rename_i running
      refine ⟨fun none => ?_, fun _ => rfl, nofun⟩
      rw [(window.pristine none).1] at running
      cases running
    · exact window
  | notify event informed => exact window.addEvent informed event
  | take i p number event rest free hqueue named finish =>
    refine ⟨fun none => absurd none (set_ne_nil free p), window.resting, fun running q hq => ?_⟩
    obtain ⟨rfl, alone⟩ := set_eq_singleton free hq
    have before := window.accounted running .idle alone
    rw [System.finish, hqueue] at before
    rw [System.finish, finish]
    exact before
  | process i p p' T hp busy named finish =>
    refine ⟨fun none => absurd none (set_ne_nil hp p'), window.resting, fun running q hq => ?_⟩
    obtain ⟨rfl, alone⟩ := set_eq_singleton hp hq
    have before := window.accounted running p alone
    rw [System.finish, finish]
    exact before
  | quit i free drained shutDown =>
    refine ⟨fun none => absurd none (set_ne_nil free .gone), window.resting,
      fun running q hq => ?_⟩
    obtain ⟨rfl, alone⟩ := set_eq_singleton free hq
    exact window.accounted running .idle alone
  | shutDown _ hc | listed _ hc | listFailed _ hc | report _ _ hc =>
    exact window.busy (by rw [hc]; nofun) rfl rfl
  | next c T before after creates result =>
    refine window.busy (fun idle => ?_) rfl rfl
    rw [idle] at before
    cases before

/-- Where nothing is left to process, the tables of the first window are those of
all notifications that the queue has accepted. -/
theorem FirstWindow.tables (running : s.isRunning = true) (alone : s.processors.length = 1)
    (settled : Settled s) : s.tables = tablesOf s.history := by
  obtain ⟨p, hp⟩ := List.length_eq_one_iff.mp alone
  have accounted := window.accounted running p hp
  rw [System.finish, settled.1] at accounted
  have idle := settled.2 p (hp ▸ List.mem_singleton_self p)
  rw [← accounted]
  cases p with
  | idle | gone => rfl
  | _ => cases idle

end

/-- gather computes from tables that include all notifications enqueued before its
call, throughout a run, exactly if every gather of the run that is carried out
finds nothing queued and nothing being processed. What it then returns follows
from the tables, and in the first window these follow from the notifications. -/
theorem gather_reflects_iff (actions : List Action) :
    (Throughout step Reflects created actions ↔ Along step Guarded created actions) ∧
    ∀ s, exec step created actions = some s → s.isRunning = true → Settled s →
      (∀ identifier response t, Reaches step (Quiet response) (s.gather identifier) t →
        t.controller = .idle →
        t.returned = some (report s.params identifier s.tables response)) ∧
      (s.processors.length = 1 → s.tables = tablesOf s.history) := by
  refine ⟨?_, fun s h running settled => ⟨fun identifier response t reached done => ?_, ?_⟩⟩
  · exact throughout_iff_along (fun _ sound => Sound.reflects sound)
      (fun _ _ _ sound guarded h => Sound.step sound guarded (effect_of_step h))
      (fun _ _ _ sound unguarded h =>
        not_reflects_of_not_guarded sound unguarded (effect_of_step h))
      Sound.created
  · exact returned_of_settled running settled reached done
  · intro alone
    have window : FirstWindow s := exec_keeps
      (fun _ _ _ _ window h => FirstWindow.step window (effect_of_step h)) FirstWindow.created h
    exact window.tables running alone settled

/-- A pod created at 1000 and running since 2000. -/
def runningPod : Pod where
  ns := "test"
  name := "web"
  running := true
  creationTimestamp := 1000
  startedAt := [2000]
  volumes := []

def defaults : Params := ⟨5000000000, 5000000000, 5000000000, false⟩

def notified : List Action := [.start defaults .synced, .notify ⟨some runningPod, 3000⟩]

/-- The goroutine takes the notification and processes it. -/
def processed : List Action :=
  [.take 0, .process 0, .process 0, .process 0, .process 0, .process 0]

/-- gather with no event of the scheduler. -/
def gathered : List Action :=
  [.gather "id", .shutDown, .list (.ok []), .next, .next, .next, .next, .next, .next]

theorem gather_reflects_iff_processed :
    Throughout step Reflects created (notified ++ processed ++ gathered) ∧
    ∃ s, exec step created (notified ++ processed) = some s ∧ s.isRunning = true ∧ Settled s ∧
      s.tables = tablesOf [⟨some runningPod, 3000⟩] := by
  have guarded : Along step Guarded created (notified ++ processed ++ gathered) := by
    decide +kernel
  have final : (exec step created (notified ++ processed)).any (fun s =>
      s.isRunning && decide (Settled s) && s.processors.length == 1 &&
        s.history == [⟨some runningPod, 3000⟩]) = true := by decide +kernel
  obtain ⟨s, h, facts⟩ := (Option.any_eq_true _ _).mp final
  simp only [Bool.and_eq_true, decide_eq_true_eq, beq_iff_eq] at facts
  obtain ⟨⟨⟨running, settled⟩, alone⟩, history⟩ := facts
  refine ⟨(gather_reflects_iff _).1.mpr guarded, s, h, running, settled, ?_⟩
  rw [← history]
  exact ((gather_reflects_iff _).2 s h running settled).2 alone

/-- The median of `pod_startup` over all pods, as returned. -/
def startupMedian (s : System) : Option Int :=
  match s.returned with
  | some (.reported (summary :: _) _) =>
    (summary.latencies.lookup "pod_startup").map LatencyMetric.perc50
  | _ => none

/-- The same notification is reported or not, as far as the goroutine has got. -/
theorem reported_latency_depends :
    ¬ Throughout step Reflects created (notified ++ gathered) ∧
    (exec step created (notified ++ gathered)).bind startupMedian = some 0 ∧
    (exec step created (notified ++ processed ++ gathered)).bind startupMedian = some 2000 := by
  refine ⟨fun reflects => ?_, by decide +kernel, by decide +kernel⟩
  have gathering := ((reflects.2 _ rfl).2 _ rfl).2 _ rfl
  exact not_reflects_of_pending rfl (.inl ⟨_, List.mem_singleton_self _⟩) Nat.zero_lt_one "id"
    gathering.first

end PodStartup
