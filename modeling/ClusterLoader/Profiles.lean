import ClusterLoader.EnabledRuns

/-!
# Collecting profiles

A profile measurement is started and gathered by actions of the test, one after
another. Starting it begins a collector, a goroutine that asks for profiles every
five minutes until the stop channel is closed; gathering closes the channel and
waits for the collector.

The timer of a select is made when the select is reached, so it cannot fire
before a channel that is closed already is seen. It may have fired when the
channel is closed, and then either case of the select can be taken.

What the cluster answers is given. Exposing the debug endpoint of the API server
only logs its error and is outside this module.
-/

namespace Profiles

open EnabledRuns

structure Cluster where
  supportSSHToMaster : Bool
  apiServerPprofByClientEnabled : Bool
  masterIPs : List String
  getComponentProtocolAndPort : String → Except String (String × Nat)
  etcdCertificatePath : String
  etcdKeyPath : String

structure Summary where
  name : String
  ext : String
  content : String
  deriving DecidableEq

structure ProfileConfig where
  componentName : String
  hosts : List String
  kind : String

inductive Channel where
  | unset
  | opened
  | closed
  deriving DecidableEq

structure ProfileMeasurement where
  name : String
  config : ProfileConfig
  summaries : List Summary
  isRunning : Bool
  stopCh : Channel

def createProfileMeasurement (name kind : String) : ProfileMeasurement where
  name := name
  config := ⟨"", [], kind⟩
  summaries := []
  isRunning := false
  stopCh := .unset

/-- The parameters of a call: what `GetString` makes of them. -/
structure Call where
  action : Except String String
  componentName : Except String String

/-- What a round of the collector is answered. -/
structure Answers where
  /-- The REST client. -/
  doRaw : String → Except String String
  /-- The output of a command on a host. -/
  ssh : String → String → Except String String

section
variable (cluster : Cluster)

/-! ## A profile -/

def getProfileCommand (config : ProfileConfig) : Except String String :=
  match cluster.getComponentProtocolAndPort config.componentName with
  | .error e => .error ("get profile command failed finding component protocol/port: " ++ e)
  | .ok (profileProtocol, profilePort) =>
    let url := profileProtocol ++ "localhost:" ++ toString profilePort ++ "/debug/pprof/" ++
      config.kind
    if config.componentName = "etcd" then
      .ok ("curl -s -k --cert " ++ cluster.etcdCertificatePath ++ " --key " ++
        cluster.etcdKeyPath ++ " " ++ url)
    else .ok ("curl -s -k " ++ url)

/-- The hosts that are left, after the summaries of those before them. -/
def gatherHosts (p : ProfileMeasurement) (answers : Answers) (getCommand : String) :
    List String → List Summary → Except String (Option (List Summary))
  | [], summaries => .ok (some summaries)
  | host :: rest, summaries =>
    let profilePrefix := host ++ "_" ++ p.config.componentName ++ "_" ++ p.name
    if cluster.supportSSHToMaster = false then
      if p.config.componentName = "kube-apiserver" then
        match answers.doRaw ("/debug/pprof/" ++ p.config.kind) with
        | .error e => .error e
        -- the other hosts are not asked
        | .ok body => .ok (some (summaries ++ [⟨profilePrefix, "pprof", body⟩]))
      else .ok none
    else
      match answers.ssh getCommand (host ++ ":22") with
      | .error e => .error ("failed to execute curl command on master node " ++ host ++
          " through SSH: " ++ e)
      | .ok stdout =>
        gatherHosts p answers getCommand rest (summaries ++ [⟨profilePrefix, "pprof", stdout⟩])

def gatherProfile (p : ProfileMeasurement) (answers : Answers) :
    Except String (Option (List Summary)) :=
  match getProfileCommand cluster p.config with
  | .error e => .error ("profile gathering failed during retrieving profile command: " ++ e)
  | .ok getCommand => gatherHosts cluster p answers getCommand p.config.hosts []

/-- The profiles of a round; an error is only logged. -/
def roundProfiles (p : ProfileMeasurement) (answers : Answers) : List Summary :=
  match gatherProfile cluster p answers with
  | .ok (some profiles) => profiles
  | _ => []

/-! ## Actions and the collector -/

def populateProfileConfig (config : ProfileConfig) (call : Call) :
    ProfileConfig × Option String :=
  match call.componentName with
  | .error e => ({ config with componentName := "" }, some e)
  | .ok componentName => ({ config with componentName, hosts := cluster.masterIPs }, none)

inductive Collector where
  /-- In the select, whose timer may have fired. -/
  | select (fired : Bool)
  | gathering
  deriving DecidableEq

/-- What a call has done: whether a start should have begun a collection, and
whether it has; what a gather has returned. -/
inductive Entry where
  | start (able began : Bool)
  | gather (returned : List Summary)
  deriving DecidableEq

structure System where
  measurement : ProfileMeasurement
  /-- The wait group counts it. -/
  collector : Option Collector
  /-- A gather waits for the collector. -/
  stopping : Bool
  panicked : Bool
  /-- Every profile that has been collected. -/
  collected : List Summary
  /-- The calls, the latest first. -/
  log : List Entry

def initial (name kind : String) : System where
  measurement := createProfileMeasurement name kind
  collector := none
  stopping := false
  panicked := false
  collected := []
  log := []

def Cluster.disabled : Bool :=
  !cluster.supportSSHToMaster && cluster.apiServerPprofByClientEnabled

/-- Whether a start would begin a collection if none had been begun before. -/
def able (call : Call) : Bool := call.componentName.isOk && !cluster.masterIPs.isEmpty

def start (s : System) (call : Call) : System :=
  let (config, err) := populateProfileConfig cluster s.measurement.config call
  let p := { s.measurement with config }
  if err.isSome ∨ config.hosts.length < 1 then
    { s with measurement := p, log := .start (able cluster call) false :: s.log }
  else
    { s with
      measurement := { p with summaries := [], isRunning := true, stopCh := .opened }
      collector := some (.select false)
      log := .start (able cluster call) true :: s.log }

/-- A gather up to its wait. A channel is closed only once. -/
def stop (s : System) : System :=
  if s.measurement.isRunning = false then
    { s with log := .gather s.measurement.summaries :: s.log }
  else if s.measurement.stopCh = .opened then
    { s with measurement := { s.measurement with stopCh := .closed }, stopping := true }
  else { s with panicked := true }

def execute (s : System) (call : Call) : System :=
  if cluster.disabled = true then s
  else
    match call.action with
    | .ok "start" =>
      if s.measurement.isRunning = true then
        { s with log := .start (able cluster call) false :: s.log }
      else start cluster s call
    | .ok "gather" => stop s
    | _ => s

inductive Act where
  | execute (call : Call)
  | fire
  /-- The select takes the timer. -/
  | tick
  | round (answers : Answers)
  /-- The select takes the stop channel. -/
  | exit
  /-- The wait of a gather is over. -/
  | gathered

def step (s : System) : Act → Option System
  | .execute call =>
    if s.panicked = true ∨ s.stopping = true then none else some (execute cluster s call)
  | .fire =>
    if s.panicked = false ∧ s.collector = some (.select false) ∧ s.measurement.stopCh = .opened then
      some { s with collector := some (.select true) }
    else none
  | .tick =>
    if s.panicked = false ∧ s.collector = some (.select true) then
      some { s with collector := some .gathering }
    else none
  | .round answers =>
    if s.panicked = false ∧ s.collector = some .gathering then
      let profiles := roundProfiles cluster s.measurement answers
      some { s with
        measurement :=
          { s.measurement with summaries := s.measurement.summaries ++ profiles }
        collector := some (.select false)
        collected := s.collected ++ profiles }
    else none
  | .exit =>
    if s.panicked = false ∧ (∃ fired, s.collector = some (.select fired)) ∧
        s.measurement.stopCh = .closed then
      some { s with collector := none }
    else none
  | .gathered =>
    if s.panicked = false ∧ s.stopping = true ∧ s.collector = none then
      some { s with stopping := false, log := .gather s.measurement.summaries :: s.log }
    else none

/-! ## What the actions should achieve -/

/-- After the calls, no collection has been begun since the last gather. -/
def Due : List Entry → Bool
  | [] => false
  | .gather _ :: _ => true
  | .start _ began :: earlier => !began && Due earlier

/-- Every start after a gather that is able to begin a collection has begun one. -/
def Begun : List Entry → Prop
  | [] => True
  | .gather _ :: earlier => Begun earlier
  | .start able began :: earlier =>
    (able = true → Due earlier = true → began = true) ∧ Begun earlier

/-- What the gathers have returned, the first one first. -/
def returned : List Entry → List Summary
  | [] => []
  | .gather profiles :: earlier => returned earlier ++ profiles
  | .start _ _ :: earlier => returned earlier

/-- What the collection that has not been gathered yet has collected. -/
def System.ungathered (s : System) : List Summary :=
  if s.collector.isSome ∨ s.stopping = true then s.measurement.summaries else []

def Act.ofCollector : Act → Prop
  | .execute _ => False
  | _ => True

/-- No call has closed a closed channel and none is blocked; starts begin
collections, and each collected profile is returned by one gather. -/
structure Sound (s : System) : Prop where
  alive : s.panicked = false
  unblocked : s.stopping = true →
    Terminates (step cluster) Act.ofCollector (fun t => t.stopping = false) s
  begun : Begun s.log
  exact : s.collected = returned s.log ++ s.ungathered

/-- The call is a gather or a start that is able to begin a collection. -/
def asks (call : Call) : Bool :=
  !cluster.disabled &&
    match call.action with
    | .ok "start" => able cluster call
    | .ok "gather" => true
    | _ => false

/-- No collection has been gathered before. -/
def Fresh (s : System) : Act → Prop
  | .execute call => asks cluster call = true → s.measurement.stopCh ≠ .closed
  | _ => True

/-! ## Runs -/

variable {cluster}

/-- The ways in which a step can be taken. -/
inductive Effect (s : System) : Act → System → Prop
  | execute (call : Call) (returns : s.stopping = false) :
    Effect s (.execute call) (execute cluster s call)
  | fire (selects : s.collector = some (.select false)) (opened : s.measurement.stopCh = .opened) :
    Effect s .fire { s with collector := some (.select true) }
  | tick (selects : s.collector = some (.select true)) :
    Effect s .tick { s with collector := some .gathering }
  | round (answers : Answers) (profiles : List Summary) (gathers : s.collector = some .gathering) :
    Effect s (.round answers)
      { s with
        measurement := { s.measurement with summaries := s.measurement.summaries ++ profiles }
        collector := some (.select false)
        collected := s.collected ++ profiles }
  | exit (fired : Bool) (selects : s.collector = some (.select fired))
      (closed : s.measurement.stopCh = .closed) :
    Effect s .exit { s with collector := none }
  | gathered (waits : s.stopping = true) (gone : s.collector = none) :
    Effect s .gathered
      { s with stopping := false, log := .gather s.measurement.summaries :: s.log }

variable {s t : System} {a : Act}

theorem effect_of_step (h : step cluster s a = some t) : @Effect cluster s a t := by
  cases a with
  | execute call =>
    obtain ⟨enabled, ⟨⟩⟩ := Option.ite_none_left_eq_some.mp h
    exact .execute call (eq_false_of_ne_true fun waits => enabled (Or.inr waits))
  | fire =>
    obtain ⟨⟨_, selects, opened⟩, ⟨⟩⟩ := Option.ite_none_right_eq_some.mp h
    exact .fire selects opened
  | tick =>
    obtain ⟨⟨_, selects⟩, ⟨⟩⟩ := Option.ite_none_right_eq_some.mp h
    exact .tick selects
  | round answers =>
    obtain ⟨⟨_, gathers⟩, ⟨⟩⟩ := Option.ite_none_right_eq_some.mp h
    exact .round answers _ gathers
  | exit =>
    obtain ⟨⟨_, ⟨fired, selects⟩, closed⟩, ⟨⟩⟩ := Option.ite_none_right_eq_some.mp h
    exact .exit fired selects closed
  | gathered =>
    obtain ⟨⟨_, waits, gone⟩, ⟨⟩⟩ := Option.ite_none_right_eq_some.mp h
    exact .gathered waits gone

/-- The steps that are left to a collector that has been told to stop. -/
def System.rank (s : System) : Nat :=
  match s.collector with
  | some (.select true) => 4
  | some .gathering => 3
  | some (.select false) => 2
  | none => if s.stopping = true then 1 else 0

/-- Told to stop, and the gather that has done so has not returned before. -/
structure Closing (s : System) : Prop where
  alive : s.panicked = false
  closed : s.measurement.stopCh = .closed
  live : s.collector.isSome = true → s.stopping = true

theorem Closing.step (own : a.ofCollector) (closing : Closing s)
    (h : step cluster s a = some t) : Closing t ∧ t.rank < s.rank := by
  have ⟨alive, closed, live⟩ := closing
  cases effect_of_step h with
  | execute call => exact own.elim
  | fire selects opened => cases closed.symm.trans opened
  | tick selects => exact ⟨⟨alive, closed, fun _ => live (by simp [selects])⟩,
      by simp [System.rank, selects]⟩
  | round answers profiles gathers =>
    exact ⟨⟨alive, closed, fun _ => live (by simp [gathers])⟩, by simp [System.rank, gathers]⟩
  | exit fired selects =>
    refine ⟨⟨alive, closed, nofun⟩, ?_⟩
    cases fired <;> simp only [System.rank, selects] <;> split <;> omega
  | gathered waits gone =>
    exact ⟨⟨alive, closed, fun some => by simp [gone] at some⟩, by simp [System.rank, gone, waits]⟩

theorem Closing.returns_of_stuck (closing : Closing s)
    (stuck : ∀ a, a.ofCollector → Profiles.step cluster s a = none) : s.stopping = false := by
  match hc : s.collector with
  | some .gathering =>
    have := stuck (.round ⟨fun _ => .error "", fun _ _ => .error ""⟩) trivial
    simp [Profiles.step, closing.alive, hc] at this
  | some (.select fired) =>
    have := stuck .exit trivial
    simp [Profiles.step, closing.alive, hc, closing.closed] at this
  | none =>
    by_contra waits
    have := stuck .gathered trivial
    simp [Profiles.step, closing.alive, hc, waits] at this

/-- A gather returns once the channel is closed. -/
theorem Closing.terminates (closing : Closing s) :
    Terminates (Profiles.step cluster) Act.ofCollector (fun t => t.stopping = false) s := by
  refine terminates_of_decreasing System.rank ?_ ?_ ?_ closing
  · exact fun _ _ _ own closing h => (closing.step own h).1
  · exact fun _ _ _ own closing h => (closing.step own h).2
  · exact fun _ closing stuck => closing.returns_of_stuck stuck

/-- Where a measurement is in its life. -/
inductive Mode (s : System) : Prop
  | idle (running : s.measurement.isRunning = false) (summaries : s.measurement.summaries = [])
      (unset : s.measurement.stopCh = .unset) (gone : s.collector = none)
      (returns : s.stopping = false)
  | collecting (running : s.measurement.isRunning = true)
      (opened : s.measurement.stopCh = .opened) (live : s.collector.isSome = true)
      (returns : s.stopping = false) (undue : Due s.log = false)
  | stopping (running : s.measurement.isRunning = true) (closed : s.measurement.stopCh = .closed)
      (waits : s.stopping = true)
  | stopped (running : s.measurement.isRunning = true) (closed : s.measurement.stopCh = .closed)
      (gone : s.collector = none) (returns : s.stopping = false) (due : Due s.log = true)

theorem Mode.of_not_running (mode : Mode s) (running : s.measurement.isRunning = false) :
    s.measurement.summaries = [] ∧ s.measurement.stopCh = .unset ∧ s.collector = none ∧
      s.stopping = false := by
  cases mode with
  | idle _ summaries unset gone returns => exact ⟨summaries, unset, gone, returns⟩
  | collecting yes | stopping yes | stopped yes => cases yes.symm.trans running

theorem Mode.closed_of_stopping (mode : Mode s) (waits : s.stopping = true) :
    s.measurement.isRunning = true ∧ s.measurement.stopCh = .closed := by
  cases mode with
  | idle _ _ _ _ returns | collecting _ _ _ returns => cases waits.symm.trans returns
  | stopping running closed | stopped running closed => exact ⟨running, closed⟩

theorem Mode.due_of_closed (mode : Mode s) (closed : s.measurement.stopCh = .closed)
    (returns : s.stopping = false) : s.measurement.isRunning = true ∧ Due s.log = true := by
  cases mode with
  | idle _ _ unset => cases closed.symm.trans unset
  | collecting _ opened => cases closed.symm.trans opened
  | stopping _ _ waits => cases waits.symm.trans returns
  | stopped running _ _ _ due => exact ⟨running, due⟩

structure Inv (s : System) : Prop where
  alive : s.panicked = false
  mode : Mode s
  begun : Begun s.log
  exact : s.collected = returned s.log ++ s.ungathered

theorem inv_initial (name kind : String) : Inv (initial name kind) where
  alive := rfl
  mode := .idle rfl rfl rfl rfl rfl
  begun := trivial
  exact := rfl

theorem Inv.sound (inv : Inv s) : Sound cluster s :=
  { inv with
    unblocked := by
      intro waits
      have closed := (inv.mode.closed_of_stopping waits).2
      exact Closing.terminates ⟨inv.alive, closed, fun _ => waits⟩ }

/-- A start fails for want of a component or of a host. -/
theorem able_eq_false {config : ProfileConfig} {call : Call}
    (failed : (populateProfileConfig cluster config call).2.isSome = true ∨
      (populateProfileConfig cluster config call).1.hosts.length < 1) :
    able cluster call = false := by
  cases hname : call.componentName with
  | error e => simp [able, hname, Except.toBool]
  | ok name =>
    have hosts : cluster.masterIPs = [] := by simpa [populateProfileConfig, hname] using failed
    simp [able, hosts]

section
variable (inv : Inv s)
include inv

/-- The start of a measurement that does not run. -/
theorem Inv.start (running : s.measurement.isRunning = false) (call : Call) :
    Inv (start cluster s call) := by
  obtain ⟨summaries, unset, gone, returns⟩ := inv.mode.of_not_running running
  have exact : s.collected = returned s.log := by
    simpa [System.ungathered, gone, returns] using inv.exact
  unfold Profiles.start
  dsimp only
  split <;> rename_i failed
  · refine ⟨inv.alive, .idle running summaries unset gone returns, ⟨?_, inv.begun⟩, ?_⟩
    · intro isAble
      cases isAble.symm.trans (able_eq_false failed)
    · simpa [System.ungathered, gone, returns, returned] using exact
  · refine ⟨inv.alive, .collecting rfl rfl rfl returns rfl, ⟨fun _ _ => rfl, inv.begun⟩, ?_⟩
    simpa [System.ungathered, returned] using exact

/-- The collector goes on, with further profiles. -/
theorem Inv.collect (live : s.collector.isSome = true) (collector : Collector)
    (profiles : List Summary) :
    Inv { s with
      measurement := { s.measurement with summaries := s.measurement.summaries ++ profiles }
      collector := some collector
      collected := s.collected ++ profiles } := by
  refine ⟨inv.alive, ?_, inv.begun, ?_⟩
  · cases inv.mode with
    | idle _ _ _ gone => simp [gone] at live
    | collecting running opened _ returns undue =>
      exact .collecting running opened rfl returns undue
    | stopping running closed waits => exact .stopping running closed waits
    | stopped _ _ gone => simp [gone] at live
  · have exact := inv.exact
    simp only [System.ungathered, live] at exact
    simp [System.ungathered, exact]

/-- The start of a measurement that runs. -/
theorem Inv.ignore {able : Bool} (returns : s.stopping = false)
    (running : s.measurement.isRunning = true)
    (unable : s.measurement.stopCh = .closed → able = false) :
    Inv { s with log := .start able false :: s.log } := by
  refine ⟨inv.alive, ?_, ⟨fun isAble due => ?_, inv.begun⟩, inv.exact⟩
  · cases inv.mode with
    | idle no => cases running.symm.trans no
    | collecting _ opened live _ undue => exact .collecting running opened live returns undue
    | stopping _ _ waits => cases waits.symm.trans returns
    | stopped _ closed gone _ due => exact .stopped running closed gone returns due
  · cases inv.mode with
    | idle no => cases running.symm.trans no
    | collecting _ _ _ _ undue => cases due.symm.trans undue
    | stopping _ _ waits => cases waits.symm.trans returns
    | stopped _ closed => cases isAble.symm.trans (unable closed)

theorem Inv.stop (returns : s.stopping = false) (fresh : s.measurement.stopCh ≠ .closed) :
    Inv (stop s) := by
  unfold Profiles.stop
  cases inv.mode with
  | idle running summaries unset gone =>
    rw [if_pos running]
    refine ⟨inv.alive, .idle running summaries unset gone returns, inv.begun, ?_⟩
    simpa [System.ungathered, returned, summaries] using inv.exact
  | collecting running opened live =>
    rw [if_neg (by simp [running]), if_pos opened]
    refine ⟨inv.alive, .stopping running rfl rfl, inv.begun, ?_⟩
    simpa [System.ungathered, live] using inv.exact
  | stopping _ closed | stopped _ closed => exact absurd closed fresh

/-- Before a collection has been gathered, every call does as it should. -/
theorem Inv.execute {call : Call} (returns : s.stopping = false)
    (fresh : Fresh cluster s (.execute call)) : Inv (execute cluster s call) := by
  unfold Profiles.execute
  split
  · exact inv
  rename_i enabled
  split
  · rename_i action
    split
    · rename_i running
      refine inv.ignore returns running fun closed => ?_
      by_contra isAble
      exact fresh (by simpa [asks, enabled, action] using isAble) closed
    · rename_i running
      exact inv.start (eq_false_of_ne_true running) call
  · rename_i action
    exact inv.stop returns (fresh (by simp [asks, enabled, action]))
  · exact inv

theorem Inv.step (fresh : Fresh cluster s a) (h : step cluster s a = some t) : Inv t := by
  cases effect_of_step h with
  | execute call returns => exact inv.execute returns fresh
  | fire selects opened =>
    simpa using inv.collect (by simp [selects]) (.select true) []
  | tick selects =>
    simpa using inv.collect (by simp [selects]) .gathering []
  | round answers profiles gathers =>
    exact inv.collect (by simp [gathers]) (.select false) profiles
  | exit fired selects closed =>
    cases inv.mode with
    | idle _ _ unset => cases closed.symm.trans unset
    | collecting _ opened => cases closed.symm.trans opened
    | stopping running _ waits =>
      refine ⟨inv.alive, .stopping running closed waits, inv.begun, ?_⟩
      simpa [System.ungathered, waits] using inv.exact
    | stopped _ _ gone => cases gone.symm.trans selects
  | gathered waits gone =>
    obtain ⟨running, closed⟩ := inv.mode.closed_of_stopping waits
    refine ⟨inv.alive, .stopped running closed gone rfl rfl, inv.begun, ?_⟩
    simpa [System.ungathered, waits, gone, returned] using inv.exact

/-- Once a collection has been gathered, a start begins none, and a gather
closes the closed channel. -/
theorem Inv.broken (stale : ¬ Fresh cluster s a) (h : Profiles.step cluster s a = some t) :
    ¬ Sound cluster t := by
  intro sound
  cases effect_of_step h with
  | execute call returns =>
    obtain ⟨isAsked, closed⟩ : asks cluster call = true ∧ s.measurement.stopCh = .closed := by
      simpa [Fresh] using stale
    obtain ⟨running, due⟩ := inv.mode.due_of_closed closed returns
    obtain ⟨enabled, isAsked⟩ := (Bool.and_eq_true _ _).mp isAsked
    unfold Profiles.execute at sound
    rw [if_neg (by simpa using enabled)] at sound
    split at isAsked <;> rename_i action
    · simp only [action, if_pos running] at sound
      cases sound.begun.1 isAsked due
    · have panics : (Profiles.stop s).panicked = true := by
        simp [Profiles.stop, running, closed]
      simp only [action] at sound
      cases sound.alive.symm.trans panics
    · cases isAsked
  | fire | tick | round | exit | gathered => exact stale trivial

end

/-- A measurement does as it should exactly as long as nothing is asked of it
once a collection has been gathered. -/
theorem profiles_sound_iff (cluster : Cluster) (name kind : String) (actions : List Act) :
    Throughout (step cluster) (Sound cluster) (initial name kind) actions ↔
      Along (step cluster) (Fresh cluster) (initial name kind) actions := by
  refine throughout_iff_along (q := Inv) ?_ ?_ ?_ (inv_initial name kind)
  · exact fun _ inv => inv.sound
  · exact fun _ _ _ inv fresh h => inv.step fresh h
  · exact fun _ _ _ inv stale h => inv.broken stale h

end

section Counterexample

private def master : Cluster where
  supportSSHToMaster := true
  apiServerPprofByClientEnabled := false
  masterIPs := ["10.0.0.1"]
  getComponentProtocolAndPort := fun _ => .ok ("http://", 10251)
  etcdCertificatePath := ""
  etcdKeyPath := ""

private def startCall : Call := ⟨.ok "start", .ok "kube-scheduler"⟩

private def gatherCall : Call := ⟨.ok "gather", .ok "kube-scheduler"⟩

/-- A collection, from its start to the return of its gather. -/
private def cycle : List Act := [.execute startCall, .execute gatherCall, .exit, .gathered]

/-- After one collection, a second gather closes the closed channel, and a
second start begins no collection. -/
theorem second_actions_fail :
    (∃ t, exec (step master) (initial "CPUProfile" "profile") (cycle ++ [.execute gatherCall]) =
      some t ∧ t.panicked = true) ∧
    ∃ t, exec (step master) (initial "CPUProfile" "profile") (cycle ++ [.execute startCall]) =
      some t ∧ t.log = [.start true false, .gather [], .start true true] ∧ t.collector = none := by
  constructor
  · decide +kernel
  · exact ⟨_, rfl, by decide, by decide⟩

end Counterexample

end Profiles
