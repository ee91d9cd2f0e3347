import ClusterLoader.EnabledRuns
import ClusterLoader.TransitionTimes

/-!
# Waiting for a node sync on load balancers

A measure lists the services, starts an informer on node-sync events, labels a
node so that every load balancer has to be synced, and polls until as many
services are recorded as synced as it has selected. The tracker of these records
lives as long as the measurement, and an informer may still be working off
events when its measure has returned; so a handler may be at work at any time,
and looks at the selection of whichever measure is running then.

What the API server answers is given with each step. `delivered` and the two
lists in an outcome are there to state the result: the keys of the node-sync
events delivered since the running measure labelled its node.
-/

namespace NodeSync

open KeyedStore TransitionTimes EnabledRuns

inductive Phase where
  | nodeSyncStart
  | nodeSyncComplete
  deriving DecidableEq

inductive ServiceType where
  | clusterIP
  | nodePort
  | loadBalancer
  | externalName
  deriving DecidableEq

structure Service where
  ns : String
  name : String
  type : ServiceType

structure Event where
  reason : String
  ns : String
  name : String
  creationTimestamp : Int

structure Condition where
  type : String
  status : String

structure Node where
  name : String
  labels : List String
  conditions : List Condition

def keyFunc (ns name : String) : String := ns ++ "/" ++ name

def nodeSyncEventReason : String := "UpdatedLoadBalancer"

def excludeFromLoadBalancersLabel : String :=
  "node.kubernetes.io/exclude-from-external-load-balancers"

def isCandidateNode (node : Node) : Bool :=
  !node.labels.contains excludeFromLoadBalancersLabel && !node.conditions.isEmpty &&
    node.conditions.all fun c => !(c.type == "Ready" && c.status != "True")

/-- A callback at its next access to shared state: the map of the selected
services, then twice the tracker. -/
inductive Handler where
  | lookup (key : String) (t : Int)
  | check (key : String) (t : Int)
  | record (key : String) (t : Int)
  deriving DecidableEq

def Handler.key : Handler → String
  | lookup key _ | check key _ | record key _ => key

inductive Controller where
  | idle
  | informing
  | labelling
  | triggered
  | polling
  deriving DecidableEq

inductive Outcome where
  | failed (err : String)
  | succeeded (selected delivered : List String)
  | gathered (latency : List (String × LatencyMetric))

structure System where
  tracker : ObjectTransitionTimes Phase
  excludedNodeName : String
  lbSvcMap : Store (id : String → String)
  totalLbSvc : Nat
  handlers : List Handler
  controller : Controller
  returned : Option Outcome
  delivered : List String

def created : System where
  tracker := .empty
  excludedNodeName := ""
  lbSvcMap := Store.empty
  totalLbSvc := 0
  handlers := []
  controller := .idle
  returned := none
  delivered := []

def System.return (s : System) (outcome : Outcome) : System :=
  { s with controller := .idle, returned := some outcome }

def selectServices (services : List Service) : Store (id : String → String) :=
  Store.empty.insertAll ((services.filter (·.type = .loadBalancer)).map fun svc =>
    keyFunc svc.ns svc.name)

def measure (s : System) : Except String (List Service) → System
  | .error err => s.return (.failed err)
  | .ok services =>
    let lbSvcMap := selectServices services
    { s with
      lbSvcMap := lbSvcMap
      totalLbSvc := lbSvcMap.entries.length
      controller := .informing }

/-- The candidate is kept from an earlier measure if there is none now. -/
def pickNode (s : System) : Except String (List Node) → System
  | .error err => s.return (.failed err)
  | .ok nodes =>
    let excludedNodeName := ((nodes.find? isCandidateNode).map Node.name).getD s.excludedNodeName
    if excludedNodeName = "" then
      s.return (.failed "failed to find a node candidate to trigger nodesync from node list")
    else { s with excludedNodeName := excludedNodeName, controller := .labelling }

def labelNode (s : System) : Option String → System
  | some err => s.return (.failed err)
  | none => { s with controller := .triggered, delivered := [] }

def setStart (s : System) (now : Int) : System :=
  { s with
    tracker := s.lbSvcMap.entries.foldl (fun o key => o.set key .nodeSyncStart now) s.tracker
    controller := .polling }

def processEvent (s : System) (event : Event) : System :=
  if event.reason ≠ nodeSyncEventReason then s
  else
    let key := keyFunc event.ns event.name
    { s with
      handlers := .lookup key event.creationTimestamp :: s.handlers
      delivered := key :: s.delivered }

/-- The next access of a handler to shared state. -/
def handle (s : System) (h : Handler) : System :=
  let rest := s.handlers.erase h
  match h with
  | .lookup key t =>
    { s with handlers := if key ∈ s.lbSvcMap then .check key t :: rest else rest }
  | .check key t =>
    { s with
      handlers := if (s.tracker.get key .nodeSyncComplete).isSome then rest
        else .record key t :: rest }
  | .record key t =>
    { s with tracker := s.tracker.set key .nodeSyncComplete t, handlers := rest }

def nodeSyncTransition : List (String × Transition Phase) :=
  [("nodesync_start_to_complete", ⟨.nodeSyncStart, .nodeSyncComplete⟩)]

def gather (s : System) : Option String → System
  | some err => s.return (.failed err)
  | none =>
    s.return (.gathered (calculateTransitionsLatency s.tracker nodeSyncTransition fun _ => true))

inductive Action where
  | measure (services : Except String (List Service))
  | pickNode (nodes : Except String (List Node))
  | labelNode (err : Option String)
  | setStart (now : Int)
  | poll
  | timeout
  | gather (err : Option String)
  | deliver (event : Event)
  | handle (h : Handler)

def step (s : System) : Action → Option System
  | .measure services => if s.controller = .idle then some (measure s services) else none
  | .pickNode nodes => if s.controller = .informing then some (pickNode s nodes) else none
  | .labelNode err => if s.controller = .labelling then some (labelNode s err) else none
  | .setStart now => if s.controller = .triggered then some (setStart s now) else none
  | .poll =>
    if s.controller = .polling ∧ s.tracker.count .nodeSyncComplete = s.totalLbSvc then
      some (s.return (.succeeded s.lbSvcMap.entries s.delivered))
    else none
  | .timeout =>
    if s.controller = .polling then
      some (s.return (.failed "timed out waiting for the condition"))
    else none
  | .gather err => if s.controller = .idle then some (gather s err) else none
  | .deliver event => some (processEvent s event)
  | .handle h => if h ∈ s.handlers then some (handle s h) else none

/-- A measure that has returned success had an event for each service it had
selected, delivered after it labelled its node. -/
def Honest (s : System) : Prop :=
  ∀ selected delivered, s.returned = some (.succeeded selected delivered) →
    ∀ key ∈ selected, key ∈ delivered

/-- When a measure labels its node no service is recorded as synced yet, and no
event is still being handled. -/
def Guarded (s : System) : Action → Prop
  | .labelNode none => s.tracker.count .nodeSyncComplete = 0 ∧ s.handlers = []
  | _ => True

instance (s : System) (a : Action) : Decidable (Guarded s a) := by
  unfold Guarded
  split <;> infer_instance

/-- Past its look at the map a handler is at work for a selected service. -/
def Handler.Matched : Handler → Prop
  | lookup _ _ => False
  | check _ _ | record _ _ => True

/-- All that is recorded, or is about to be, comes from events delivered since
the node was labelled, and concerns selected services. -/
structure Fresh (s : System) : Prop where
  recorded : ∀ key, (s.tracker.get key .nodeSyncComplete).isSome = true →
    key ∈ s.lbSvcMap ∧ key ∈ s.delivered
  handled : ∀ h ∈ s.handlers, h.key ∈ s.delivered ∧ (h.Matched → h.key ∈ s.lbSvcMap)

structure Sound (s : System) : Prop where
  honest : Honest s
  total : s.totalLbSvc = s.lbSvcMap.entries.length
  fresh : s.controller = .triggered ∨ s.controller = .polling → Fresh s

theorem sound_created : Sound created where
  honest := nofun
  total := rfl
  fresh := by rintro (h | h) <;> cases h

variable {s t : System}

/-- A call that ends without success. -/
theorem Sound.fail (sound : Sound s) {outcome : Outcome}
    (silent : ∀ selected delivered, outcome ≠ .succeeded selected delivered) :
    Sound (s.return outcome) where
  honest := fun selected delivered h => absurd (Option.some.inj h) (silent selected delivered)
  total := sound.total
  fresh := by rintro (h | h) <;> cases h

theorem Sound.measure (sound : Sound s) (services : Except String (List Service)) :
    Sound (measure s services) := by
  cases services with
  | error err => exact sound.fail nofun
  | ok services => exact ⟨sound.honest, rfl, by rintro (h | h) <;> cases h⟩

theorem Sound.pickNode (sound : Sound s) (nodes : Except String (List Node)) :
    Sound (pickNode s nodes) := by
  cases nodes with
  | error err => exact sound.fail nofun
  | ok nodes =>
    simp only [NodeSync.pickNode]
    split
    · exact sound.fail nofun
    · exact ⟨sound.honest, sound.total, by rintro (h | h) <;> cases h⟩

theorem Sound.labelNode (sound : Sound s) {err : Option String}
    (guarded : Guarded s (.labelNode err)) : Sound (labelNode s err) := by
  cases err with
  | some err => exact sound.fail nofun
  | none =>
    obtain ⟨unrecorded, quiet⟩ := guarded
    refine ⟨sound.honest, sound.total, fun _ => ⟨fun key h => ?_, fun h hh => ?_⟩⟩
    · change (s.tracker.get key .nodeSyncComplete).isSome = true at h
      rw [s.tracker.get_of_count_eq_zero unrecorded key] at h
      cases h
    · change h ∈ s.handlers at hh
      rw [quiet] at hh
      cases hh

theorem get_complete_foldl_start (keys : List String) (now : Int) (key : String)
    (o : ObjectTransitionTimes Phase) :
    (keys.foldl (fun o key => o.set key .nodeSyncStart now) o).get key .nodeSyncComplete =
      o.get key .nodeSyncComplete := by
  induction keys generalizing o with
  | nil => rfl
  | cons first rest ih =>
    rw [List.foldl_cons, ih, ObjectTransitionTimes.get_set, if_neg]
    rintro ⟨_, h⟩
    cases h

theorem Sound.setStart (sound : Sound s) (triggered : s.controller = .triggered) (now : Int) :
    Sound (setStart s now) := by
  have fresh := sound.fresh (.inl triggered)
  refine ⟨sound.honest, sound.total, fun _ => ⟨fun key h => ?_, fresh.handled⟩⟩
  rw [NodeSync.setStart, get_complete_foldl_start] at h
  exact fresh.recorded key h

theorem Sound.processEvent (sound : Sound s) (event : Event) : Sound (processEvent s event) := by
  rw [NodeSync.processEvent]
  split
  · exact sound
  · refine ⟨sound.honest, sound.total, fun running => ?_⟩
    have fresh := sound.fresh running
    refine ⟨fun key h => ?_, List.forall_mem_cons.mpr ⟨⟨List.mem_cons_self, nofun⟩, ?_⟩⟩
    · exact ⟨(fresh.recorded key h).1, List.mem_cons_of_mem _ (fresh.recorded key h).2⟩
    · intro h hh
      exact ⟨List.mem_cons_of_mem _ (fresh.handled h hh).1, (fresh.handled h hh).2⟩

/-- Of the handlers that are left nothing new is to be shown. -/
theorem Fresh.erased (fresh : Fresh s) (h : Handler) :
    ∀ h' ∈ s.handlers.erase h, h'.key ∈ s.delivered ∧ (h'.Matched → h'.key ∈ s.lbSvcMap) :=
  fun h' hh' => fresh.handled h' (List.mem_of_mem_erase hh')

theorem Fresh.handle (fresh : Fresh s) {h : Handler} (present : h ∈ s.handlers) :
    Fresh (handle s h) := by
  obtain ⟨delivered, matched⟩ := fresh.handled h present
  have others := fresh.erased h
  cases h with
  | lookup key t =>
    refine ⟨fresh.recorded, ?_⟩
    simp only [NodeSync.handle]
    split
    · rename_i selected
      exact List.forall_mem_cons.mpr ⟨⟨delivered, fun _ => selected⟩, others⟩
    · exact others
  | check key t =>
    refine ⟨fresh.recorded, ?_⟩
    simp only [NodeSync.handle]
    split
    · exact others
    · exact List.forall_mem_cons.mpr ⟨⟨delivered, fun _ => matched trivial⟩, others⟩
  | record key t =>
    refine ⟨fun key' h => ?_, others⟩
    simp only [NodeSync.handle, ObjectTransitionTimes.get_set] at h
    by_cases same : key' = key
    · subst same
      exact ⟨matched trivial, delivered⟩
    · simp only [same] at h
      exact fresh.recorded key' h

theorem handle_frame (s : System) (h : Handler) :
    (handle s h).controller = s.controller ∧ (handle s h).returned = s.returned ∧
      (handle s h).totalLbSvc = s.totalLbSvc ∧ (handle s h).lbSvcMap = s.lbSvcMap := by
  cases h <;> exact ⟨rfl, rfl, rfl, rfl⟩

theorem Sound.handle (sound : Sound s) {h : Handler} (present : h ∈ s.handlers) :
    Sound (handle s h) := by
  obtain ⟨hcontroller, hreturned, htotal, hmap⟩ := handle_frame s h
  refine ⟨?_, ?_, fun running => ?_⟩
  · rw [Honest, hreturned]
    exact sound.honest
  · rw [htotal, hmap]
    exact sound.total
  · rw [hcontroller] at running
    exact (sound.fresh running).handle present

/-- Where as many services are recorded as were selected, each had its event. -/
theorem Sound.poll (sound : Sound s) (polling : s.controller = .polling)
    (complete : s.tracker.count .nodeSyncComplete = s.totalLbSvc) :
    Sound (s.return (.succeeded s.lbSvcMap.entries s.delivered)) := by
  have fresh := sound.fresh (.inr polling)
  refine ⟨?_, sound.total, by rintro (h | h) <;> cases h⟩
  rintro _ _ ⟨⟩ key hkey
  have recorded := s.tracker.isSome_get_of_length_le (fun key h => (fresh.recorded key h).1)
    (by rw [complete, sound.total]) hkey
  exact (fresh.recorded key recorded).2

theorem Sound.step {a : Action} (sound : Sound s) (guarded : Guarded s a)
    (h : step s a = some t) : Sound t := by
  cases a with
  | measure services =>
    obtain ⟨_, h⟩ := Option.ite_none_right_eq_some.mp h
    cases h
    exact sound.measure services
  | pickNode nodes =>
    obtain ⟨_, h⟩ := Option.ite_none_right_eq_some.mp h
    cases h
    exact sound.pickNode nodes
  | labelNode err =>
    obtain ⟨_, h⟩ := Option.ite_none_right_eq_some.mp h
    cases h
    exact sound.labelNode guarded
  | setStart now =>
    obtain ⟨triggered, h⟩ := Option.ite_none_right_eq_some.mp h
    cases h
    exact sound.setStart triggered now
  | poll =>
    obtain ⟨⟨polling, complete⟩, h⟩ := Option.ite_none_right_eq_some.mp h
    cases h
    exact sound.poll polling complete
  | timeout =>
    obtain ⟨_, h⟩ := Option.ite_none_right_eq_some.mp h
    cases h
    exact sound.fail nofun
  | gather err =>
    obtain ⟨_, h⟩ := Option.ite_none_right_eq_some.mp h
    cases h
    cases err with
    | some | none => exact sound.fail nofun
  | deliver event =>
    cases h
    exact sound.processEvent event
  | handle handler =>
    obtain ⟨present, h⟩ := Option.ite_none_right_eq_some.mp h
    cases h
    exact sound.handle present

/-- In a run in which each measure labels its node before anything is recorded,
success means that every selected service had its event. -/
theorem measures_honest (actions : List Action)
    (guarded : Along NodeSync.step Guarded created actions) :
    Throughout NodeSync.step Honest created actions :=
  throughout_of_along (fun _ sound => sound.honest)
    (fun _ _ _ sound guarded h => sound.step guarded h) sound_created guarded

def service : Service := ⟨"test", "lb", .loadBalancer⟩

def readyNode : Node := ⟨"n", [], [⟨"Ready", "True"⟩]⟩

def synced : Event := ⟨nodeSyncEventReason, "test", "lb", 1⟩

/-- A measure up to its polling. -/
def measuring : List Action :=
  [.measure (.ok [service]), .pickNode (.ok [readyNode]), .labelNode none, .setStart 0]

/-- A measure whose one service is synced. -/
def measured : List Action :=
  measuring ++ [.deliver synced, .handle (.lookup "test/lb" 1), .handle (.check "test/lb" 1),
    .handle (.record "test/lb" 1), .poll]

theorem measures_honest_once :
    Along NodeSync.step Guarded created measured ∧
      Throughout NodeSync.step Honest created measured := by
  have guarded : Along NodeSync.step Guarded created measured := by decide +kernel
  exact ⟨guarded, measures_honest measured guarded⟩

/-- A second measure of the same service succeeds at its first poll, without any
event since it has labelled its node. -/
theorem second_measure_dishonest :
    ∃ s, exec NodeSync.step created (measured ++ measuring ++ [.poll]) = some s ∧
      s.returned = some (.succeeded ["test/lb"] []) ∧ ¬ Honest s := by
  refine ⟨_, rfl, rfl, ?_⟩
  intro honest
  cases honest ["test/lb"] [] rfl "test/lb" List.mem_cons_self

end NodeSync
