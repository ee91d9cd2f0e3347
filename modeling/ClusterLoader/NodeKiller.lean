import ClusterLoader.EnabledRuns
import ClusterLoader.TestExecution
import Mathlib.Data.Fintype.EquivFin
import Mathlib.Data.Rat.Floor

/-!
# The node killer next to a test

The chaos monkey runs in a goroutine of its own from its start until it sees
the closed stop channel. Round by round it picks nodes and for each of them
starts a goroutine that stops the node's services, waits and reboots the node;
a round is over when all of them are. The test closes the channel and, on one
of its ways out, waits for the killer.

The system here is the killer together with the calls of the test. Time is not
modelled: a sleep may end at any moment. The main theorem says for which calls
of a test nothing is stopped after its return and every stopped node has been
rebooted, however the two interleave.
-/

namespace NodeKiller

open RequestPrograms RequestPrograms.Prog TestConfig TestExecution EnabledRuns

inductive NodeAction where
  | stopServices
  | rebootNode
  deriving DecidableEq

/-- Where the goroutine for one node stands. -/
inductive Thread where
  | begun
  | stopping
  | down
  | awake
  | rebooting
  | done
  deriving DecidableEq

/-- Where Run stands: `checking` is the top of the loop of JitterUntil. -/
inductive Killer where
  | absent
  | sleeping
  | checking
  | picking
  | killing (threads : List (String × Thread))
  | resting
  | ended
  | crashed
  deriving DecidableEq

structure System where
  killer : Killer
  stopped : Bool
  failureRate : ℚ
  killedNodes : List String
  events : List (NodeAction × String)
  /-- The nodes whose services have been stopped; the killer does not keep it. -/
  stoppedNodes : List String
  deriving DecidableEq

inductive Picked where
  | failed (err : String)
  | panics
  | nodes (names : List String)

def candidates (killedNodes allNodes prometheusNodes : List String) : List String :=
  allNodes.filter fun node => node ∉ prometheusNodes.filter (· ≠ "") ∧ node ∉ killedNodes

/-- The first nodes of the shuffled candidates; a negative number of nodes is
out of the bounds of the slice. -/
def takeNodes (failureRate : ℚ) (shuffled : List String) : Picked :=
  let numNodes := ⌈failureRate * shuffled.length⌉
  if shuffled.length > numNodes then
    if numNodes < 0 then .panics else .nodes (shuffled.take numNodes.toNat)
  else .nodes shuffled

/-- The nodes and the nodes of the Prometheus pods as the API server lists
them, and what the shuffle makes of the candidates. -/
def pickNodes (s : System) (allNodes prometheusNodes : Except String (List String))
    (shuffled : List String) : Option Picked :=
  match allNodes, prometheusNodes with
  | .error e, _ => some (.failed e)
  | .ok _, .error e => some (.failed e)
  | .ok allNodes, .ok prometheusNodes =>
    if shuffled.Perm (candidates s.killedNodes allNodes prometheusNodes) then
      some (takeNodes s.failureRate shuffled)
    else none

inductive KillerStep where
  | wake
  | check
  | pick (allNodes prometheusNodes : Except String (List String)) (shuffled : List String)
  | stopServices (i : Nat)
  | servicesStopped (i : Nat) (err : Option String)
  | downtimeOver (i : Nat)
  | reboot (i : Nat)
  | rebooted (i : Nat) (err : Option String)
  | join
  | rested
  | interrupted

/-- The command that stops a node is given or takes effect. -/
def KillerStep.stopsNode : KillerStep → Bool
  | .stopServices _ => true
  | .servicesStopped _ none => true
  | _ => false

def System.thread? (s : System) (i : Nat) : Option (String × Thread) :=
  match s.killer with
  | .killing threads => threads[i]?
  | _ => none

def Killer.setThread (i : Nat) (thread : String × Thread) : Killer → Killer
  | .killing threads => .killing (threads.set i thread)
  | killer => killer

def System.setThread (s : System) (i : Nat) (node : String) (thread : Thread) : System :=
  { s with killer := s.killer.setThread i (node, thread) }

def killed (s : System) : Picked → System
  | .failed _ => { s with killer := .resting }
  | .panics => { s with killer := .crashed }
  | .nodes names =>
    { s with
      killer := .killing (names.map (·, .begun))
      killedNodes := s.killedNodes ++ names }

/-- Run, JitterUntil and kill. -/
def killerStep (s : System) : KillerStep → Option System
  | .wake => if s.killer = .sleeping then some { s with killer := .checking } else none
  | .check =>
    if s.killer = .checking then
      some { s with killer := if s.stopped then .ended else .picking }
    else none
  | .pick allNodes prometheusNodes shuffled =>
    if s.killer = .picking then (pickNodes s allNodes prometheusNodes shuffled).map (killed s)
    else none
  | .stopServices i =>
    match s.thread? i with
    | some (node, .begun) =>
      some { s.setThread i node .stopping with events := s.events ++ [(.stopServices, node)] }
    | _ => none
  | .servicesStopped i err =>
    match s.thread? i with
    | some (node, .stopping) =>
      match err with
      | some _ => some (s.setThread i node .done)
      | none => some { s.setThread i node .down with stoppedNodes := s.stoppedNodes ++ [node] }
    | _ => none
  | .downtimeOver i =>
    match s.thread? i with
    | some (node, .down) => some (s.setThread i node .awake)
    | _ => none
  | .reboot i =>
    match s.thread? i with
    | some (node, .awake) =>
      some { s.setThread i node .rebooting with events := s.events ++ [(.rebootNode, node)] }
    | _ => none
  | .rebooted i _ =>
    match s.thread? i with
    | some (node, .rebooting) => some (s.setThread i node .done)
    | _ => none
  | .join =>
    match s.killer with
    | .killing threads =>
      if ∀ t ∈ threads, t.2 = .done then some { s with killer := .resting } else none
    | _ => none
  | .rested => if s.killer = .resting then some { s with killer := .checking } else none
  | .interrupted =>
    if s.killer = .resting ∧ s.stopped then some { s with killer := .ended } else none

/-- What a call of the test does to the killer. A test starts it once. -/
def callStep (s : System) : Event Reply → Option System
  | ⟨.startNodeKiller config excludedNodes, none⟩ =>
    if s.killer = .absent then
      some { s with
        killer := .sleeping
        failureRate := config.failureRate
        killedNodes := excludedNodes }
    else none
  | ⟨.closeStopCh, _⟩ => some { s with stopped := true }
  | ⟨.waitChaosMonkey, _⟩ => if s.killer = .ended then some s else none
  | _ => some s

inductive Action where
  | call (e : Event Reply)
  | killer (k : KillerStep)

def Action.call? : Action → Option (Event Reply)
  | .call e => some e
  | .killer _ => none

/-- A panic of the killer ends the process. -/
def act (s : System) : Action → Option System
  | .call e => if s.killer = .crashed then none else callStep s e
  | .killer k => killerStep s k

def idle : System := ⟨.absent, false, 0, [], [], []⟩

/-- The calls of a test interleaved with the killer, and what the killer still
does after the return. -/
structure ChaosRun (t : List (Event Reply)) where
  before : List Action
  after : List KillerStep
  last : System
  calls : before.filterMap Action.call? = t
  legal : exec act idle (before ++ after.map .killer) = some last

/-- Nothing is stopped after the return, and what has been stopped has been
rebooted. -/
def ChaosRun.EndsWithTest {t : List (Event Reply)} (run : ChaosRun t) : Prop :=
  (∀ k ∈ run.after, k.stopsNode = false) ∧
    ∀ node ∈ run.last.stoppedNodes, (.rebootNode, node) ∈ run.last.events

variable {node : String}

section Steps
variable {s s' : System}

theorem thread?_eq_none (h : ∀ threads, s.killer ≠ .killing threads) (i : Nat) :
    s.thread? i = none := by
  rw [System.thread?]
  split
  next threads hk => exact absurd hk (h threads)
  next => rfl

theorem thread?_killing {threads : List (String × Thread)} (h : s.killer = .killing threads)
    (i : Nat) : s.thread? i = threads[i]? := by
  rw [System.thread?, h]

variable {shuffled names : List String} {failureRate : ℚ}

/-- As many nodes as the rate asks for, or all of them. -/
theorem takeNodes_eq (h : takeNodes failureRate shuffled = .nodes names) :
    0 ≤ ⌈failureRate * shuffled.length⌉ ∧
      names = shuffled.take ⌈failureRate * shuffled.length⌉.toNat := by
  simp only [takeNodes] at h
  split at h
  · split at h
    · cases h
    · exact ⟨by omega, (Picked.nodes.inj h).symm⟩
  · obtain rfl := Picked.nodes.inj h
    exact ⟨by omega, (List.take_of_length_le (by omega)).symm⟩

/-- No rate above 0, no nodes. -/
theorem takeNodes_of_rate (none : failureRate ≤ 0)
    (h : takeNodes failureRate shuffled = .nodes names) : names = [] := by
  have hnum : ⌈failureRate * shuffled.length⌉ ≤ 0 := by
    rw [Int.ceil_le]
    exact mul_nonpos_of_nonpos_of_nonneg none (Nat.cast_nonneg _)
  rw [(takeNodes_eq h).2, Int.toNat_of_nonpos hnum, List.take_zero]

variable {allNodes prometheusNodes : Except String (List String)}

theorem takeNodes_of_pickNodes
    (h : pickNodes s allNodes prometheusNodes shuffled = some (.nodes names)) :
    takeNodes s.failureRate shuffled = .nodes names := by
  cases allNodes with
  | error e => cases h
  | ok allNodes =>
    cases prometheusNodes with
    | error e => cases h
    | ok prometheusNodes => exact Option.some.inj (Option.ite_none_right_eq_some.mp h).2

/-- What a step of the killer does: it moves from one stage of a round to the
next, or one of the goroutines of the round takes a step. -/
inductive Effect (s : System) (k : KillerStep) (s' : System) : Prop
  | round (harmless : k.stopsNode = false)
      (alive : s.killer ≠ .absent ∧ s.killer ≠ .ended)
      (allDone : ∀ i t, s.thread? i = some t → t.2 = .done)
      (begun : ∀ i t, s'.thread? i = some t → t.2 = .begun ∧ 0 < s.failureRate)
      (failureRate : s'.failureRate = s.failureRate)
      (events : s'.events = s.events)
      (stoppedNodes : s'.stoppedNodes = s.stoppedNodes)
  | thread {i : Nat} {node : String} {old new : Thread} {events : List (NodeAction × String)}
      {stoppedNodes : List String} (of : s.thread? i = some (node, old))
      (becomes : ∀ j, s'.thread? j = if j = i then some (node, new) else s.thread? j)
      (failureRate : s'.failureRate = s.failureRate)
      (recorded : s'.events = s.events ++ events)
      (stopped : s'.stoppedNodes = s.stoppedNodes ++ stoppedNodes)
      (goesDown : ∀ n ∈ stoppedNodes, n = node ∧ new = .down)
      (repairs : old = .down ∨ old = .awake →
        new = .down ∨ new = .awake ∨ (.rebootNode, node) ∈ events)

theorem thread?_set {i : Nat} {old new : Thread} (of : s.thread? i = some (node, old))
    (killer : s'.killer = s.killer.setThread i (node, new)) (j : Nat) :
    s'.thread? j = if j = i then some (node, new) else s.thread? j := by
  rw [System.thread?] at of
  split at of
  next threads hk =>
    rw [hk] at killer
    rw [thread?_killing killer, thread?_killing hk, List.getElem?_set]
    have bound : i < threads.length := (List.getElem?_eq_some_iff.mp of).1
    by_cases same : j = i
    · subst same
      rw [if_pos rfl, if_pos rfl, if_pos bound]
    · rw [if_neg (Ne.symm same), if_neg same]
  next => cases of

variable {k : KillerStep}

/-- A goroutine goes on without a record and without stopping its node. -/
theorem Effect.quietly {i : Nat} {old new : Thread} (of : s.thread? i = some (node, old))
    (killer : s'.killer = s.killer.setThread i (node, new))
    (failureRate : s'.failureRate = s.failureRate) (events : s'.events = s.events)
    (stoppedNodes : s'.stoppedNodes = s.stoppedNodes)
    (repairs : old = .down ∨ old = .awake → new = .awake) : Effect s k s' := by
  have recorded : s'.events = s.events ++ [] := by rw [events, List.append_nil]
  have stopped : s'.stoppedNodes = s.stoppedNodes ++ [] := by rw [stoppedNodes, List.append_nil]
  exact .thread of (thread?_set of killer) failureRate recorded stopped nofun
    fun h => .inr (.inl (repairs h))

/-- A step between the rounds, where no goroutine is left. -/
theorem Effect.between (harmless : k.stopsNode = false)
    (alive : s.killer ≠ .absent ∧ s.killer ≠ .ended) (free : ∀ threads, s.killer ≠ .killing threads)
    (begun : ∀ i t, s'.thread? i = some t → t.2 = .begun ∧ 0 < s.failureRate)
    (failureRate : s'.failureRate = s.failureRate) (events : s'.events = s.events)
    (stoppedNodes : s'.stoppedNodes = s.stoppedNodes) : Effect s k s' := by
  refine .round harmless alive ?_ begun failureRate events stoppedNodes
  intro i t ht
  rw [thread?_eq_none free] at ht
  cases ht

theorem begun_of_free (free : ∀ threads, s'.killer ≠ .killing threads) (i : Nat)
    (t : String × Thread) (ht : s'.thread? i = some t) : t.2 = .begun ∧ 0 < s.failureRate := by
  rw [thread?_eq_none free] at ht
  cases ht

theorem killed_effect (harmless : k.stopsNode = false) (hk : s.killer = .picking)
    {shuffled : List String} {picked : Picked}
    (h : pickNodes s allNodes prometheusNodes shuffled = some picked) :
    Effect s k (killed s picked) := by
  refine .between harmless (by rw [hk]; exact ⟨nofun, nofun⟩) (by rw [hk]; exact nofun) ?_ ?_ ?_ ?_
  · cases picked with
    | failed | panics => exact begun_of_free nofun
    | nodes names =>
      intro i t ht
      have hmem := List.mem_of_getElem? ((thread?_killing rfl i).symm.trans ht)
      obtain ⟨node, hnode, rfl⟩ := List.mem_map.mp hmem
      refine ⟨rfl, lt_of_not_ge fun none => ?_⟩
      rw [takeNodes_of_rate none (takeNodes_of_pickNodes h)] at hnode
      cases hnode
  all_goals cases picked <;> rfl

theorem moved_effect {old new : Killer} (harmless : k.stopsNode = false)
    (hk : s.killer = old) (alive : old ≠ .absent ∧ old ≠ .ended)
    (free : ∀ threads, old ≠ .killing threads) (free' : ∀ threads, new ≠ .killing threads) :
    Effect s k { s with killer := new } := by
  subst hk
  exact .between harmless alive free (begun_of_free free') rfl rfl rfl

theorem killerStep_effect (h : killerStep s k = some s') : Effect s k s' := by
  cases k with
  | wake =>
    obtain ⟨hk, hs⟩ := Option.ite_none_right_eq_some.mp h
    cases hs
    exact moved_effect rfl hk ⟨nofun, nofun⟩ nofun nofun
  | check =>
    obtain ⟨hk, hs⟩ := Option.ite_none_right_eq_some.mp h
    cases hs
    refine moved_effect rfl hk ⟨nofun, nofun⟩ nofun ?_
    split <;> exact nofun
  | pick allNodes prometheusNodes shuffled =>
    obtain ⟨hk, hs⟩ := Option.ite_none_right_eq_some.mp h
    obtain ⟨picked, hpick, rfl⟩ := Option.map_eq_some_iff.mp hs
    exact killed_effect rfl hk hpick
  | stopServices i =>
    rw [killerStep] at h
    split at h
    next node of =>
      cases h
      exact .thread of (thread?_set of rfl) rfl rfl (List.append_nil _).symm nofun
        (fun h => by rcases h with h | h <;> cases h)
    next => cases h
  | servicesStopped i err =>
    rw [killerStep] at h
    split at h
    next node of =>
      cases err with
      | some e =>
        cases h
        exact .quietly of rfl rfl rfl rfl (fun h => by rcases h with h | h <;> cases h)
      | none =>
        cases h
        refine .thread of (thread?_set of rfl) rfl (List.append_nil _).symm rfl ?_ ?_
        · intro n hn
          exact ⟨List.mem_singleton.mp hn, rfl⟩
        · exact fun _ => .inl rfl
    next => cases h
  | downtimeOver i =>
    rw [killerStep] at h
    split at h
    next node of =>
      cases h
      exact .quietly of rfl rfl rfl rfl fun _ => rfl
    next => cases h
  | reboot i =>
    rw [killerStep] at h
    split at h
    next node of =>
      cases h
      exact .thread of (thread?_set of rfl) rfl rfl (List.append_nil _).symm nofun
        (fun _ => .inr (.inr List.mem_cons_self))
    next => cases h
  | rebooted i err =>
    rw [killerStep] at h
    split at h
    next node of =>
      cases h
      exact .quietly of rfl rfl rfl rfl (fun h => by rcases h with h | h <;> cases h)
    next => cases h
  | join =>
    rw [killerStep] at h
    split at h
    next threads hk =>
      obtain ⟨allDone, hs⟩ := Option.ite_none_right_eq_some.mp h
      cases hs
      refine .round rfl (by rw [hk]; exact ⟨nofun, nofun⟩) ?_ (begun_of_free nofun) rfl rfl rfl
      intro i t ht
      exact allDone t (List.mem_of_getElem? ((thread?_killing hk i).symm.trans ht))
    next => cases h
  | rested =>
    obtain ⟨hk, hs⟩ := Option.ite_none_right_eq_some.mp h
    cases hs
    exact moved_effect rfl hk ⟨nofun, nofun⟩ nofun nofun
  | interrupted =>
    obtain ⟨hk, hs⟩ := Option.ite_none_right_eq_some.mp h
    cases hs
    exact moved_effect rfl hk.1 ⟨nofun, nofun⟩ nofun nofun

/-- The killer that has ended takes no step. -/
theorem Effect.ne_ended (effect : Effect s k s') : s.killer ≠ .ended := by
  intro hk
  cases effect with
  | round harmless alive => exact alive.2 hk
  | thread of =>
    rw [thread?_eq_none (by rw [hk]; exact nofun)] at of
    cases of

/-- A call leaves the goroutines and the records alone. -/
structure CallEffect (s : System) (e : Event Reply) (s' : System) : Prop where
  thread? : ∀ i, s'.thread? i = s.thread? i
  events : s'.events = s.events
  stoppedNodes : s'.stoppedNodes = s.stoppedNodes
  ended : s.killer = .ended → s'.killer = .ended
  failureRate : s'.failureRate = s.failureRate ∨ ∃ config excludedNodes,
    e = ⟨.startNodeKiller config excludedNodes, none⟩ ∧ s'.failureRate = config.failureRate

variable {e : Event Reply}

theorem callStep_effect (h : callStep s e = some s') : CallEffect s e s' := by
  have same : some s = some s' → CallEffect s e s' := by
    intro hs
    cases hs
    exact ⟨fun _ => rfl, rfl, rfl, id, .inl rfl⟩
  obtain ⟨q, r⟩ := e
  cases q with
  | startNodeKiller config excludedNodes =>
    cases r with
    | some e => exact same h
    | none =>
      obtain ⟨hk, hs⟩ := Option.ite_none_right_eq_some.mp h
      cases hs
      refine ⟨fun i => ?_, rfl, rfl, fun ended => ?_, .inr ⟨config, excludedNodes, rfl, rfl⟩⟩
      · have free : s.thread? i = none := thread?_eq_none (by rw [hk]; exact nofun) i
        rw [free]
        exact thread?_eq_none (fun _ h => by cases h) i
      · cases hk.symm.trans ended
  | closeStopCh =>
    cases h
    exact ⟨fun _ => rfl, rfl, rfl, id, .inl rfl⟩
  | waitChaosMonkey => exact same (Option.ite_none_right_eq_some.mp h).2
  | _ => exact same h

theorem act_call (h : act s (.call e) = some s') : CallEffect s e s' :=
  callStep_effect (Option.ite_none_left_eq_some.mp h).2

theorem act_killer (h : act s (.killer k) = some s') : Effect s k s' :=
  killerStep_effect h

theorem ended_stays {a : Action} (h : act s a = some s') (hk : s.killer = .ended) :
    s'.killer = .ended := by
  cases a with
  | call e => exact (act_call h).ended hk
  | killer k => exact absurd hk (act_killer h).ne_ended

/-- The killer has nothing to do. -/
structure Harmless (s : System) : Prop where
  failureRate : s.failureRate ≤ 0
  free : ∀ i, s.thread? i = none
  stoppedNodes : s.stoppedNodes = []

theorem harmless_idle : Harmless idle := ⟨le_refl _, fun _ => rfl, rfl⟩

theorem Harmless.killer (harmless : Harmless s) (effect : Effect s k s') :
    Harmless s' ∧ k.stopsNode = false := by
  cases effect with
  | round stops alive allDone begun failureRate events stoppedNodes =>
    refine ⟨⟨failureRate ▸ harmless.failureRate, fun i => ?_,
      stoppedNodes.trans harmless.stoppedNodes⟩, stops⟩
    cases ht : s'.thread? i with
    | none => rfl
    | some t => exact absurd (begun i t ht).2 (not_lt_of_ge harmless.failureRate)
  | thread of =>
    rw [harmless.free] at of
    cases of

theorem Harmless.call (harmless : Harmless s) (effect : CallEffect s e s')
    (rates : ∀ config excludedNodes, e = ⟨.startNodeKiller config excludedNodes, none⟩ →
      config.failureRate ≤ 0) : Harmless s' := by
  refine ⟨?_, fun i => (effect.thread? i).trans (harmless.free i),
    effect.stoppedNodes.trans harmless.stoppedNodes⟩
  rcases effect.failureRate with same | ⟨config, excludedNodes, he, rate⟩
  · rw [same]
    exact harmless.failureRate
  · rw [rate]
    exact rates config excludedNodes he

/-- Every stopped node has been rebooted or is about to be. -/
def InRepair (s : System) : Prop :=
  ∀ node ∈ s.stoppedNodes, (.rebootNode, node) ∈ s.events ∨
    ∃ i, s.thread? i = some (node, .down) ∨ s.thread? i = some (node, .awake)

theorem inRepair_killer (inRepair : InRepair s) (effect : Effect s k s') : InRepair s' := by
  intro node hnode
  cases effect with
  | round stops alive allDone begun failureRate events stoppedNodes =>
    rw [stoppedNodes] at hnode
    rw [events]
    rcases inRepair node hnode with rebooted | ⟨i, down | awake⟩
    · exact .inl rebooted
    · cases allDone i _ down
    · cases allDone i _ awake
  | @thread i node' old new events stoppedNodes of becomes failureRate recorded stopped goesDown
      repairs =>
    have hself := becomes i
    rw [if_pos rfl] at hself
    rw [stopped] at hnode
    rw [recorded]
    -- a goroutine other than `i` is where it was; `i` goes on with its repair
    have goesOn : ∀ {j thread}, s.thread? j = some (node, thread) →
        thread = .down ∨ thread = .awake → (.rebootNode, node) ∈ s.events ++ events ∨
          ∃ i, s'.thread? i = some (node, .down) ∨ s'.thread? i = some (node, .awake) := by
      intro j thread hj waiting
      by_cases same : j = i
      · subst same
        cases of.symm.trans hj
        rcases repairs waiting with rfl | rfl | rebooted
        · exact .inr ⟨j, .inl hself⟩
        · exact .inr ⟨j, .inr hself⟩
        · exact .inl (List.mem_append_right _ rebooted)
      · have hother := (becomes j).trans ((if_neg same).trans hj)
        rcases waiting with rfl | rfl
        · exact .inr ⟨j, .inl hother⟩
        · exact .inr ⟨j, .inr hother⟩
    rcases List.mem_append.mp hnode with hold | hnew
    · rcases inRepair node hold with rebooted | ⟨j, down | awake⟩
      · exact .inl (List.mem_append_left _ rebooted)
      · exact goesOn down (.inl rfl)
      · exact goesOn awake (.inr rfl)
    · obtain ⟨rfl, rfl⟩ := goesDown node hnew
      exact .inr ⟨i, .inl hself⟩

theorem inRepair_act {a : Action} (inRepair : InRepair s) (h : act s a = some s') :
    InRepair s' := by
  cases a with
  | call e =>
    have effect := act_call h
    simpa only [InRepair, effect.stoppedNodes, effect.events, effect.thread?] using inRepair
  | killer k => exact inRepair_killer inRepair (act_killer h)

end Steps

section Runs
variable {t : List (Event Reply)}

theorem ChaosRun.mem_calls (run : ChaosRun t) {e : Event Reply} :
    .call e ∈ run.before ↔ e ∈ t := by
  have hmem : e ∈ t ↔ e ∈ run.before.filterMap Action.call? := by rw [run.calls]
  rw [hmem, List.mem_filterMap]
  constructor
  · exact fun h => ⟨_, h, rfl⟩
  · rintro ⟨a, ha, hcall⟩
    cases a with
    | call e' =>
      cases hcall
      exact ha
    | killer k => cases hcall

/-- A killer without a rate stops no node. -/
theorem endsWithTest_of_rate (run : ChaosRun t)
    (rates : ∀ config excludedNodes, ⟨.startNodeKiller config excludedNodes, none⟩ ∈ t →
      config.failureRate ≤ 0) : run.EndsWithTest := by
  have kept : ∀ s a s', a ∈ run.before ++ run.after.map .killer → Harmless s →
      act s a = some s' → Harmless s' := by
    intro s a s' hmem harmless h
    cases a with
    | call e =>
      refine harmless.call (act_call h) ?_
      rintro config excludedNodes rfl
      refine rates config excludedNodes (run.mem_calls.mp ?_)
      rcases List.mem_append.mp hmem with hbefore | hafter
      · exact hbefore
      · obtain ⟨k, -, hk⟩ := List.mem_map.mp hafter
        cases hk
    | killer k => exact (harmless.killer (act_killer h)).1
  constructor
  · intro k hk
    have hmem : Action.killer k ∈ run.before ++ run.after.map .killer :=
      List.mem_append_right _ (List.mem_map_of_mem hk)
    obtain ⟨s, s', -, harmless, taken, -⟩ := exec_enabled kept harmless_idle run.legal hmem
    exact (harmless.killer (act_killer taken)).2
  · rw [(exec_keeps kept harmless_idle run.legal).stoppedNodes]
    exact nofun

/-- Once the test has waited for the killer, all is over. -/
theorem endsWithTest_of_wait (run : ChaosRun t) (waited : ⟨.waitChaosMonkey, ()⟩ ∈ t) :
    run.EndsWithTest := by
  obtain ⟨mid, hbefore, hafter⟩ := exec_append_some run.legal
  have ended : mid.killer = .ended := by
    obtain ⟨s, s', rest, -, taken, -, hrest⟩ := exec_enabled (p := fun _ => True)
      (fun _ _ _ _ _ _ => trivial) trivial hbefore (run.mem_calls.mpr waited)
    have hk : s.killer = .ended :=
      (Option.ite_none_right_eq_some.mp (Option.ite_none_left_eq_some.mp taken).2).1
    exact exec_keeps (p := fun s => s.killer = .ended) (fun _ _ _ _ hk h => ended_stays h hk)
      (ended_stays taken hk) hrest
  have nothing : run.after = [] := by
    cases hk : run.after with
    | nil => rfl
    | cons k rest =>
      rw [hk] at hafter
      obtain ⟨s, taken, -⟩ := exec_cons_some hafter
      exact absurd ended (act_killer taken).ne_ended
  rw [nothing] at hafter
  have hlast : mid = run.last := Option.some.inj hafter
  have inRepair : InRepair run.last :=
    exec_keeps (fun _ _ _ _ holds h => inRepair_act holds h) (by exact nofun) run.legal
  constructor
  · rw [nothing]
    exact nofun
  · intro node hnode
    have free : ∀ i, run.last.thread? i = none :=
      thread?_eq_none (by rw [← hlast, ended]; exact nofun)
    rcases inRepair node hnode with rebooted | ⟨i, down | awake⟩
    · exact rebooted
    · cases (free i).symm.trans down
    · cases (free i).symm.trans awake

end Runs

variable {t : List (Event Reply)}

section Refusals

/-- A reply that makes the test return before its steps: namespaces that cannot
be prepared or a dependency that cannot be set up. -/
def refuses (ns : NamespaceConfig) : Event Reply → Bool
  | ⟨.listAutomanagedNamespaces, .error _⟩ => true
  | ⟨.listAutomanagedNamespaces, .ok (current, _)⟩ =>
    current ≠ [] ∧ ns.enableExistingNamespaces = some false
  | ⟨.createAutomanagedNamespaces _ _ _, some _⟩ => true
  | ⟨.createDependency _, some _⟩ => true
  | ⟨.serverVersion .setup, some _⟩ => true
  | ⟨.setup _ _, some _⟩ => true
  | ⟨.setupWithTimeout _ _, .returned none⟩ => false
  | ⟨.setupWithTimeout _ _, _⟩ => true
  | _ => false

variable (ns : NamespaceConfig)

theorem any_refuses_eq_false :
    t.any (refuses ns) = false ↔ ∀ e ∈ t, refuses ns e = false := by
  simp only [List.any_eq_false, Bool.not_eq_true]

theorem ensures_unrefused {A : Type} {p : Program A}
    (h : p.Uses (fun _ _ => True) fun q => ∀ r, refuses ns ⟨q, r⟩ = false) :
    p.Ensures fun t _ => t.any (refuses ns) = false :=
  fun t a he => (any_refuses_eq_false ns).mpr (ensures_forall h t a he)

theorem prepareTestNamespaces_refuses :
    (prepareTestNamespaces ns).Ensures fun t err => t.any (refuses ns) = err.isSome := by
  refine ensures_request_bind fun r => ?_
  rcases r with e | ⟨current, stale⟩
  · exact ensures_done rfl
  · dsimp only
    split
    next found =>
      refine ensures_done ?_
      have hfound : refuses ns ⟨.listAutomanagedNamespaces, .ok (current, stale)⟩ = true :=
        decide_eq_true found
      rw [List.any_cons, hfound]
      rfl
    next free =>
      have hfree : refuses ns ⟨.listAutomanagedNamespaces, .ok (current, stale)⟩ = false :=
        decide_eq_false free
      refine ensures_bind (R := fun t _ => t.any (refuses ns) = false) ?_ ?_
      · refine ensures_unrefused ns ?_
        rw [deleteStaleNamespaces]
        split
        · exact ⟨fun _ => rfl, fun _ _ => trivial⟩
        · trivial
      · intro t _ deleted
        refine ensures_request_bind fun r => ?_
        cases r with
        | some | none =>
          refine ensures_done ?_
          rw [List.any_cons, List.any_append, hfree, deleted]
          rfl

theorem getDependencyInstance_refuses (dm : DependencyManager) (method : String) :
    (getDependencyInstance dm method).Ensures fun t r => t.any (refuses ns) = r.1.isSome := by
  rw [getDependencyInstance]
  split
  · exact ensures_done rfl
  · refine ensures_request_bind fun r => ?_
    cases r with
    | some | none => exact ensures_done rfl

variable (ctx : ExecutorContext)

theorem runSetup_refuses (i : Nat) (dep : Dependency) (dm : DependencyManager) :
    (runSetup i dep).Ensures fun t result =>
      t.any (refuses ns) = (afterSetup ctx i dep dm result).1.isSome := by
  rw [runSetup]
  split
  · refine ensures_ask fun r => ensures_done ?_
    rcases r with (_ | e) | _ <;> rfl
  · refine ensures_request_bind fun r => ensures_done ?_
    cases r <;> rfl

theorem setupSingleDependency_refuses (i : Nat) (dep : Dependency) (dm : DependencyManager) :
    (setupSingleDependency ctx i dep dm).Ensures fun t r =>
      t.any (refuses ns) = r.1.isSome := by
  refine ensures_bind (getDependencyInstance_refuses ns dm dep.method) ?_
  rintro t₁ ⟨err, dm'⟩ created
  cases err with
  | some e =>
    refine ensures_done ?_
    rw [List.append_nil]
    exact created
  | none =>
    refine ensures_request_bind fun version => ?_
    cases version with
    | some e =>
      refine ensures_done ?_
      rw [List.any_append, created]
      rfl
    | none =>
      refine ensures_bind (runSetup_refuses ns ctx i dep dm') fun t₂ result hsetup => ?_
      refine ensures_done ?_
      rw [List.append_nil, List.any_append, created, List.any_cons, hsetup]
      rfl

theorem setupDependencies_refuses (i : Nat) (deps : List Dependency) (dm : DependencyManager) :
    (setupDependencies ctx i deps dm).Ensures fun t r =>
      t.any (refuses ns) = !r.1.isEmpty := by
  induction deps generalizing i dm with
  | nil => exact ensures_done rfl
  | cons dep rest ih =>
    refine ensures_bind (setupSingleDependency_refuses ns ctx i dep dm) ?_
    rintro t₁ ⟨err, dm'⟩ first
    refine ensures_bind (ih (i + 1) dm') ?_
    rintro t₂ ⟨errs, dm''⟩ others
    refine ensures_done ?_
    rw [List.append_nil, List.any_append, first, others]
    cases err <;> rfl

theorem runSteps_unrefused (conf : Config) (monkey : Bool) :
    (runSteps ctx conf monkey).Ensures fun t _ => t.any (refuses ns) = false :=
  ensures_unrefused ns (uses_runSteps (fun _ _ => rfl) (fun _ => rfl) (fun _ _ => rfl)
    (fun _ => rfl) (fun _ _ _ => rfl))

theorem cleanup_unrefused (dm : DependencyManager) :
    (cleanupTestResourcesAndDependencies ns dm).Ensures fun t _ => t.any (refuses ns) = false :=
  ensures_unrefused ns (uses_cleanup (fun _ => rfl) (fun _ _ => rfl) (fun _ => rfl)
    (fun _ _ _ => rfl) ns dm)

end Refusals

section Exits

/-- The call starts the killer or waits for it. -/
def interferes : Event Reply → Bool
  | ⟨.startNodeKiller _ _, none⟩ => true
  | ⟨.waitChaosMonkey, _⟩ => true
  | _ => false

def Quiet (t : List (Event Reply)) : Prop := ∀ e ∈ t, interferes e = false

theorem quiet_append {t t' : List (Event Reply)} (h : Quiet t) (h' : Quiet t') :
    Quiet (t ++ t') :=
  List.forall_mem_append.mpr ⟨h, h'⟩

theorem quiet_cons {e : Event Reply} (h : interferes e = false) (h' : Quiet t) : Quiet (e :: t) :=
  List.forall_mem_cons.mpr ⟨h, h'⟩

theorem prepareTestNamespaces_quiet (ns : NamespaceConfig) :
    (prepareTestNamespaces ns).Ensures fun t _ => Quiet t :=
  ensures_forall (uses_prepareTestNamespaces (fun _ => rfl) (fun _ _ _ => rfl)
    (fun _ _ _ _ => rfl))

variable (ctx : ExecutorContext)

theorem setupDependencies_quiet (i : Nat) (deps : List Dependency) (dm : DependencyManager) :
    (setupDependencies ctx i deps dm).Ensures fun t _ => Quiet t :=
  ensures_forall (uses_setupDependencies (fun _ _ => rfl) (fun _ => rfl) (fun _ _ _ => rfl)
    (fun _ _ _ => rfl) i deps dm)

theorem cleanup_quiet (ns : NamespaceConfig) (dm : DependencyManager) :
    (cleanupTestResourcesAndDependencies ns dm).Ensures fun t _ => Quiet t :=
  ensures_forall (uses_cleanup (fun _ => rfl) (fun _ _ => rfl) (fun _ => rfl)
    (fun _ _ _ => rfl) ns dm)

theorem runSteps_quiet (conf : Config) :
    (runSteps ctx conf false).Ensures fun t _ => Quiet t :=
  ensures_forall (uses_runSteps (fun _ _ => rfl) (fun _ => rfl) nofun (fun _ => rfl)
    (fun _ _ _ => rfl))

theorem runSteps_waits (conf : Config) :
    (runSteps ctx conf true).Ensures fun t _ => ⟨.waitChaosMonkey, ()⟩ ∈ t := by
  intro t errs he
  obtain ⟨t₁, _, u₁, rfl, -, he₁⟩ := exec_bind he
  obtain ⟨_, u₂, rfl, he₂⟩ := exec_request_bind he₁
  obtain ⟨_, u₃, rfl, -⟩ := exec_request_bind he₂
  exact List.mem_append_right _ (List.mem_cons_of_mem _ List.mem_cons_self)

inductive MonkeyStart : List (Event Reply) → Except String Bool → Prop
  | notConfigured : MonkeyStart [] (.ok false)
  | started (config : NodeFailureConfig) (excludedNodes : List String) :
      MonkeyStart [⟨.startNodeKiller config excludedNodes, none⟩] (.ok true)
  | refused (config : NodeFailureConfig) (excludedNodes : List String) (e : String) :
      MonkeyStart [⟨.startNodeKiller config excludedNodes, some e⟩] (.error e)

theorem initChaosMonkey_start (config : ChaosMonkeyConfig) :
    (initChaosMonkey config).Ensures MonkeyStart := by
  rw [initChaosMonkey.eq_def]
  cases config.nodeFailure with
  | none => exact ensures_done .notConfigured
  | some nodeFailure =>
    refine ensures_request_bind fun r => ?_
    cases r with
    | some e => exact ensures_done (.refused _ _ e)
    | none => exact ensures_done (.started _ _)

/-- How a test leaves the killer: never started, started and not waited for,
or waited for. -/
inductive Exit (conf : Config) : List (Event Reply) → Prop
  | neverStarted {t : List (Event Reply)} (quiet : Quiet t) : Exit conf t
  | early (config : NodeFailureConfig) (excludedNodes : List String)
      {rest : List (Event Reply)} (quiet : Quiet rest)
      (refused : ∃ e ∈ rest, refuses conf.namespaceConfig e = true) :
      Exit conf (⟨.setAutomanagedNamespacePrefix conf.namespaceConfig.namePrefix, ()⟩ ::
        ⟨.initFactory conf.tuningSets, ()⟩ ::
        ⟨.startNodeKiller config excludedNodes, none⟩ :: rest)
  | waited {t : List (Event Reply)} (waits : ⟨.waitChaosMonkey, ()⟩ ∈ t)
      (unrefused : ∀ e ∈ t, refuses conf.namespaceConfig e = false) : Exit conf t

theorem exists_refuses {ns : NamespaceConfig} (h : t.any (refuses ns) = true)
    (before after : List (Event Reply)) :
    ∃ e ∈ before ++ (t ++ after), refuses ns e = true := by
  obtain ⟨e, hmem, he⟩ := List.any_eq_true.mp h
  exact ⟨e, List.mem_append_right _ (List.mem_append_left _ hmem), he⟩

theorem executeTest_exit (conf : Config) :
    (executeTest ctx conf).Ensures fun t _ => Exit conf t := by
  intro t errs he
  obtain ⟨body, cleanup, dm, rfl, hbody, hcleanup⟩ := executeTest_run ctx conf t errs he
  have cleanupQuiet := cleanup_quiet _ dm _ _ hcleanup
  have cleanupUnrefused := cleanup_unrefused _ dm _ _ hcleanup
  cases hbody with
  | monkeyRefused init =>
    cases initChaosMonkey_start _ _ _ init with
    | refused config excludedNodes e =>
      exact .neverStarted (quiet_cons rfl (quiet_cons rfl (quiet_cons rfl
        (quiet_cons rfl cleanupQuiet))))
  | @namespacesRefused _ t₂ _ _ init prepare =>
    have prepareQuiet := prepareTestNamespaces_quiet _ _ _ prepare
    have quiet := quiet_append prepareQuiet cleanupQuiet
    cases initChaosMonkey_start _ _ _ init with
    | notConfigured => exact .neverStarted (quiet_cons rfl (quiet_cons rfl quiet))
    | started config excludedNodes =>
      exact .early config excludedNodes quiet
        (exists_refuses (prepareTestNamespaces_refuses _ _ _ prepare) [] _)
  | @setupFailed _ t₂ t₃ _ _ _ _ init prepare setup =>
    have prepareQuiet := prepareTestNamespaces_quiet _ _ _ prepare
    have setupQuiet := setupDependencies_quiet _ _ _ _ _ _ setup
    have refused := setupDependencies_refuses conf.namespaceConfig _ _ _ _ _ _ setup
    have quiet : Quiet (t₂ ++ (t₃ ++ (⟨.closeStopCh, ()⟩ :: cleanup))) :=
      quiet_append prepareQuiet (quiet_append setupQuiet (quiet_cons rfl cleanupQuiet))
    cases initChaosMonkey_start _ _ _ init with
    | notConfigured =>
      refine .neverStarted (quiet_cons rfl (quiet_cons rfl ?_))
      simpa using quiet
    | started config excludedNodes =>
      have early := Exit.early config excludedNodes quiet (exists_refuses refused _ _)
      simpa using early
  | @completed _ t₂ t₃ t₄ _ _ _ init prepare setup steps =>
    have prepareQuiet := prepareTestNamespaces_quiet _ _ _ prepare
    have setupQuiet := setupDependencies_quiet _ _ _ _ _ _ setup
    have prepared := prepareTestNamespaces_refuses _ _ _ prepare
    have set := setupDependencies_refuses conf.namespaceConfig _ _ _ _ _ _ setup
    have stepped := runSteps_unrefused conf.namespaceConfig _ _ _ _ _ steps
    cases initChaosMonkey_start _ _ _ init with
    | notConfigured =>
      have stepsQuiet := runSteps_quiet ctx conf _ _ steps
      have quiet := quiet_append (quiet_append prepareQuiet (quiet_append setupQuiet stepsQuiet))
        cleanupQuiet
      exact .neverStarted (quiet_cons rfl (quiet_cons rfl quiet))
    | started config excludedNodes =>
      refine .waited ?_ ?_
      · have waits := runSteps_waits ctx conf _ _ steps
        simp [waits]
      · rw [← any_refuses_eq_false]
        simp only [List.any_cons, List.any_append, prepared, set, stepped, cleanupUnrefused]
        rfl

end Exits

section Escape

theorem exec_quiet {s : System} {calls : List (Event Reply)} (alive : s.killer ≠ .crashed)
    (quiet : Quiet calls) :
    ∃ stopped, exec act s (calls.map .call) = some { s with stopped := stopped } := by
  induction calls generalizing s with
  | nil => exact ⟨s.stopped, rfl⟩
  | cons e rest ih =>
    obtain ⟨he, hrest⟩ := List.forall_mem_cons.mp quiet
    have first : ∃ stopped, act s (.call e) = some { s with stopped := stopped } := by
      have hact : act s (.call e) = callStep s e := if_neg alive
      rw [hact]
      obtain ⟨q, r⟩ := e
      cases q with
      | startNodeKiller config excludedNodes =>
        cases r with
        | some e => exact ⟨s.stopped, rfl⟩
        | none => cases he
      | closeStopCh => exact ⟨true, rfl⟩
      | waitChaosMonkey => cases he
      | _ => exact ⟨s.stopped, rfl⟩
    obtain ⟨stopped, first⟩ := first
    rw [List.map_cons, exec_cons_of first]
    exact ih alive hrest

/-- With a rate above 0 a single candidate is picked. -/
theorem pickNodes_single {s : System} (rate : 0 < s.failureRate) (fresh : node ∉ s.killedNodes) :
    pickNodes s (.ok [node]) (.ok []) [node] = some (.nodes [node]) := by
  have hcandidates : candidates s.killedNodes [node] [] = [node] := by
    simp [candidates, fresh]
  have hnum : 1 ≤ ⌈s.failureRate * ((1 : Nat) : ℚ)⌉ := by
    rw [Int.one_le_ceil_iff, Nat.cast_one, mul_one]
    exact rate
  have htake : takeNodes s.failureRate [node] = .nodes [node] := by
    simp only [takeNodes, List.length_singleton]
    rw [if_neg (by omega)]
  simp only [pickNodes]
  rw [if_pos (by rw [hcandidates]), htake]

/-- The killer has checked the channel before it is closed, and goes on after
the return. -/
theorem exists_escape (first second : Event Reply) {config : NodeFailureConfig}
    {excludedNodes : List String} {rest : List (Event Reply)} (rate : 0 < config.failureRate)
    (hfirst : act idle (.call first) = some idle) (hsecond : act idle (.call second) = some idle)
    (quiet : Quiet rest) :
    ∃ run : ChaosRun (first :: second :: ⟨.startNodeKiller config excludedNodes, none⟩ :: rest),
      ¬ run.EndsWithTest := by
  obtain ⟨node, fresh⟩ := Infinite.exists_notMem_finset excludedNodes.toFinset
  rw [List.mem_toFinset] at fresh
  let picking : System := ⟨.picking, false, config.failureRate, excludedNodes, [], []⟩
  obtain ⟨stopped, hrest⟩ := exec_quiet (s := picking) (by exact nofun) quiet
  let after : List KillerStep := [.pick (.ok [node]) (.ok []) [node], .stopServices 0]
  let last : System := ⟨.killing [(node, .stopping)], stopped, config.failureRate,
    excludedNodes ++ [node], [(.stopServices, node)], []⟩
  have hafter : exec act { picking with stopped := stopped } (after.map .killer) = some last := by
    have hpick : act { picking with stopped := stopped }
        (.killer (.pick (.ok [node]) (.ok []) [node])) =
          some { picking with
            killer := .killing [(node, .begun)]
            stopped := stopped
            killedNodes := excludedNodes ++ [node] } := by
      simp only [act, killerStep]
      rw [pickNodes_single rate fresh]
      rfl
    exact (exec_cons_of hpick).trans rfl
  have hcalls : ∀ calls : List (Event Reply),
      (calls.map Action.call).filterMap Action.call? = calls := by
    intro calls
    rw [List.filterMap_map]
    exact List.filterMap_some
  let before : List Action := [.call first, .call second,
    .call ⟨.startNodeKiller config excludedNodes, none⟩, .killer .wake, .killer .check] ++
      rest.map .call
  let run : ChaosRun (first :: second :: ⟨.startNodeKiller config excludedNodes, none⟩ :: rest) :=
    { before := before
      after := after
      last := last
      calls := congrArg (first :: second :: ⟨.startNodeKiller config excludedNodes, none⟩ :: ·)
        (hcalls rest)
      legal := by
        refine (exec_cons_of hfirst).trans ((exec_cons_of hsecond).trans ?_)
        exact (exec_append_of hrest).trans hafter }
  refine ⟨run, fun ends => ?_⟩
  have stops := ends.1 (.stopServices 0) (List.mem_cons_of_mem _ List.mem_cons_self)
  cases stops

end Escape

/-- Whatever the killer does, it ends with the test, if and only if it is not
started or its rate is not above 0, or the namespaces are prepared and the
dependencies set up without an error. -/
theorem chaos_ends_with_test_iff {ctx : ExecutorContext} {conf : Config} {t : List (Event Reply)}
    {errs : List TestError} (executes : Exec (executeTest ctx conf) t errs) :
    (∀ run : ChaosRun t, run.EndsWithTest) ↔
      (∀ config excludedNodes, ⟨.startNodeKiller config excludedNodes, none⟩ ∈ t →
        config.failureRate ≤ 0) ∨
      ∀ e ∈ t, refuses conf.namespaceConfig e = false := by
  cases executeTest_exit ctx conf t errs executes with
  | neverStarted quiet =>
    have rates : ∀ config excludedNodes, ⟨.startNodeKiller config excludedNodes, none⟩ ∈ t →
        config.failureRate ≤ 0 := by
      intro config excludedNodes hmem
      cases quiet _ hmem
    exact iff_of_true (fun run => endsWithTest_of_rate run rates) (.inl rates)
  | @early config excludedNodes rest quiet refused =>
    constructor
    · intro ends
      refine .inl fun config' excludedNodes' hmem => le_of_not_gt fun rate => ?_
      simp only [List.mem_cons, Sigma.mk.injEq, reduceCtorEq, false_and, false_or] at hmem
      rcases hmem with ⟨hstart, -⟩ | hmem
      · obtain ⟨rfl, rfl⟩ := Request.startNodeKiller.inj hstart
        obtain ⟨run, escapes⟩ := exists_escape
          ⟨.setAutomanagedNamespacePrefix conf.namespaceConfig.namePrefix, ()⟩
          ⟨.initFactory conf.tuningSets, ()⟩ rate rfl rfl quiet
        exact escapes (ends run)
      · cases quiet _ hmem
    · rintro (rates | unrefused)
      · exact fun run => endsWithTest_of_rate run rates
      · obtain ⟨e, hmem, he⟩ := refused
        have hall := unrefused e (by simp [hmem])
        cases he.symm.trans hall
  | waited waits unrefused =>
    exact iff_of_true (fun run => endsWithTest_of_wait run waits) (.inr unrefused)

section Sample

def sampleFailure : NodeFailureConfig := ⟨1 / 2, 60000000000, 1 / 10, 30000000000⟩

def sampleConfig : Config := { plainConfig with chaosMonkey := ⟨some sampleFailure, none⟩ }

def sampleContext : ExecutorContext := ⟨"", "", fun _ => ""⟩

def completedCalls : List (Event Reply) :=
  [⟨.setAutomanagedNamespacePrefix "test", ()⟩, ⟨.initFactory [], ()⟩,
    ⟨.startNodeKiller sampleFailure [], none⟩, ⟨.listAutomanagedNamespaces, .ok ([], [])⟩,
    ⟨.createAutomanagedNamespaces 1 false true, none⟩, ⟨.closeStopCh, ()⟩,
    ⟨.waitChaosMonkey, ()⟩, ⟨.getSummaries, []⟩, ⟨.dispose, ()⟩,
    ⟨.deleteAutomanagedNamespaces 0, []⟩]

/-- The channel is closed in the middle of a round, which goes on to its end. -/
def completedRun : ChaosRun completedCalls where
  before := (completedCalls.take 5).map .call ++
    [.killer .wake, .killer .check,
      .killer (.pick (.ok ["node-1", "node-2"]) (.ok ["node-2", ""]) ["node-1"]),
      .killer (.stopServices 0), .call ⟨.closeStopCh, ()⟩, .killer (.servicesStopped 0 none),
      .killer (.downtimeOver 0), .killer (.reboot 0), .killer (.rebooted 0 none), .killer .join,
      .killer .interrupted] ++ (completedCalls.drop 6).map .call
  after := []
  last := ⟨.ended, true, 1 / 2, ["node-1"],
    [(.stopServices, "node-1"), (.rebootNode, "node-1")], ["node-1"]⟩
  calls := rfl
  legal := by decide +kernel

theorem completed_test_ends_chaos :
    completedRun.last.stoppedNodes = ["node-1"] ∧ completedRun.EndsWithTest := by
  refine ⟨rfl, (chaos_ends_with_test_iff (run_exec (succeeds .timedOut [])
    (executeTest sampleContext sampleConfig) ())).mpr (.inr ?_) completedRun⟩
  decide

/-- A namespace of an earlier test is left. -/
def leftover : Handler Request Reply Unit
  | .listAutomanagedNamespaces, w => (.ok (["test-1"], []), w)
  | q, w => succeeds .timedOut [] q w

def refusedCalls : List (Event Reply) :=
  [⟨.setAutomanagedNamespacePrefix "test", ()⟩, ⟨.initFactory [], ()⟩,
    ⟨.startNodeKiller sampleFailure [], none⟩,
    ⟨.listAutomanagedNamespaces, .ok (["test-1"], [])⟩, ⟨.dispose, ()⟩,
    ⟨.deleteAutomanagedNamespaces 0, []⟩]

/-- The killer starts its first round after the return. -/
def escapedRun : ChaosRun refusedCalls where
  before := refusedCalls.map .call
  after := [.wake, .check, .pick (.ok ["node-1"]) (.ok []) ["node-1"], .stopServices 0]
  last := ⟨.killing [("node-1", .stopping)], false, 1 / 2, ["node-1"],
    [(.stopServices, "node-1")], []⟩
  calls := rfl
  legal := by decide +kernel

theorem node_stopped_after_return :
    Exec (executeTest sampleContext sampleConfig) refusedCalls
        [plainError ("error while preparing test namespaces: " ++
          "pre-existing automanaged namespaces found")] ∧
      .stopServices 0 ∈ escapedRun.after ∧ ¬ escapedRun.EndsWithTest := by
  refine ⟨run_exec leftover (executeTest sampleContext sampleConfig) (), ?_, fun ends => ?_⟩
  · simp [escapedRun]
  · have stops := ends.1 (.stopServices 0) (by simp [escapedRun])
    cases stops

end Sample

end NodeKiller
