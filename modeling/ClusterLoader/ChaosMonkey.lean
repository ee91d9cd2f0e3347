import ClusterLoader.NodeKiller

/-!
# The ChaosMonkey measurement

Every start makes a new node killer, and a stop waits for its end. The set of
killed nodes is a Go map, so the measurement and its node killers hold
references to it: what one of them inserts all of them see. `memory` has the
sets that have been made.

Actions of the measurement alternate, start first. The rounds that have picked
nodes are recorded, over all cycles.
-/

namespace ChaosMonkey

open NodeKiller EnabledRuns

inductive Channel where
  | nil
  | opened
  | closed
  deriving DecidableEq

/-- A monkey has a node killer with the set that it was given, or none. -/
structure Monkey where
  nodeKiller : Option Nat

structure Measurement where
  stopChannel : Channel
  chaosMonkey : Option Monkey
  /-- Whether there is a wait group. -/
  waits : Bool
  killedNodes : Nat

inductive Stage where
  | idle
  | running
  | stopping
  | crashed
  deriving DecidableEq

/-- The lists of a round and what was picked from them. -/
structure Round where
  failureRate : ℚ
  allNodes : List String
  prometheusNodes : List String
  picked : List String
  deriving DecidableEq

structure State where
  measurement : Measurement
  stage : Stage
  memory : List (List String)
  killer : System
  rounds : List Round

def State.load (s : State) (ref : Nat) : List String := s.memory.getD ref []

inductive Act where
  /-- The failure rate that the parameters give, and what the provider supports. -/
  | start (config : Except String ℚ) (supportNodeKiller : Bool)
  | close
  | join
  | killer (k : KillerStep)

def newMonkey (supportNodeKiller : Bool) (excludedNodes : Nat) : Monkey :=
  ⟨if supportNodeKiller then some excludedNodes else none⟩

/-- Where the provider has no node killer the channel is closed again. -/
def start (s : State) (failureRate : ℚ) (supportNodeKiller : Bool) : State :=
  { s with
    measurement :=
      { s.measurement with
        stopChannel := if supportNodeKiller then .opened else .closed
        chaosMonkey := some (newMonkey supportNodeKiller s.measurement.killedNodes)
        waits := supportNodeKiller }
    stage := .running
    killer := if supportNodeKiller then
        ⟨.sleeping, false, failureRate, s.load s.measurement.killedNodes, [], []⟩
      else s.killer }

/-- `KilledNodes` makes a new set where there is no node killer. -/
def handOver (s : State) (monkey : Monkey) : State :=
  match monkey.nodeKiller with
  | some ref => { s with measurement := { s.measurement with killedNodes := ref }, stage := .idle }
  | none =>
    { s with
      measurement := { s.measurement with killedNodes := s.memory.length }
      memory := s.memory ++ [[]]
      stage := .idle }

/-- The killer as it sees its set. -/
def State.view (s : State) (ref : Nat) : System := { s.killer with killedNodes := s.load ref }

def roundOf (killer : System) : KillerStep → List Round
  | .pick (.ok allNodes) (.ok prometheusNodes) shuffled =>
    match pickNodes killer (.ok allNodes) (.ok prometheusNodes) shuffled with
    | some (.nodes picked) => [⟨killer.failureRate, allNodes, prometheusNodes, picked⟩]
    | _ => []
  | _ => []

/-- The API server lists no two nodes of one name. -/
def listed : KillerStep → Bool
  | .pick (.ok allNodes) _ _ => allNodes.Nodup
  | _ => true

def step (s : State) : Act → Option State
  | .start config supportNodeKiller =>
    if s.stage = .idle then
      match config with
      | .error _ => some { s with stage := .running }
      | .ok failureRate => some (start s failureRate supportNodeKiller)
    else none
  | .close =>
    if s.stage = .running then
      -- closing a channel that is not open ends the process
      if s.measurement.stopChannel = .opened then
        some { s with
          measurement := { s.measurement with stopChannel := .closed }
          stage := .stopping
          killer := { s.killer with stopped := true } }
      else some { s with stage := .crashed }
    else none
  | .join =>
    if s.stage = .stopping ∧ (s.measurement.waits = true → s.killer.killer = .ended) then
      s.measurement.chaosMonkey.map (handOver s)
    else none
  | .killer k => do
    guard (s.stage ≠ .crashed ∧ listed k)
    let monkey ← s.measurement.chaosMonkey
    let ref ← monkey.nodeKiller
    let killer ← killerStep (s.view ref) k
    return { s with
      killer := killer
      memory := s.memory.set ref killer.killedNodes
      rounds := s.rounds ++ roundOf (s.view ref) k }

def new : State where
  measurement := ⟨.nil, none, false, 0⟩
  stage := .idle
  memory := [[]]
  killer := idle
  rounds := []

/-! ## Safe rounds -/

def picks (rounds : List Round) : List String := rounds.flatMap Round.picked

/-- A Prometheus pod that is on no node yet keeps none from being killed. -/
def Round.RunsPrometheus (r : Round) (node : String) : Prop := node ≠ "" ∧ node ∈ r.prometheusNodes

instance (r : Round) (node : String) : Decidable (r.RunsPrometheus node) :=
  inferInstanceAs (Decidable (_ ∧ _))

/-- The nodes that may be picked after `earlier` ones have been. -/
def Round.eligible (r : Round) (earlier : List String) : List String :=
  r.allNodes.filter fun node => ¬ r.RunsPrometheus node ∧ node ∉ earlier

structure Round.Safe (r : Round) (earlier : List String) : Prop where
  eligible : ∀ node ∈ r.picked, node ∈ r.eligible earlier
  distinct : r.picked.Nodup
  most : (r.picked.length : ℤ) ≤ ⌈r.failureRate * (r.eligible earlier).length⌉
  least : 0 < r.failureRate → r.eligible earlier ≠ [] → r.picked ≠ []

variable {failureRate : ℚ} {shuffled names : List String}

section
variable (h : takeNodes failureRate shuffled = .nodes names)
include h

theorem takeNodes_sublist : names.Sublist shuffled := by
  rw [(takeNodes_eq h).2]
  exact List.take_sublist _ _

theorem takeNodes_length : (names.length : ℤ) ≤ ⌈failureRate * shuffled.length⌉ := by
  obtain ⟨nonneg, rfl⟩ := takeNodes_eq h
  rw [List.length_take]
  omega

theorem takeNodes_ne_nil (rate : 0 < failureRate) (nonempty : shuffled ≠ []) : names ≠ [] := by
  have hlength : 0 < shuffled.length := List.length_pos_iff.mpr nonempty
  have hnum := Int.ceil_pos.mpr (mul_pos rate (Nat.cast_pos.mpr hlength))
  rw [(takeNodes_eq h).2]
  apply List.ne_nil_of_length_pos
  rw [List.length_take]
  omega

end

variable {k : KillerStep}

/-- Every other step leaves the set as it is. -/
theorem killedNodes_killerStep {s s' : System} (h : killerStep s k = some s') :
    s'.killedNodes = s.killedNodes ++ picks (roundOf s k) := by
  cases k with
  | pick allNodes prometheusNodes shuffled =>
    obtain ⟨_, hs⟩ := Option.ite_none_right_eq_some.mp h
    obtain ⟨picked, hpick, rfl⟩ := Option.map_eq_some_iff.mp hs
    cases allNodes with
    | error err =>
      cases hpick
      exact (List.append_nil _).symm
    | ok allNodes =>
      cases prometheusNodes with
      | error err =>
        cases hpick
        exact (List.append_nil _).symm
      | ok prometheusNodes =>
        rw [roundOf, hpick]
        cases picked with
        | failed | panics => exact (List.append_nil _).symm
        | nodes names => exact congrArg (s.killedNodes ++ ·) (List.append_nil names).symm
  | _ =>
    have kept : s'.killedNodes = s.killedNodes := by
      simp only [killerStep] at h
      repeat' split at h
      all_goals first | (cases h; rfl) | cases h
    exact kept.trans (List.append_nil _).symm

theorem candidates_eq_eligible (r : Round) (killedNodes : List String) :
    candidates killedNodes r.allNodes r.prometheusNodes = r.eligible killedNodes := by
  refine List.filter_congr fun node _ => decide_eq_decide.mpr (and_congr_left' ?_)
  rw [Round.RunsPrometheus, List.mem_filter, decide_eq_true_iff, and_comm]

/-- A round is safe with respect to what the killer's set has. -/
theorem safe_roundOf {killer : System} (hlisted : listed k = true) {r : Round}
    (h : r ∈ roundOf killer k) : r.Safe killer.killedNodes := by
  unfold roundOf at h
  split at h
  next allNodes prometheusNodes shuffled =>
    split at h
    next picked hpick =>
      obtain rfl := List.mem_singleton.mp h
      have htake := takeNodes_of_pickNodes hpick
      have hshuffle := (Option.ite_none_right_eq_some.mp hpick).1
      have hdistinct : allNodes.Nodup := of_decide_eq_true hlisted
      have hperm := hshuffle.trans (.of_eq (candidates_eq_eligible
        ⟨killer.failureRate, allNodes, prometheusNodes, picked⟩ killer.killedNodes))
      constructor
      · intro node hnode
        exact hperm.mem_iff.mp ((takeNodes_sublist htake).subset hnode)
      · exact (hperm.nodup_iff.mpr (hdistinct.filter _)).sublist (takeNodes_sublist htake)
      · rw [← hperm.length_eq]
        exact takeNodes_length htake
      · intro rate nonempty
        refine takeNodes_ne_nil htake rate ?_
        rintro rfl
        exact nonempty hperm.nil_eq.symm
    next => cases h
  next => cases h

theorem roundOf_cases (killer : System) (k : KillerStep) :
    roundOf killer k = [] ∨ ∃ r, roundOf killer k = [r] := by
  unfold roundOf
  split
  · split
    · exact .inr ⟨_, rfl⟩
    · exact .inl rfl
  · exact .inl rfl

/-! ## Cycles -/

/-- All sets are one, it has what was picked, and a cycle ends with its killer. -/
structure Handed (s : State) : Prop where
  same : ∀ monkey ref, s.measurement.chaosMonkey = some monkey →
    monkey.nodeKiller = some ref → ref = s.measurement.killedNodes
  inside : s.measurement.killedNodes < s.memory.length
  recorded : s.load s.measurement.killedNodes = picks s.rounds
  waited : s.measurement.stopChannel = .opened ∨ s.stage = .stopping →
    s.measurement.waits = true ∧
      ∃ ref, s.measurement.chaosMonkey = some ⟨some ref⟩
  quiet : s.stage = .idle → s.killer.killer = .absent ∨ s.killer.killer = .ended
  safe : ∀ before r after, s.rounds = before ++ r :: after → r.Safe (picks before)

theorem handed_new : Handed new where
  same := nofun
  inside := Nat.zero_lt_one
  recorded := rfl
  waited := by rintro (h | h) <;> cases h
  quiet _ := .inl rfl
  safe before r after h := by cases before <;> cases h

theorem Handed.start {s : State} (handed : Handed s) (failureRate : ℚ)
    (supportNodeKiller : Bool) : Handed (start s failureRate supportNodeKiller) := by
  cases supportNodeKiller with
  | true =>
    refine ⟨?_, handed.inside, handed.recorded, ?_, nofun, handed.safe⟩
    · rintro monkey ref ⟨⟩ ⟨⟩
      rfl
    · exact fun _ => ⟨rfl, s.measurement.killedNodes, rfl⟩
  | false =>
    refine ⟨?_, handed.inside, handed.recorded, ?_, nofun, handed.safe⟩
    · rintro monkey ref ⟨⟩ ⟨⟩
    · rintro (h | h) <;> cases h

theorem alive_of_killerStep {s s' : System} (h : killerStep s k = some s') :
    s.killer ≠ .absent ∧ s.killer ≠ .ended := by
  cases killerStep_effect h with
  | round _ alive => exact alive
  | thread of =>
    rw [System.thread?] at of
    split at of
    next hk =>
      rw [hk]
      constructor <;> intro heq <;> cases heq
    next => cases of

theorem Handed.killer {s : State} (handed : Handed s) {ref : Nat}
    {killer : System} (hmonkey : s.measurement.chaosMonkey = some ⟨some ref⟩)
    (hlisted : listed k = true) (h : killerStep (s.view ref) k = some killer) :
    Handed { s with
      killer := killer
      memory := s.memory.set ref killer.killedNodes
      rounds := s.rounds ++ roundOf (s.view ref) k } := by
  obtain rfl := handed.same _ ref hmonkey rfl
  have hview : (s.view s.measurement.killedNodes).killedNodes = picks s.rounds :=
    handed.recorded
  refine ⟨handed.same, ?_, ?_, handed.waited, ?_, ?_⟩
  · rw [List.length_set]
    exact handed.inside
  · change (s.memory.set _ _).getD _ _ = _
    rw [List.getD_eq_getElem?_getD, List.getElem?_set_self handed.inside, Option.getD_some,
      killedNodes_killerStep h, hview, picks, picks, picks, List.flatMap_append]
  · intro hidle
    rcases handed.quiet hidle with hk | hk
    · exact absurd hk (alive_of_killerStep h).1
    · exact absurd hk (alive_of_killerStep h).2
  · have hnew : ∀ r ∈ roundOf (s.view s.measurement.killedNodes) k, r.Safe (picks s.rounds) := by
      intro r hr
      rw [← hview]
      exact safe_roundOf hlisted hr
    rcases roundOf_cases (s.view s.measurement.killedNodes) k with hround | ⟨r', hround⟩
    · rw [hround, List.append_nil]
      exact handed.safe
    · rw [hround] at hnew ⊢
      intro before r after heq
      -- the round is the new one, or one of those before
      rcases List.eq_nil_or_concat after with rfl | ⟨init, last, rfl⟩
      · obtain ⟨rfl, hr⟩ := List.append_inj' heq rfl
        cases hr
        exact hnew _ List.mem_cons_self
      · rw [List.concat_eq_append, ← List.cons_append, ← List.append_assoc] at heq
        obtain ⟨hrounds, _⟩ := List.append_inj' heq rfl
        exact handed.safe before r init hrounds

theorem Handed.step {s s' : State} {a : Act} (handed : Handed s) (h : step s a = some s') :
    Handed s' := by
  cases a with
  | start config supportNodeKiller =>
    obtain ⟨hidle, hs⟩ := Option.ite_none_right_eq_some.mp h
    cases config with
    | error err =>
      cases hs
      refine ⟨handed.same, handed.inside, handed.recorded, ?_, nofun, handed.safe⟩
      rintro (hopened | hstage)
      · exact handed.waited (.inl hopened)
      · cases hstage
    | ok failureRate =>
      cases hs
      exact handed.start failureRate supportNodeKiller
  | close =>
    obtain ⟨_, hs⟩ := Option.ite_none_right_eq_some.mp h
    split at hs
    next hopened =>
      cases hs
      exact ⟨handed.same, handed.inside, handed.recorded,
        fun _ => handed.waited (.inl hopened), nofun, handed.safe⟩
    next hopened =>
      cases hs
      refine ⟨handed.same, handed.inside, handed.recorded, ?_, nofun, handed.safe⟩
      rintro (hopened' | hstage)
      · exact absurd hopened' hopened
      · cases hstage
  | join =>
    obtain ⟨⟨hstage, hended⟩, hs⟩ := Option.ite_none_right_eq_some.mp h
    obtain ⟨hwaits, ref, hmonkey⟩ := handed.waited (.inr hstage)
    rw [hmonkey] at hs
    cases hs
    obtain rfl := handed.same _ ref hmonkey rfl
    refine ⟨handed.same, handed.inside, handed.recorded, ?_, fun _ => .inr (hended hwaits),
      handed.safe⟩
    exact fun _ => ⟨hwaits, _, hmonkey⟩
  | killer k =>
    simp only [ChaosMonkey.step, Option.bind_eq_bind, Option.bind_eq_some_iff, Option.pure_def,
      Option.some.injEq, Option.guard_eq_some'] at h
    obtain ⟨_, ⟨_, hlisted⟩, monkey, hmonkey, ref, href, killer, hkiller, rfl⟩ := h
    have hmonkey' : s.measurement.chaosMonkey = some ⟨some ref⟩ := by rw [hmonkey, ← href]
    exact handed.killer hmonkey' hlisted hkiller

/-- In whatever cycle and round nodes are picked, the pick is safe. -/
theorem rounds_safe {actions : List Act} {s : State} (h : exec step new actions = some s)
    {before after : List Round} {r : Round} (hr : s.rounds = before ++ r :: after) :
    r.Safe (picks before) :=
  (exec_keeps (fun _ _ _ _ handed hstep => handed.step hstep) handed_new h).safe before r after hr

/-- Two cycles of one round each. The second one passes over `node-1`, which the
first one has killed, and `node-3`, where Prometheus has come. -/
def twoCycles : List Act :=
  [.start (.ok (1 / 2)) true, .killer .wake, .killer .check,
    .killer (.pick (.ok ["node-1", "node-2"]) (.ok ["node-2", ""]) ["node-1"]),
    .killer (.stopServices 0), .close, .killer (.servicesStopped 0 (some "ssh")), .killer .join,
    .killer .interrupted, .join,
    .start (.ok (1 / 2)) true, .killer .wake, .killer .check,
    .killer (.pick (.ok ["node-1", "node-2", "node-3", "node-4"]) (.ok ["node-3"])
      ["node-4", "node-2"])]

theorem rounds_safe_two_cycles :
    ∃ s, exec step new twoCycles = some s ∧
      ∃ first second, s.rounds = [first, second] ∧ first.picked = ["node-1"] ∧
        second.picked = ["node-4"] ∧ second.Safe ["node-1"] := by
  obtain ⟨s, hs, hrounds⟩ : ∃ s, exec step new twoCycles = some s ∧ s.rounds =
      [⟨1 / 2, ["node-1", "node-2"], ["node-2", ""], ["node-1"]⟩,
        ⟨1 / 2, ["node-1", "node-2", "node-3", "node-4"], ["node-3"], ["node-4"]⟩] := by
    have hrun : (exec step new twoCycles).any (fun s => s.rounds =
        [⟨1 / 2, ["node-1", "node-2"], ["node-2", ""], ["node-1"]⟩,
          ⟨1 / 2, ["node-1", "node-2", "node-3", "node-4"], ["node-3"], ["node-4"]⟩]) = true := by
      decide +kernel
    obtain ⟨s, hs, hrounds⟩ := (Option.any_eq_true _ _).mp hrun
    exact ⟨s, hs, of_decide_eq_true hrounds⟩
  refine ⟨s, hs, _, _, hrounds, rfl, rfl, ?_⟩
  rw [← List.singleton_append] at hrounds
  exact rounds_safe hs hrounds

end ChaosMonkey
