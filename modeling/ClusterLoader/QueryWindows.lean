import ClusterLoader.Tilings
import ClusterLoader.TransitionTimes
import Mathlib.Data.Rat.Floor

/-!
# Queries in windows of ten minutes

The gatherers of NegLatency and CiliumEndpointPropagationDelay go from the start
of the measurement to its end in steps of ten minutes, and query Prometheus once
for each step. The last step is cut at the end, and the loop stops where it has
come to the end exactly. A query that fails leaves its samples out and nothing else.

Times are nanoseconds and compared as instants. The value of a sample is the
integer it is rounded to, and its timestamp is the text of it. What the queries
answer is given by their number. Log output is left out.
-/

namespace QueryWindows

open KeyedStore Tilings TransitionTimes

def second : Int := 1000000000

def queryInterval : Int := 10 * 60 * second

def negQueryInterval : Int := 10 * 60 * second

def toPrometheusTime (t : Int) : String := toString (t.tdiv second) ++ "s"

structure Sample where
  le : String
  timestamp : String
  value : Int
  deriving DecidableEq

/-- A query and the window it is about, from `prevQueryTime` to `currQueryTime`. It
is evaluated at the end of its window. -/
structure Query where
  text : String
  window : Window Int

abbrev Answers := Nat → Except String (List Sample)

/-- The samples of an answer; an error is only logged. -/
def newSamples : Except String (List Sample) → List Sample
  | .ok samples => samples
  | .error _ => []

/-- The loop, before a round from `prevQueryTime` to `currQueryTime`. -/
def queryLoop (query : String → String) (interval endTime : Int) (answers : Answers) :
    Nat → Int → Int → List Query → List Sample → Option (List Query × List Sample)
  | 0, _, _, _, _ => none
  | fuel + 1, prevQueryTime, currQueryTime, queries, samples =>
    let currQueryTime := if endTime < currQueryTime then endTime else currQueryTime
    let promDuration := toPrometheusTime (sub currQueryTime prevQueryTime)
    let samples := samples ++ newSamples (answers queries.length)
    let queries := queries ++ [⟨query promDuration, ⟨prevQueryTime, currQueryTime⟩⟩]
    if currQueryTime = endTime then some (queries, samples)
    else queryLoop query interval endTime answers fuel currQueryTime (currQueryTime + interval)
      queries samples

/-! ## The two gatherers -/

inductive NegMetric where
  | initialization
  | attachEndpoint
  | detachEndpoint

def NegMetric.name : NegMetric → String
  | initialization => "neg_initialization"
  | attachEndpoint => "neg_attach_endpoint"
  | detachEndpoint => "neg_detach_endpoint"

def negInitLatencyQuery (duration : String) : String :=
  "sum(sum_over_time(neg_controller_neg_initialization_duration_seconds_bucket[" ++ duration ++
    "])) by (le)"

def negOpLatencyQuery (operation duration : String) : String :=
  "sum(sum_over_time(neg_controller_neg_operation_duration_seconds_bucket\x7boperation=\"" ++
    operation ++ "\"\x7d[" ++ duration ++ "])) by (le)"

def NegMetric.query : NegMetric → String → String
  | initialization => negInitLatencyQuery
  | attachEndpoint => negOpLatencyQuery "Attach"
  | detachEndpoint => negOpLatencyQuery "Detach"

/-- The loop of `gatherAndProcessSamples`. -/
def negQueries (metric : NegMetric) (answers : Answers) (startTime endTime : Int) (fuel : Nat) :
    Option (List Query × List Sample) :=
  queryLoop metric.query queryInterval endTime answers fuel startTime
    (startTime + negQueryInterval) [] []

def cepPropagationDelayQuery (duration : String) : String :=
  "sum(sum_over_time(cilium_endpoint_propagation_delay_seconds_bucket[" ++ duration ++
    "])) by (le)"

/-- The loop of `gatherCepPropagationDelay`; what it makes of the samples is left out. -/
def cepQueries (answers : Answers) (startTime endTime : Int) (fuel : Nat) :
    Option (List Query × List Sample) :=
  queryLoop cepPropagationDelayQuery queryInterval endTime answers fuel startTime
    (startTime + queryInterval) [] []

/-! ## The windows -/

/-- So many full windows, and then one that ends at the end. -/
def windowsFrom (endTime : Int) : Nat → Int → List (Window Int)
  | 0, time => [⟨time, endTime⟩]
  | n + 1, time => ⟨time, time + queryInterval⟩ :: windowsFrom endTime n (time + queryInterval)

/-- How many full windows come before the last one. -/
structure Rounds (endTime : Int) (n : Nat) (time : Int) : Prop where
  before : time + n * queryInterval < endTime ∨ n = 0 ∧ time ≤ endTime
  reaches : endTime ≤ time + (n + 1) * queryInterval

variable {endTime time : Int} {n : Nat}

theorem Rounds.succ (h : Rounds endTime (n + 1) time) :
    Rounds endTime n (time + queryInterval) := by
  obtain ⟨before, reaches⟩ := h
  simp only [queryInterval, second] at before reaches
  constructor
  · simp only [queryInterval, second]
    omega
  · simp only [queryInterval, second]
    omega

variable {startTime : Int}

theorem exists_rounds (h : startTime ≤ endTime) : ∃ n, Rounds endTime n startTime ∧
      ((n + 1 : Nat) : Int) =
        max 1 ⌈((endTime - startTime : Int) : ℚ) / (queryInterval : Int)⌉ := by
  have hceil := Rat.ceil_intCast_div_natCast (endTime - startTime) 600000000000
  rw [show ((600000000000 : Nat) : ℚ) = ((queryInterval : Int) : ℚ) by
    simp only [queryInterval, second]; norm_num] at hceil
  refine ⟨((endTime - startTime - 1) / 600000000000).toNat, ⟨?_, ?_⟩, ?_⟩
  · simp only [queryInterval, second]
    omega
  · simp only [queryInterval, second]
    omega
  · omega

def Window.query (query : String → String) (w : Window Int) : Query :=
  ⟨query (toPrometheusTime (sub w.hi w.lo)), w⟩

/-- The samples of so many answers. -/
def answered (answers : Answers) (first count : Nat) : List Sample :=
  (List.range count).flatMap fun i => newSamples (answers (first + i))

theorem answered_succ (answers : Answers) (first count : Nat) :
    answered answers first (count + 1) =
      newSamples (answers first) ++ answered answers (first + 1) count := by
  rw [answered, List.range_succ_eq_map, List.flatMap_cons, List.flatMap_map, answered]
  simp only [Nat.add_zero, Nat.add_assoc, Nat.add_comm 1]

theorem length_windowsFrom (endTime : Int) (n : Nat) (time : Int) :
    (windowsFrom endTime n time).length = n + 1 := by
  induction n generalizing time with
  | zero => rfl
  | succ n ih => rw [windowsFrom, List.length_cons, ih]

variable (query : String → String)

/-- Each round makes the query of the next window, whatever the query answers. -/
theorem queryLoop_eq (answers : Answers) (rounds : Rounds endTime n time) (spare : Nat)
    (queries : List Query) (samples : List Sample) :
    queryLoop query queryInterval endTime answers (n + 1 + spare) time (time + queryInterval)
        queries samples =
      some (queries ++ (windowsFrom endTime n time).map (Window.query query),
        samples ++ answered answers queries.length (n + 1)) := by
  induction n generalizing time queries samples with
  | zero =>
    have hcut : (if endTime < time + queryInterval then endTime else time + queryInterval) =
        endTime := by
      have hreaches := rounds.reaches
      split <;> omega
    rw [Nat.add_comm, queryLoop]
    simp only [hcut]
    simp [answered, windowsFrom, Window.query]
  | succ n ih =>
    have hfull : time + queryInterval < endTime := by
      rcases rounds.before with hlt | ⟨hzero, -⟩
      · simp only [queryInterval, second] at hlt ⊢
        omega
      · cases hzero
    have hcut : (if endTime < time + queryInterval then endTime else time + queryInterval) =
        time + queryInterval := if_neg (by omega)
    rw [Nat.add_right_comm, queryLoop]
    simp only [hcut, if_neg (Int.ne_of_lt hfull)]
    rw [ih rounds.succ, answered_succ answers queries.length (n + 1), windowsFrom]
    simp [Window.query]

/-! ## What the windows are -/

theorem tiles_windowsFrom (rounds : Rounds endTime n time) :
    Tiles time (windowsFrom endTime n time) endTime := by
  induction n generalizing time with
  | zero =>
    refine ⟨rfl, ?_, rfl⟩
    rcases rounds.before with hlt | ⟨-, hle⟩
    · rw [Nat.cast_zero, Int.zero_mul, Int.add_zero] at hlt
      exact Int.le_of_lt hlt
    · exact hle
  | succ n ih =>
    refine ⟨rfl, ?_, ih rounds.succ⟩
    simp only [queryInterval, second]
    omega

theorem full_of_mem_dropLast :
    ∀ w ∈ (windowsFrom endTime n time).dropLast, w.hi - w.lo = queryInterval := by
  induction n generalizing time with
  | zero => exact nofun
  | succ n ih =>
    have hne : windowsFrom endTime n (time + queryInterval) ≠ [] := by
      rw [← List.length_pos_iff, length_windowsFrom]
      omega
    intro w hw
    rw [windowsFrom, List.dropLast_cons_of_ne_nil hne] at hw
    rcases List.mem_cons.mp hw with rfl | hmem
    · change time + queryInterval - time = queryInterval
      omega
    · exact ih w hmem

theorem length_le_of_mem (rounds : Rounds endTime n time) :
    ∀ w ∈ windowsFrom endTime n time, 0 ≤ w.hi - w.lo ∧ w.hi - w.lo ≤ queryInterval := by
  induction n generalizing time with
  | zero =>
    intro w hw
    rw [List.mem_singleton.mp hw]
    obtain ⟨before, reaches⟩ := rounds
    simp only at before reaches ⊢
    omega
  | succ n ih =>
    intro w hw
    rcases List.mem_cons.mp hw with rfl | hmem
    · simp only [queryInterval, second]
      omega
    · exact ih rounds.succ w hmem

/-- The duration in a query is the whole seconds of its window. -/
theorem toPrometheusTime_window {w : Window Int} (nonneg : 0 ≤ w.hi - w.lo)
    (short : w.hi - w.lo ≤ queryInterval) :
    toPrometheusTime (sub w.hi w.lo) =
      toString ⌊((w.hi - w.lo : Int) : ℚ) / (second : Int)⌋ ++ "s" := by
  have hsub : sub w.hi w.lo = w.hi - w.lo := by
    simp only [sub, minDuration, maxDuration]
    simp only [queryInterval, second] at short
    omega
  have hfloor := Rat.floor_intCast_div_natCast (w.hi - w.lo) 1000000000
  rw [show ((1000000000 : Nat) : ℚ) = ((second : Int) : ℚ) by simp [second]] at hfloor
  rw [hfloor, hsub, toPrometheusTime, Int.tdiv_eq_ediv_of_nonneg nonneg]
  rfl

/-! ## The queries -/

/-- What a loop from one time to the other has queried. -/
structure Covers (query : String → String) (startTime endTime : Int) (queries : List Query) :
    Prop where
  number : (queries.length : Int) =
    max 1 ⌈((endTime - startTime : Int) : ℚ) / (queryInterval : Int)⌉
  tiles : Tiles startTime (queries.map Query.window) endTime
  disjoint : queries.Pairwise fun q r => q.window.hi ≤ r.window.lo
  covered : ∀ t, (∃ q ∈ queries, q.window.Contains t) ↔ startTime ≤ t ∧ t < endTime
  durations : ∀ q ∈ queries, q.text =
    query (toString ⌊((q.window.hi - q.window.lo : Int) : ℚ) / (second : Int)⌋ ++ "s")
  full : ∀ q ∈ queries.dropLast,
    ⌊((q.window.hi - q.window.lo : Int) : ℚ) / (second : Int)⌋ * second =
      q.window.hi - q.window.lo

theorem covers_windowsFrom (rounds : Rounds endTime n startTime)
    (number : ((n + 1 : Nat) : Int) =
      max 1 ⌈((endTime - startTime : Int) : ℚ) / (queryInterval : Int)⌉) :
    Covers query startTime endTime
      ((windowsFrom endTime n startTime).map (Window.query query)) := by
  have htiles := tiles_windowsFrom rounds
  have hwindows : ((windowsFrom endTime n startTime).map (Window.query query)).map Query.window =
      windowsFrom endTime n startTime := by
    rw [List.map_map]
    exact List.map_id _
  constructor
  case number => rw [List.length_map, length_windowsFrom, number]
  case tiles => rw [hwindows]; exact htiles
  case disjoint => exact List.pairwise_map.mpr htiles.disjoint
  case covered =>
    intro t
    simp only [List.mem_map, exists_exists_and_eq_and]
    exact htiles.contains_iff t
  case durations =>
    intro q hq
    obtain ⟨w, hw, rfl⟩ := List.mem_map.mp hq
    obtain ⟨nonneg, short⟩ := length_le_of_mem rounds w hw
    exact congrArg query (toPrometheusTime_window nonneg short)
  case full =>
    intro q hq
    rw [← List.map_dropLast] at hq
    obtain ⟨w, hw, rfl⟩ := List.mem_map.mp hq
    have hfull := full_of_mem_dropLast w hw
    change ⌊((w.hi - w.lo : Int) : ℚ) / (second : Int)⌋ * second = w.hi - w.lo
    have hseconds : ((queryInterval : Int) : ℚ) / (second : Int) = (600 : Int) := by
      simp only [queryInterval, second]
      norm_num
    rw [hfull, hseconds]
    rfl

/-- The loop returns from so many rounds on, with the samples of all its queries. -/
theorem queryLoop_covers (answers : Answers) (h : startTime ≤ endTime) :
    ∃ queries, Covers query startTime endTime queries ∧
      ∀ fuel, queries.length ≤ fuel →
        queryLoop query queryInterval endTime answers fuel startTime (startTime + queryInterval)
          [] [] = some (queries, answered answers 0 queries.length) := by
  obtain ⟨n, rounds, number⟩ := exists_rounds h
  refine ⟨_, covers_windowsFrom query rounds number, ?_⟩
  intro fuel enough
  rw [List.length_map, length_windowsFrom] at enough ⊢
  obtain ⟨spare, rfl⟩ := Nat.exists_eq_add_of_le enough
  rw [queryLoop_eq query answers rounds]
  rfl

/-- Both gatherers go through windows that tile the measurement. -/
theorem queries_tile (startTime endTime : Int) (h : startTime ≤ endTime) (answers : Answers) :
    (∀ metric : NegMetric, ∃ queries, Covers metric.query startTime endTime queries ∧
      ∀ fuel, queries.length ≤ fuel →
        negQueries metric answers startTime endTime fuel =
          some (queries, answered answers 0 queries.length)) ∧
      ∃ queries, Covers cepPropagationDelayQuery startTime endTime queries ∧
        ∀ fuel, queries.length ≤ fuel →
          cepQueries answers startTime endTime fuel =
            some (queries, answered answers 0 queries.length) :=
  ⟨fun metric => queryLoop_covers metric.query answers h,
    queryLoop_covers cepPropagationDelayQuery answers h⟩

/-- Twenty-five minutes and half a second, where the second query fails. -/
theorem queries_tile_three_windows :
    ∃ queries, Covers cepPropagationDelayQuery 0 1500500000000 queries ∧
      queries.length = 3 ∧
        ∀ fuel, 3 ≤ fuel → cepQueries (fun n => if n = 1 then .error "timeout" else
          .ok [⟨"+Inf", "t", n⟩]) 0 1500500000000 fuel =
            some (queries, [⟨"+Inf", "t", 0⟩, ⟨"+Inf", "t", 2⟩]) := by
  obtain ⟨-, queries, covers, returns⟩ := queries_tile 0 1500500000000 (by decide)
    fun n => if n = 1 then .error "timeout" else .ok [⟨"+Inf", "t", n⟩]
  have hnumber := covers.number
  have hceil : ⌈((1500500000000 - 0 : Int) : ℚ) / (queryInterval : Int)⌉ = 3 := by
    simp only [queryInterval, second]
    norm_num
  have hlength : queries.length = 3 := by omega
  rw [hlength] at returns
  exact ⟨queries, covers, hlength, returns⟩

end QueryWindows
