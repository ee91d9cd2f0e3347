import ClusterLoader.ForkJoin
import ClusterLoader.TuningSetFactory
import Mathlib.Algebra.Order.Ring.Rat

/-!
# Executing the actions of a phase

Each kind of tuning set runs the actions it is given in its own rhythm: it starts
a goroutine for each action in turn and sleeps in between, lets every goroutine
sleep on its own, or gives the actions to a pool of workers. Whatever the rhythm, an
accepted tuning set runs every action exactly once and returns when all have
returned.

Durations are exact integers and rates exact rationals. What the random number
generator, the clock and the rate limiter answer is a parameter; an error of the
limiter makes the source skip the action.
-/

namespace TuningSetExecution

open ConfigValidation EnabledRuns ForkJoin TestConfig TuningSetFactory

/-- The answers to the call made for an action. -/
structure Draws where
  /-- The error of the rate limiter, if it has one. -/
  wait : Nat → Option String
  /-- From `rand.Float64`. -/
  float64 : Nat → ℚ
  /-- From `rand.Int63n`. -/
  int63n : Nat → Int
  /-- The logarithm that is drawn for an inter-arrival time. -/
  logarithm : Nat → ℚ
  /-- How long it is until the next launch. -/
  untilLaunch : Nat → Int

def second : ℚ := 1000000000

/-- A quotient, if there is one. -/
def division {N : Type} [Zero N] [DecidableEq N] (quotient : N → N → Int) (a b : N)
    (next : Int → List Instr) : List Instr :=
  if b = 0 then [.panic .divideByZero] else next (quotient a b)

/-- Conversion to an integer cuts off the fraction. -/
def truncatedQuotient (a b : ℚ) : Int := if 0 ≤ a / b then (a / b).floor else (a / b).ceil

/-- One action after the other, and the wait for all of them. -/
def forEachAction (count : Nat) (body : Nat → List Instr) : List Instr :=
  (List.range count).flatMap body ++ [.wait]

def startAction (i : Nat) : Instr := .start ⟨.ok 0, i⟩

section Execute

variable (draws : Draws) (count : Nat)

def qpsExecute (params : QPSLoad) : List Instr :=
  division truncatedQuotient second params.qps fun sleepDuration =>
    forEachAction count fun i => [startAction i, .sleep sleepDuration]

def sleepDuration (avgQPS : ℚ) (randomFactor : ℚ) (next : Int → List Instr) : List Instr :=
  division truncatedQuotient (2 * randomFactor * second) avgQPS next

def randomizedExecute (params : RandomizedLoad) : List Instr :=
  forEachAction count fun i =>
    startAction i :: sleepDuration params.averageQPS (draws.float64 i) fun d => [.sleep d]

def steppedExecute (params : SteppedLoad) : List Instr :=
  forEachAction count fun i =>
    startAction i :: division Int.tmod (i + 1) params.burstSize fun remainder =>
      if remainder = 0 then [.sleep params.stepDelay] else []

def timeLimitedExecute (params : TimeLimitedLoad) : List Instr :=
  if count = 0 then []
  else
    division Int.tdiv params.timeLimit count fun sleepDuration =>
      forEachAction count fun i => [startAction i, .sleep sleepDuration]

/-- `rand.Int63n` panics if the bound is not positive. -/
def int63n (draw n : Int) : Except Panic Int :=
  if n ≤ 0 then .error .invalidArgument else .ok draw

def randomizedTimeLimitedExecute (params : RandomizedTimeLimitedLoad) : List Instr :=
  forEachAction count fun i =>
    [.start ⟨if 0 < params.timeLimit then int63n (draws.int63n i) params.timeLimit else .ok 0, i⟩]

def parallelismLimitedExecute (params : ParallelismLimitedLoad) : List Instr :=
  [.parallelize params.parallelismLimit.toNat count]

def globalQPSExecute : List Instr :=
  forEachAction count fun i =>
    match draws.wait i with
    | some _ => []
    | none => [startAction i]

def interArrivalTime (meanRate : ℚ) (logarithm : ℚ) (next : Int → List Instr) : List Instr :=
  division truncatedQuotient (second * logarithm) meanRate next

def poissonExecute (params : PoissonLoad) : List Instr :=
  forEachAction count fun i =>
    .sleep (draws.untilLaunch i) :: startAction i ::
      interArrivalTime params.expectedActionsPerSecond (draws.logarithm i) fun _ => []

def execute : Load → List Instr
  | .qps params => qpsExecute count params
  | .randomized params => randomizedExecute draws count params
  | .stepped params => steppedExecute count params
  | .timeLimited params => timeLimitedExecute count params
  | .randomizedTimeLimited params => randomizedTimeLimitedExecute draws count params
  | .parallelismLimited params => parallelismLimitedExecute count params
  | .globalQPS _ => globalQPSExecute draws count
  | .poisson params => poissonExecute draws count params

/-- Only the pool of workers has no order of its own. -/
def startOrder : Load → List Nat
  | .parallelismLimited _ => []
  | _ => List.range count

end Execute

/-! ## What the validator makes sure of -/

def Positive : Load → Prop
  | .qps params => 0 < params.qps
  | .randomized params => 0 < params.averageQPS
  | .stepped params => 0 < params.burstSize
  | .timeLimited params => 0 < params.timeLimit
  | .randomizedTimeLimited params => 0 < params.timeLimit
  | .parallelismLimited params => 0 < params.parallelismLimit
  | .globalQPS _ => True
  | .poisson params => 0 < params.expectedActionsPerSecond

theorem validateLoad_accepted {L : Type} {load : Option L} {validate : L → List FieldError}
    (h : (validateLoad load validate).2 = []) {params : L} (present : load = some params) :
    validate params = [] := by
  rw [present] at h
  exact h

variable {path : String}

theorem loadChecks_accepted {ts : TuningSetConfig}
    (accepted : validateTuningSet ts path = []) : ∀ check ∈ loadChecks ts path, check.2 = [] := by
  rw [validateTuningSet, List.append_eq_nil_iff, List.flatMap_eq_nil_iff] at accepted
  exact accepted.1

variable {name : String}

theorem positiveFloat_accepted {q : ℚ} (h : positiveFloat path name q = []) : 0 < q := by
  rw [positiveFloat, check_eq_nil, decide_eq_false_iff_not] at h
  exact Rat.not_le.mp h

theorem positiveInt_accepted {i : Int} (h : positiveInt path name i = []) : 0 < i := by
  rw [positiveInt, check_eq_nil, decide_eq_false_iff_not] at h
  omega

theorem positive_of_created {f : Factory} {ts : TuningSetConfig}
    {load : Load} (found : f.tuningSetMap name = some ts)
    (accepted : validateTuningSet ts path = [])
    (created : (f.createTuningSet name).1 = .ok load) : Positive load := by
  have checks := loadChecks_accepted accepted
  simp only [loadChecks, List.forall_mem_cons] at checks
  obtain ⟨hqps, hrandomized, hstepped, htimeLimited, hrandomizedTimeLimited, hparallelism, _,
    hpoisson, _⟩ := checks
  rw [Factory.createTuningSet, found] at created
  dsimp only at created
  split at created <;> cases created
  case h_1 => exact positiveFloat_accepted (validateLoad_accepted hqps ‹_›)
  case h_2 => exact positiveFloat_accepted (validateLoad_accepted hrandomized ‹_›)
  case h_3 => exact positiveInt_accepted (validateLoad_accepted hstepped ‹_›)
  case h_4 => exact positiveInt_accepted (validateLoad_accepted htimeLimited ‹_›)
  case h_5 => exact positiveInt_accepted (validateLoad_accepted hrandomizedTimeLimited ‹_›)
  case h_6 => exact positiveInt_accepted (validateLoad_accepted hparallelism ‹_›)
  case h_7 => trivial
  case h_8 => exact positiveFloat_accepted (validateLoad_accepted hpoisson ‹_›)

/-! ## The programs are sound -/

/-- The instructions for an action bring about that action and no other. -/
structure StartsOnly (i : Nat) (instrs : List Instr) : Prop where
  safe : ∀ instr ∈ instrs, Safe instr
  plan : instrs.flatMap planned = [i]
  order : instrs.flatMap startedBy = [i]

variable {body : Nat → List Instr}

theorem flatMap_forEachAction {count : Nat} {f : Instr → List Nat}
    (h : ∀ i, (body i).flatMap f = [i]) (hwait : f .wait = []) :
    (forEachAction count body).flatMap f = List.range count := by
  rw [forEachAction, List.flatMap_append, List.flatMap_assoc]
  simp only [h, List.flatMap_singleton', List.flatMap_cons, hwait, List.flatMap_nil,
    List.append_nil]

theorem sound_forEachAction {count : Nat} (h : ∀ i, StartsOnly i (body i)) :
    Sound count (List.range count) (ForkJoin.load (forEachAction count body)) := by
  have plan : (forEachAction count body).flatMap planned = List.range count :=
    flatMap_forEachAction (fun i => (h i).plan) rfl
  have order : (forEachAction count body).flatMap startedBy = List.range count :=
    flatMap_forEachAction (fun i => (h i).order) rfl
  rw [← order]
  refine sound_load ?_ (.of_eq plan) (guarded_append_wait _)
  intro instr hinstr
  rcases List.mem_append.mp hinstr with hinstr | hinstr
  · obtain ⟨i, _, hinstr⟩ := List.mem_flatMap.mp hinstr
    exact (h i).safe instr hinstr
  · obtain rfl := List.mem_singleton.mp hinstr
    trivial

theorem startsOnly_start {i : Nat} {rest : List Instr} (safe : ∀ instr ∈ rest, Safe instr)
    (plan : rest.flatMap planned = []) (order : rest.flatMap startedBy = []) :
    StartsOnly i (startAction i :: rest) where
  safe := List.forall_mem_cons.mpr ⟨⟨0, rfl⟩, safe⟩
  plan := congrArg (i :: ·) plan
  order := congrArg (i :: ·) order

theorem startsOnly_start_sleep (i : Nat) (duration : Int) :
    StartsOnly i [startAction i, .sleep duration] :=
  startsOnly_start (by simp [Safe]) rfl rfl

theorem division_of_ne {N : Type} [Zero N] [DecidableEq N] {quotient : N → N → Int} {a b : N}
    (h : b ≠ 0) (next : Int → List Instr) :
    division quotient a b next = next (quotient a b) := if_neg h

section Programs

variable (draws : Draws) (count : Nat)

theorem sound_qpsExecute {params : QPSLoad} (h : 0 < params.qps) :
    Sound count (List.range count) (ForkJoin.load (qpsExecute count params)) := by
  rw [qpsExecute, division_of_ne h.ne']
  exact sound_forEachAction fun i => startsOnly_start_sleep i _

theorem sound_randomizedExecute {params : RandomizedLoad} (h : 0 < params.averageQPS) :
    Sound count (List.range count) (ForkJoin.load (randomizedExecute draws count params)) := by
  refine sound_forEachAction fun i => ?_
  rw [sleepDuration, division_of_ne h.ne']
  exact startsOnly_start_sleep i _

theorem sound_steppedExecute {params : SteppedLoad} (h : 0 < params.burstSize) :
    Sound count (List.range count) (ForkJoin.load (steppedExecute count params)) := by
  refine sound_forEachAction fun i => ?_
  rw [division_of_ne h.ne']
  split
  · exact startsOnly_start_sleep i _
  · exact startsOnly_start nofun rfl rfl

theorem sound_timeLimitedExecute (params : TimeLimitedLoad) :
    Sound count (List.range count) (ForkJoin.load (timeLimitedExecute count params)) := by
  rw [timeLimitedExecute]
  split
  case isTrue empty =>
    subst empty
    exact @sound_load 0 [] nofun .nil trivial
  case isFalse nonempty =>
    rw [division_of_ne (Int.natCast_ne_zero.mpr nonempty)]
    exact sound_forEachAction fun i => startsOnly_start_sleep i _

/-- The bound of the random number is positive even without the validator. -/
theorem sound_randomizedTimeLimitedExecute (params : RandomizedTimeLimitedLoad) :
    Sound count (List.range count)
      (ForkJoin.load (randomizedTimeLimitedExecute draws count params)) := by
  refine sound_forEachAction fun i => ⟨?_, rfl, rfl⟩
  intro instr hinstr
  obtain rfl := List.mem_singleton.mp hinstr
  split
  case isTrue positive => exact ⟨_, if_neg (by omega)⟩
  case isFalse => exact ⟨0, rfl⟩

theorem sound_parallelismLimitedExecute {params : ParallelismLimitedLoad}
    (h : 0 < params.parallelismLimit) :
    Sound count [] (ForkJoin.load (parallelismLimitedExecute count params)) := by
  refine @sound_load count [.parallelize params.parallelismLimit.toNat count] ?_
    (.of_eq (List.append_nil _)) trivial
  intro instr hinstr
  obtain rfl := List.mem_singleton.mp hinstr
  simp only [Safe]
  omega

theorem sound_globalQPSExecute (granted : ∀ i, draws.wait i = none) :
    Sound count (List.range count) (ForkJoin.load (globalQPSExecute draws count)) := by
  refine sound_forEachAction fun i => ?_
  rw [granted i]
  exact startsOnly_start nofun rfl rfl

theorem sound_poissonExecute {params : PoissonLoad} (h : 0 < params.expectedActionsPerSecond) :
    Sound count (List.range count) (ForkJoin.load (poissonExecute draws count params)) := by
  refine sound_forEachAction fun i => ?_
  rw [interArrivalTime, division_of_ne h.ne']
  exact ⟨by simp [Safe, startAction], rfl, rfl⟩

theorem sound_execute {load : Load} (positive : Positive load)
    (granted : ∀ i, draws.wait i = none) :
    Sound count (startOrder count load) (ForkJoin.load (execute draws count load)) := by
  cases load with
  | qps params => exact sound_qpsExecute count positive
  | randomized params => exact sound_randomizedExecute draws count positive
  | stepped params => exact sound_steppedExecute count positive
  | timeLimited params => exact sound_timeLimitedExecute count params
  | randomizedTimeLimited params => exact sound_randomizedTimeLimitedExecute draws count params
  | parallelismLimited params => exact sound_parallelismLimitedExecute count positive
  | globalQPS limiter => exact sound_globalQPSExecute draws count granted
  | poisson params => exact sound_poissonExecute draws count positive

end Programs

/-- Of an accepted tuning set every action is called exactly once, in every run; the
goroutines are started in the order of the actions, nothing panics, and the run ends
when all actions have returned. -/
theorem accepted_executes_each_once {f : Factory} {name : String} {ts : TuningSetConfig}
    {path : String} (found : f.tuningSetMap name = some ts)
    (accepted : validateTuningSet ts path = []) :
    ∃ load, (f.createTuningSet name).1 = .ok load ∧
      ∀ draws : Draws, (∀ i, draws.wait i = none) → ∀ count : Nat,
        Terminates (step count) (fun _ => True) (Finished count (startOrder count load))
          (ForkJoin.load (execute draws count load)) ∧
        ∀ s, Reaches (step count) (fun _ => True)
            (ForkJoin.load (execute draws count load)) s →
          Orderly count (startOrder count load) s := by
  obtain ⟨load, created⟩ := createTuningSet_ok found (accepted_has_load accepted)
  refine ⟨load, created, fun draws granted count => ?_⟩
  have sound := sound_execute draws count (positive_of_created found accepted created) granted
  exact ⟨sound.terminates, fun s reached => (sound.reaches reached).orderly⟩

def bursts : TuningSetConfig :=
  ⟨"Bursts", none, none, some ⟨2, 1000000000⟩, none, none, none, none, none⟩

def burstsFactory : Factory :=
  ⟨fun name => if name = "Bursts" then some bursts else none, fun _ => none⟩

def noDraws : Draws := ⟨fun _ => none, fun _ => 0, fun _ => 0, fun _ => 0, fun _ => 0⟩

theorem bursts_execute_each_once :
    Terminates (step 3) (fun _ => True) (Finished 3 [0, 1, 2])
      (ForkJoin.load (execute noDraws 3 (.stepped ⟨2, 1000000000⟩))) := by
  have found : burstsFactory.tuningSetMap "Bursts" = some bursts := rfl
  have accepted : validateTuningSet bursts "tuningSets[0]" = [] := by decide
  obtain ⟨load, created, h⟩ := accepted_executes_each_once found accepted
  have hload : (burstsFactory.createTuningSet "Bursts").1 = .ok (.stepped ⟨2, 1000000000⟩) := rfl
  cases hload.symm.trans created
  exact (h noDraws (fun _ => rfl) 3).1

end TuningSetExecution
