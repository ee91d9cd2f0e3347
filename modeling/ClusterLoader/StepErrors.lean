import ClusterLoader.EnabledRuns
import ClusterLoader.MeasurementCalls

/-!
# Collecting the errors of a step

The measurements and the phases of a step run in goroutines of their own, and
so do the instances of a measurement. Every list of errors is appended to under
its lock, so a schedule is an order of these appends. What the measurements and
the phases return is given.

Errors wrap others. The errors of a phase wrap none: they are made with `%v`, or
come from reading a template.
-/

namespace StepErrors

open RequestPrograms RequestPrograms.Prog TestConfig TestExecution MeasurementCalls EnabledRuns

inductive Err where
  | new (text : String)
  | errCritical
  /-- `fmt.Errorf` with one `%w` at the end. -/
  | wrap (message : String) (cause : Err)
  /-- `fmt.Errorf("%w: %w", first, second)`. -/
  | wrapBoth (first second : Err)
  deriving DecidableEq

namespace Err

def text : Err → String
  | .new text => text
  | .errCritical => "criticl error"
  | .wrap message cause => message ++ cause.text
  | .wrapBoth first second => first.text ++ ": " ++ second.text

/-- `errors.Is(err, ErrCritical)`. -/
def isCritical : Err → Bool
  | .new _ => false
  | .errCritical => true
  | .wrap _ cause => cause.isCritical
  | .wrapBoth first second => first.isCritical || second.isCritical

end Err

def newErrCritical (err : Err) : Err := .wrapBoth .errCritical err

def formatError (method identifier : String) (err : Err) : Err :=
  .wrap ("measurement call " ++ method ++ " - " ++ identifier ++ " error: ") err

/-- What is left of an error outside of a step. -/
def testError (err : Err) : TestError := ⟨err.text, err.isCritical⟩

/-! ## The goroutines of a step -/

/-- What the calls of the measurements and the phases return. -/
structure Answers where
  measurement : Nat → Nat → Option Err
  /-- The list of a phase may be `nil`. -/
  phase : Nat → Option (List String)

/-- A measurement that is executed, with the calls that have not returned yet. -/
structure Measuring where
  id : Nat
  name : String
  pending : List (Call × Option Err)
  errList : List Err

structure SubstepResult where
  name : String
  id : Nat
  err : List Err

structure StepState where
  measuring : List Measuring
  phases : List (Option (List String))
  results : List SubstepResult
  err : List Err

def phaseErrors (errList : Option (List String)) : List Err := (errList.getD []).map .new

def callErrors (call : Call × Option Err) : List Err :=
  (call.2.map (formatError call.1.method call.1.identifier)).toList

def startMeasurement (answers : Answers) (m : Measurement × Nat) : Measuring where
  id := m.2
  name := "[" ++ pad2 m.2 ++ "] - " ++ m.1.identifier
  pending := (measurementCalls m.1).zipIdx.map fun call =>
    (call.1, answers.measurement m.2 call.2)
  errList := []

def startStep (step : Step) (answers : Answers) : StepState where
  measuring := step.measurements.zipIdx.map (startMeasurement answers)
  phases := step.phases.zipIdx.map fun phase => answers.phase phase.2
  results := []
  err := []

inductive StepAct where
  /-- A call of a measurement returns. -/
  | returns (i j : Nat)
  | addSubStepResult (i : Nat)
  | addStepError (k : Nat)

def act (s : StepState) : StepAct → Option StepState
  | .returns i j => do
    let m ← s.measuring[i]?
    let call ← m.pending[j]?
    let m := { m with pending := m.pending.eraseIdx j, errList := m.errList ++ callErrors call }
    return { s with measuring := s.measuring.set i m }
  | .addSubStepResult i => do
    let m ← s.measuring[i]?
    -- the calls have been waited for
    guard (m.pending.isEmpty = true)
    return { s with
      measuring := s.measuring.eraseIdx i
      results := s.results ++ [⟨m.name, m.id, m.errList⟩] }
  | .addStepError k => do
    let errs ← s.phases[k]?
    return { s with phases := s.phases.eraseIdx k, err := s.err ++ phaseErrors errs }

/-- The wait is over. -/
def StepState.Done (s : StepState) : Prop := s.measuring = [] ∧ s.phases = []

def getAllErrors (s : StepState) : List Err :=
  s.err ++ s.results.flatMap SubstepResult.err

/-- The step can end with the errors. -/
def Executes (step : Step) (answers : Answers) (errs : List TestError) : Prop :=
  ∃ schedule s, exec act (startStep step answers) schedule = some s ∧ s.Done ∧
    errs = (getAllErrors s).map testError

/-! ## What a step should report -/

/-- The calls of a step, each with what it returns. -/
def outcomes (step : Step) (answers : Answers) : List (Call × Option Err) :=
  step.measurements.zipIdx.flatMap fun m => (startMeasurement answers m).pending

/-- The error of a call, as it is to be reported. -/
def reported (call : Call × Option Err) : List TestError :=
  (call.2.map fun err =>
    ⟨"measurement call " ++ call.1.method ++ " - " ++ call.1.identifier ++ " error: " ++ err.text,
      err.isCritical⟩).toList

def expected (step : Step) (answers : Answers) : List TestError :=
  (step.phases.zipIdx.flatMap fun phase => ((answers.phase phase.2).getD []).map plainError) ++
    (outcomes step answers).flatMap reported

def returnsCritical (step : Step) (answers : Answers) : Bool :=
  (outcomes step answers).any fun call => call.2.any Err.isCritical

/-- The steps up to the first in which a call returns a critical error, with
their indices. -/
def upToCritical (answers : Nat → Answers) (steps : List Step) : List (Step × Nat) :=
  steps.zipIdx.take (steps.zipIdx.findIdx (fun s => returnsCritical s.1 (answers s.2)) + 1)

/-- Every answer to `executeStep` is one that the step can end with. -/
def Answered (answers : Nat → Answers) : Nat → List (Event Reply) → Prop
  | _, [] => True
  | i, ⟨.executeStep step, errs⟩ :: t => Executes step (answers i) errs ∧ Answered answers (i + 1) t
  | i, _ :: t => Answered answers (i + 1) t

/-! ## No error is lost

A call that has not returned still has its error to come. So the number of times
an error is in the lists or to come is the same in every state of the step. -/

variable {i : Nat}

section Tally

theorem sum_eraseIdx {A : Type} {l : List A} {a : A} (f : A → Nat) (h : l[i]? = some a) :
    ((l.eraseIdx i).map f).sum + f a = (l.map f).sum := by
  obtain ⟨hi, rfl⟩ := List.getElem?_eq_some_iff.mp h
  have hperm := ((List.getElem_cons_eraseIdx_perm hi).map f).sum_nat
  rw [List.map_cons, List.sum_cons] at hperm
  omega

theorem sum_set {A : Type} {l : List A} {a : A} (f : A → Nat) (b : A) (h : l[i]? = some a) :
    ((l.set i b).map f).sum + f a = (l.map f).sum + f b := by
  obtain ⟨hi, rfl⟩ := List.getElem?_eq_some_iff.mp h
  have hset := ((List.set_perm_cons_eraseIdx hi b).map f).sum_nat
  have herase := sum_eraseIdx f h
  rw [List.map_cons, List.sum_cons] at hset
  omega

/-- The errors that the calls of a measurement have brought or will bring. -/
def Measuring.tally (e : Err) (m : Measuring) : Nat :=
  m.errList.count e + (m.pending.map fun call => (callErrors call).count e).sum

def StepState.tally (e : Err) (s : StepState) : Nat :=
  s.err.count e + (s.results.map fun result => result.err.count e).sum +
    (s.measuring.map (Measuring.tally e)).sum +
    (s.phases.map fun errs => (phaseErrors errs).count e).sum

variable {s s' : StepState}

theorem returns_cases {i j : Nat} (h : act s (.returns i j) = some s') :
    ∃ m call, s.measuring[i]? = some m ∧ m.pending[j]? = some call ∧
      s' = { s with
        measuring := s.measuring.set i { m with
          pending := m.pending.eraseIdx j
          errList := m.errList ++ callErrors call } } := by
  obtain ⟨m, hm, h⟩ := Option.bind_eq_some_iff.mp h
  obtain ⟨call, hcall, h⟩ := Option.bind_eq_some_iff.mp h
  exact ⟨m, call, hm, hcall, (Option.some.inj h).symm⟩

theorem addSubStepResult_cases (h : act s (.addSubStepResult i) = some s') :
    ∃ m, s.measuring[i]? = some m ∧ m.pending = [] ∧
      s' = { s with
        measuring := s.measuring.eraseIdx i
        results := s.results ++ [⟨m.name, m.id, m.errList⟩] } := by
  obtain ⟨m, hm, h⟩ := Option.bind_eq_some_iff.mp h
  obtain ⟨_, hempty, h⟩ := Option.bind_eq_some_iff.mp h
  exact ⟨m, hm, by simpa [guard] using hempty, (Option.some.inj h).symm⟩

theorem addStepError_cases {k : Nat} (h : act s (.addStepError k) = some s') :
    ∃ errs, s.phases[k]? = some errs ∧
      s' = { s with phases := s.phases.eraseIdx k, err := s.err ++ phaseErrors errs } := by
  obtain ⟨errs, hk, h⟩ := Option.bind_eq_some_iff.mp h
  exact ⟨errs, hk, (Option.some.inj h).symm⟩

theorem tally_act {a : StepAct} (e : Err) (h : act s a = some s') : s'.tally e = s.tally e := by
  cases a with
  | returns i j =>
    obtain ⟨m, call, hm, hcall, rfl⟩ := returns_cases h
    have hpending := sum_eraseIdx (fun call => (callErrors call).count e) hcall
    have hset := sum_set (Measuring.tally e)
      { m with pending := m.pending.eraseIdx j, errList := m.errList ++ callErrors call } hm
    simp only [Measuring.tally, List.count_append] at hset
    simp only [StepState.tally]
    omega
  | addSubStepResult i =>
    obtain ⟨m, hm, hpending, rfl⟩ := addSubStepResult_cases h
    have herase := sum_eraseIdx (Measuring.tally e) hm
    simp only [Measuring.tally, hpending, List.map_nil, List.sum_nil] at herase
    simp only [StepState.tally, List.map_append, List.map_cons, List.map_nil, List.sum_append,
      List.sum_cons, List.sum_nil]
    omega
  | addStepError k =>
    obtain ⟨errs, hk, rfl⟩ := addStepError_cases h
    have herase := sum_eraseIdx (fun errs => (phaseErrors errs).count e) hk
    simp only [StepState.tally, List.count_append]
    omega

/-- The calls and phases that have not returned, and the measurements that have
not been reported. -/
def StepState.rank (s : StepState) : Nat :=
  (s.measuring.map fun m => m.pending.length + 1).sum + s.phases.length

theorem rank_act {a : StepAct} (h : act s a = some s') : s'.rank < s.rank := by
  cases a with
  | returns i j =>
    obtain ⟨m, call, hm, hcall, rfl⟩ := returns_cases h
    obtain ⟨hj, rfl⟩ := List.getElem?_eq_some_iff.mp hcall
    have hlength := List.length_eraseIdx_of_lt hj
    have hset := sum_set (fun m : Measuring => m.pending.length + 1)
      { m with pending := m.pending.eraseIdx j, errList := m.errList ++ callErrors m.pending[j] } hm
    dsimp only at hset
    simp only [StepState.rank]
    omega
  | addSubStepResult i =>
    obtain ⟨m, hm, _, rfl⟩ := addSubStepResult_cases h
    have herase := sum_eraseIdx (fun m : Measuring => m.pending.length + 1) hm
    simp only [StepState.rank]
    omega
  | addStepError k =>
    obtain ⟨errs, hk, rfl⟩ := addStepError_cases h
    obtain ⟨hlt, rfl⟩ := List.getElem?_eq_some_iff.mp hk
    have hlength := List.length_eraseIdx_of_lt hlt
    simp only [StepState.rank]
    omega

/-- As long as something is awaited, one of the goroutines can go on. -/
theorem done_of_stuck (h : ∀ a, act s a = none) : s.Done := by
  constructor
  · match hm : s.measuring with
    | [] => rfl
    | m :: rest =>
      match hp : m.pending with
      | [] =>
        have := h (.addSubStepResult 0)
        simp [act, hm, hp] at this
      | call :: pending =>
        have := h (.returns 0 0)
        simp [act, hm, hp] at this
  · match hp : s.phases with
    | [] => rfl
    | errs :: rest =>
      have := h (.addStepError 0)
      simp [act, hp] at this

theorem step_terminates (s : StepState) : Terminates act (fun _ => True) StepState.Done s := by
  refine terminates_of_decreasing (q := fun _ => True) StepState.rank ?_ ?_ ?_ trivial
  · exact fun _ _ _ _ _ _ => trivial
  · exact fun _ _ _ _ _ h => rank_act h
  · exact fun _ _ h => done_of_stuck fun a => h a trivial

end Tally

/-- The errors that the calls and the phases of the step return, wrapped. -/
def stepErrors (step : Step) (answers : Answers) : List Err :=
  (step.phases.zipIdx.flatMap fun phase => phaseErrors (answers.phase phase.2)) ++
    (outcomes step answers).flatMap callErrors

theorem tally_startStep (step : Step) (answers : Answers) (e : Err) :
    (startStep step answers).tally e = (stepErrors step answers).count e := by
  simp only [StepState.tally, startStep, stepErrors, outcomes, List.count_append,
    List.count_flatMap]
  rw [add_comm]
  rw [List.flatMap_def, List.map_flatten]
  simp [Function.comp_def, Measuring.tally, startMeasurement]

theorem tally_done {s : StepState} (h : s.Done) (e : Err) :
    s.tally e = (getAllErrors s).count e := by
  simp [StepState.tally, getAllErrors, h.1, h.2, List.count_flatMap,
    Function.comp_def]

variable {step : Step} {answers : Answers}

/-- However the goroutines are scheduled, the step reports each error once. -/
theorem getAllErrors_perm {schedule : List StepAct}
    {s : StepState} (h : exec act (startStep step answers) schedule = some s) (done : s.Done) :
    (getAllErrors s).Perm (stepErrors step answers) := by
  rw [List.perm_iff_count]
  intro e
  rw [← tally_done done, ← tally_startStep]
  refine exec_keeps (p := fun t => t.tally e = (startStep step answers).tally e) ?_ rfl h
  exact fun t a t' _ same taken => (tally_act e taken).trans same

theorem stepErrors_map (step : Step) (answers : Answers) :
    (stepErrors step answers).map testError = expected step answers := by
  have hphase : ∀ errs, (phaseErrors errs).map testError = (errs.getD []).map plainError := by
    intro errs
    rw [phaseErrors, List.map_map]
    rfl
  have hcall : ∀ call, (callErrors call).map testError = reported call := by
    rintro ⟨call, _ | err⟩ <;> rfl
  simp only [stepErrors, expected, List.map_append, List.map_flatMap, hphase, hcall]

variable {errs : List TestError}

theorem executes_perm (h : Executes step answers errs) : errs.Perm (expected step answers) := by
  obtain ⟨schedule, s, run, done, rfl⟩ := h
  rw [← stepErrors_map]
  exact (getAllErrors_perm run done).map testError

theorem critical_reported (call : Call × Option Err) :
    (reported call).any TestError.critical = call.2.any Err.isCritical := by
  rcases call with ⟨call, _ | err⟩ <;> simp [reported]

/-- Only the measurements make a step critical. -/
theorem isErrsCritical_executes
    (h : Executes step answers errs) : isErrsCritical errs = returnsCritical step answers := by
  have hphase : ∀ texts : List String, (texts.map plainError).any TestError.critical = false := by
    simp [plainError]
  rw [isErrsCritical, (executes_perm h).any_eq, expected, List.any_append]
  simp [hphase, critical_reported, returnsCritical]

/-! ## The steps of a test -/

theorem executeTestSteps_perm {answers : Nat → Answers} {steps : List Step} {t : List (Event Reply)}
    (he : Exec (executeTestSteps i steps) t errs) (answered : Answered answers i t) :
    let executed := (steps.zipIdx i).take
      ((steps.zipIdx i).findIdx (fun s => returnsCritical s.1 (answers s.2)) + 1)
    t.map Sigma.fst =
        executed.map (fun s => .executeStep { s.1 with name := stepName s.2 s.1.name }) ∧
      errs.Perm (executed.flatMap fun s => expected s.1 (answers s.2)) := by
  induction steps generalizing i t errs with
  | nil =>
    obtain ⟨rfl, rfl⟩ := exec_done he
    exact ⟨rfl, .nil⟩
  | cons step rest ih =>
    obtain ⟨r, t', rfl, hrest⟩ := exec_request_bind he
    obtain ⟨hstep, answered⟩ := answered
    have hcritical : isErrsCritical r = returnsCritical step (answers i) :=
      isErrsCritical_executes hstep
    have hperm : r.Perm (expected step (answers i)) := executes_perm hstep
    rw [List.zipIdx_cons, List.findIdx_cons]
    split at hrest <;> rename_i hr
    · obtain ⟨rfl, rfl⟩ := exec_done hrest
      rw [← hcritical, hr]
      simpa using hperm
    · obtain ⟨t₁, others, t₂, rfl, hothers, hend⟩ := exec_bind hrest
      obtain ⟨rfl, rfl⟩ := exec_done hend
      rw [List.append_nil] at answered
      obtain ⟨requests, errors⟩ := ih hothers answered
      rw [← hcritical, eq_false_of_ne_true hr]
      constructor
      · simpa using requests
      · simpa using hperm.append errors

/-- However the measurements and the phases of a step are scheduled, they all
end. The steps up to the first with a critical error are executed, and each of
their errors is returned once. -/
theorem executeTestSteps_stops_at_critical (steps : List Step) (answers : Nat → Answers) :
    (∀ i step, Terminates act (fun _ => True) StepState.Done (startStep step (answers i))) ∧
    ∀ t errs, Exec (executeTestSteps 0 steps) t errs → Answered answers 0 t →
      t.map Sigma.fst = (upToCritical answers steps).map
        (fun s => .executeStep { s.1 with name := stepName s.2 s.1.name }) ∧
      errs.Perm ((upToCritical answers steps).flatMap fun s => expected s.1 (answers s.2)) := by
  constructor
  · exact fun i step => step_terminates _
  · exact fun t errs he answered => executeTestSteps_perm he answered

section Witness

private def waitStep : Step where
  phases := []
  measurements := [⟨"WaitForPods", "", [⟨"first"⟩, ⟨"second"⟩]⟩]
  moduleRef := ⟨"", none⟩
  name := "wait"

/-- The second instance fails critically, and its call returns first. -/
private def waitAnswers (_ : Nat) : Answers where
  measurement _ j := if j = 1 then some (newErrCritical (.new "timeout")) else some (.new "list")
  phase _ := none

private def waitErrors : List TestError :=
  [⟨"measurement call WaitForPods - second error: criticl error: timeout", true⟩,
    ⟨"measurement call WaitForPods - first error: list", false⟩]

private def waitTrace : List (Event Reply) :=
  [⟨.executeStep { waitStep with name := stepName 0 waitStep.name }, waitErrors⟩]

private theorem waitTrace_exec :
    Exec (executeTestSteps 0 [waitStep, waitStep]) waitTrace waitErrors :=
  .ask (.done _)

private theorem waitTrace_answered : Answered waitAnswers 0 waitTrace := by
  refine ⟨⟨[.returns 0 1, .returns 0 0, .addSubStepResult 0], _, rfl, ⟨rfl, rfl⟩, ?_⟩, trivial⟩
  decide

theorem executeTestSteps_stops_second_instance :
    Exec (executeTestSteps 0 [waitStep, waitStep]) waitTrace waitErrors ∧
    Answered waitAnswers 0 waitTrace ∧
    waitErrors.Perm ((upToCritical waitAnswers [waitStep, waitStep]).flatMap
      fun s => expected s.1 (waitAnswers s.2)) := by
  refine ⟨waitTrace_exec, waitTrace_answered, ?_⟩
  have stops := (executeTestSteps_stops_at_critical [waitStep, waitStep] waitAnswers).2
  exact (stops waitTrace waitErrors waitTrace_exec waitTrace_answered).2

end Witness

end StepErrors
