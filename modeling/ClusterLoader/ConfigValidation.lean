import ClusterLoader.TestConfig
import Mathlib.Data.List.Enum
import Mathlib.Algebra.GroupWithZero.Nat

/-!
# The configuration validator

The validator walks a configuration and collects one error per violated
condition, each with the path of the field, the value found and a text. It
never stops early. A configuration is accepted when the list is empty.

Whether a file exists, which methods are registered and what is wrong with a
base name are questions to the file system, the registries and a library; they
are the parameters of `ConfigValidator`. A configuration with a null entry in
one of its lists makes the source panic and is not representable here.
-/

namespace ConfigValidation

open PhaseRequests TestConfig

inductive ErrorType where
  | required
  | invalid
  | forbidden

inductive BadValue where
  | none
  | int (i : Int)
  | float (q : ℚ)
  | str (s : String)
  | measurements (ms : List Measurement)

structure FieldError where
  type : ErrorType
  field : String
  badValue : BadValue
  detail : String

def invalid (field : String) (badValue : BadValue) (detail : String) : FieldError :=
  ⟨.invalid, field, badValue, detail⟩

def required (field detail : String) : FieldError := ⟨.required, field, .none, detail⟩

def forbidden (field detail : String) : FieldError := ⟨.forbidden, field, .none, detail⟩

def child (path name : String) : String := path ++ "." ++ name

def index (path : String) (i : Nat) : String := path ++ "[" ++ toString i ++ "]"

structure ConfigValidator where
  cwd : String
  configDir : String
  /-- Whether stat reports that there is no such file. -/
  isNotExist : String → Bool
  isDNS1123Subdomain : String → List String
  registeredDependencies : String → Bool
  registeredMeasurements : String → Bool

/-- The error of a condition that is violated. -/
def check (violated : Bool) (e : FieldError) : List FieldError := if violated then [e] else []

/-- The errors of all elements of a list, each checked under its own path. -/
def forEach {A : Type} (xs : List A) (path : String) (validate : A → String → List FieldError) :
    List FieldError :=
  xs.zipIdx.flatMap fun p => validate p.1 (index path p.2)

variable (v : ConfigValidator)

/-- A relative path that does not exist is tried once more under the
configuration's directory alone. -/
def fileExists (path : String) : Bool :=
  if v.isNotExist (v.cwd ++ "/" ++ v.configDir ++ "/" ++ path) then
    !v.isNotExist (v.configDir ++ "/" ++ path)
  else true

def validateNamespace (ns : NamespaceConfig) (path : String) : List FieldError :=
  check (ns.number ≤ 0) (invalid (child path "number") (.int ns.number) "must be positive")

def validateDependencyMethod (method path : String) : List FieldError :=
  check (method = "") (required path "method is required") ++
  check (!v.registeredDependencies method)
    (invalid path (.str method) "dependency method is not registered")

def validateDependency (d : Dependency) (path : String) : List FieldError :=
  check (d.name = "") (required (child path "name") "name is required") ++
  check (d.timeout < 0)
    (invalid (child path "timeout") (.int d.timeout) "timeout cannot be negative") ++
  validateDependencyMethod v d.method (child path "method")

/-- The check that all kinds of load share. -/
def positiveInt (path name : String) (i : Int) : List FieldError :=
  check (i ≤ 0) (invalid (child path name) (.int i) "must have positive value")

def positiveFloat (path name : String) (q : ℚ) : List FieldError :=
  check (q ≤ 0) (invalid (child path name) (.float q) "must have positive value")

def validateQPSLoad (ql : QPSLoad) (path : String) : List FieldError :=
  positiveFloat path "qps" ql.qps

def validateRandomizedLoad (rl : RandomizedLoad) (path : String) : List FieldError :=
  positiveFloat path "averageQps" rl.averageQPS

def validateSteppedLoad (sl : SteppedLoad) (path : String) : List FieldError :=
  positiveInt path "burstSize" sl.burstSize

def validateTimeLimitedLoad (tll : TimeLimitedLoad) (path : String) : List FieldError :=
  positiveInt path "timeLimit" tll.timeLimit

def validateRandomizedTimeLimitedLoad (rtl : RandomizedTimeLimitedLoad) (path : String) :
    List FieldError :=
  positiveInt path "timeLimit" rtl.timeLimit

def validateParallelismTimeLimitedLoad (ptl : ParallelismLimitedLoad) (path : String) :
    List FieldError :=
  positiveInt path "parallelismLimit" ptl.parallelismLimit

def validateGlobalQPSLoad (gl : GlobalQPSLoad) (path : String) : List FieldError :=
  positiveFloat path "qps" gl.qps ++ positiveInt path "burst" gl.burst

def validatePoissonLoad (pl : PoissonLoad) (path : String) : List FieldError :=
  positiveFloat path "expectedActionsPerSecond" pl.expectedActionsPerSecond

/-- A load that is present adds its errors and counts as one. -/
def validateLoad {L : Type} (load : Option L) (validate : L → List FieldError) :
    Nat × List FieldError :=
  match load with
  | none => (0, [])
  | some l => (1, validate l)

/-- The checks of the loads in the order of the source. -/
def loadChecks (ts : TuningSetConfig) (path : String) : List (Nat × List FieldError) :=
  [validateLoad ts.qpsLoad (validateQPSLoad · (child path "qpsLoad")),
   validateLoad ts.randomizedLoad (validateRandomizedLoad · (child path "randomizedLoad")),
   validateLoad ts.steppedLoad (validateSteppedLoad · (child path "steppedLoad")),
   validateLoad ts.timeLimitedLoad (validateTimeLimitedLoad · (child path "timeLimitedLoad")),
   validateLoad ts.randomizedTimeLimitedLoad
     (validateRandomizedTimeLimitedLoad · (child path "randomizedTimeLimitedLoad")),
   validateLoad ts.parallelismLimitedLoad
     (validateParallelismTimeLimitedLoad · (child path "parallelismLimitedLoad")),
   validateLoad ts.globalQPSLoad (validateGlobalQPSLoad · (child path "globalQPSLoad")),
   validateLoad ts.poissonLoad (validatePoissonLoad · (child path "poissonLoad"))]

def validateTuningSet (ts : TuningSetConfig) (path : String) : List FieldError :=
  (loadChecks ts path).flatMap Prod.snd ++
  check (((loadChecks ts path).map Prod.fst).sum ≠ 1)
    (forbidden path "must specify exactly 1 tuning set type")

def validateNamespaceRange (nr : NamespaceRange) (path : String) : List FieldError :=
  check (nr.min < 0) (invalid (child path "min") (.int nr.min) "must be non-negative") ++
  check (nr.max < nr.min) (invalid (child path "max") (.int nr.max) "must be greater than min")

def validateObject (o : Object) (path : String) : List FieldError :=
  (v.isDNS1123Subdomain o.basename).map (invalid (child path "basename") (.str o.basename)) ++
  check (!fileExists v o.objectTemplatePath)
    (invalid (child path "objectTemplatePath") (.str o.objectTemplatePath) "file must exist")

def validatePhase (p : PhaseConfig) (path : String) : List FieldError :=
  check (p.namespaceList.isSome && p.namespaceRange.isSome)
    (forbidden path "must specify at most 1 of namespaceList and namespaceRange") ++
  (match p.namespaceRange with
    | none => []
    | some nr => validateNamespaceRange nr (child path "namespaceRange")) ++
  check (p.replicasPerNamespace < 0)
    (invalid (child path "replicasPerNamespace") (.int p.replicasPerNamespace)
      "must be non-negative") ++
  forEach p.objectBundle (child path "objectBundle") (validateObject v)

def validateMeasurementMethod (method path : String) : List FieldError :=
  check (method = "") (required path "method is required") ++
  check (!v.registeredMeasurements method)
    (invalid path (.str method) "measurement method is not registered")

def validateMeasurement (m : Measurement) (path : String) : List FieldError :=
  check (m.instances ≠ [] && m.identifier ≠ "")
    (invalid (child path "Identifier") (.str m.identifier)
      " cannot be non empty when Instances specified") ++
  check (m.instances = [] && m.identifier = "")
    (invalid (child path "Identifier") (.str m.identifier)
      " and Instances cannot be both empty") ++
  validateMeasurementMethod v m.method (child path "method")

def validateStep (s : Step) (path : String) : List FieldError :=
  forEach s.phases (child path "phases") (validatePhase v) ++
  forEach s.measurements (child path "measurements") (validateMeasurement v) ++
  check (s.phases.isEmpty && s.measurements.isEmpty)
    (invalid (child path "measurements") (.measurements s.measurements)
      "can't be empty with empty phases") ++
  check (!s.phases.isEmpty && !s.measurements.isEmpty)
    (invalid (child path "measurements") (.measurements s.measurements)
      "can't be non-empty with non-empty phases")

/-- A phase that names no tuning set passes. -/
def validateTuningSetInPhase (tuningSets : List TuningSetConfig) (s : Step) (path : String) :
    List FieldError :=
  forEach s.phases (child path "phases") fun p phasePath =>
    check (p.tuningSet ≠ "" && !tuningSets.any (p.tuningSet = ·.name))
      (invalid (child phasePath "tuningSet") (.str p.tuningSet)
        "tuning set referenced has not been declared")

def handleTuningSetInPhase (c : Config) : List FieldError :=
  forEach c.steps "steps" (validateTuningSetInPhase c.tuningSets)

def validate (c : Config) : List FieldError :=
  check (c.automanagedNamespaces < 0)
    (invalid "automanagedNamespaces" (.int c.automanagedNamespaces) "must be non-negative") ++
  validateNamespace c.namespaceConfig "namespace" ++
  forEach c.dependencies "dependencies" (validateDependency v) ++
  forEach c.tuningSets "tuningSets" validateTuningSet ++
  check c.steps.isEmpty (invalid "steps" (.int 0) "cannot be empty") ++
  forEach c.steps "steps" (validateStep v) ++
  handleTuningSetInPhase c

section Accepted

theorem check_eq_nil {violated : Bool} {e : FieldError} :
    check violated e = [] ↔ violated = false := by
  cases violated <;> simp [check]

theorem forEach_eq_nil {A : Type} {xs : List A} {path : String}
    {validate : A → String → List FieldError} (h : forEach xs path validate = []) {x : A}
    (hx : x ∈ xs) : ∃ elementPath, validate x elementPath = [] := by
  obtain ⟨i, hi, rfl⟩ := List.mem_iff_getElem.mp hx
  have hmem : (xs[i], i) ∈ xs.zipIdx := by
    rw [List.mem_zipIdx_iff_getElem?]
    exact List.getElem?_eq_getElem hi
  exact ⟨index path i, List.flatMap_eq_nil_iff.mp h _ hmem⟩

variable {v}
variable {c : Config}

theorem tuningSet_accepted (h : validate v c = []) {ts : TuningSetConfig}
    (hts : ts ∈ c.tuningSets) : ∃ path, validateTuningSet ts path = [] := by
  simp only [validate, List.append_eq_nil_iff] at h
  obtain ⟨⟨⟨⟨_, htuning⟩, _⟩, _⟩, _⟩ := h
  exact forEach_eq_nil htuning hts

variable {s : Step} {p : PhaseConfig}

/-- In an accepted configuration a phase that names a tuning set names a
declared one. -/
theorem phase_tuningSet_declared (h : validate v c = [])
    (hs : s ∈ c.steps) (hp : p ∈ s.phases) (named : p.tuningSet ≠ "") :
    ∃ ts ∈ c.tuningSets, ts.name = p.tuningSet := by
  simp only [validate, List.append_eq_nil_iff] at h
  obtain ⟨stepPath, hstep⟩ := forEach_eq_nil h.2 hs
  obtain ⟨phasePath, hphase⟩ := forEach_eq_nil hstep hp
  rw [check_eq_nil] at hphase
  simp only [ne_eq, named, not_false_eq_true, decide_true, Bool.true_and, Bool.not_eq_false',
    List.any_eq_true, decide_eq_true_eq] at hphase
  obtain ⟨ts, hts, hname⟩ := hphase
  exact ⟨ts, hts, hname.symm⟩

theorem phase_accepted (h : validate v c = []) (hs : s ∈ c.steps)
    (hp : p ∈ s.phases) : ∃ path, validatePhase v p path = [] := by
  simp only [validate, List.append_eq_nil_iff] at h
  obtain ⟨stepPath, hstep⟩ := forEach_eq_nil h.1.2 hs
  simp only [validateStep, List.append_eq_nil_iff] at hstep
  exact forEach_eq_nil hstep.1.1.1 hp

end Accepted

end ConfigValidation
