import ClusterLoader.PhaseRequests
import Mathlib.Data.Rat.Defs

/-!
# The configuration of a test

A test configuration is decoded from a template and handed from function to
function: the modifier, the flattening of modules, the defaults, the validator
and the executor each read or write part of it. This module holds the
configuration and its defaults.

Pointers of the source are options. Those in lists are taken not to be nil, but
for the steps: a list of steps that is decoded may have nil entries. Durations are
counted in nanoseconds. The floating-point fields hold decoded numbers, which are
finite, so they are rationals here. Parameters of measurements and dependencies are
read by no function of this development and are left out.
-/

namespace TestConfig

open PhaseRequests

/-- A phase as it is decoded. The number of replicas may still be negative. -/
structure PhaseConfig where
  namespaceRange : Option NamespaceRange
  namespaceList : Option (List String)
  replicasPerNamespace : Int
  tuningSet : String
  objectBundle : List Object

/-- The phase that is executed once the number of replicas is known not to be
negative. -/
def PhaseConfig.toPhase (p : PhaseConfig) : Phase where
  namespaceRange := p.namespaceRange
  namespaceList := p.namespaceList
  replicasPerNamespace := p.replicasPerNamespace.toNat
  tuningSet := p.tuningSet
  objectBundle := p.objectBundle

structure MeasurementInstanceConfig where
  identifier : String

structure Measurement where
  method : String
  identifier : String
  instances : List MeasurementInstanceConfig

structure ModuleRef where
  path : String
  params : Option Mapping

structure Step where
  phases : List PhaseConfig
  measurements : List Measurement
  moduleRef : ModuleRef
  name : String

def Step.isModule (s : Step) : Bool := s.moduleRef.path ≠ ""

structure Dependency where
  name : String
  method : String
  timeout : Int
  deriving DecidableEq

structure QPSLoad where
  qps : ℚ

structure RandomizedLoad where
  averageQPS : ℚ

structure SteppedLoad where
  burstSize : Int
  stepDelay : Int

structure TimeLimitedLoad where
  timeLimit : Int

structure RandomizedTimeLimitedLoad where
  timeLimit : Int

structure ParallelismLimitedLoad where
  parallelismLimit : Int

structure GlobalQPSLoad where
  qps : ℚ
  burst : Int

structure PoissonLoad where
  expectedActionsPerSecond : ℚ

/-- A declared tuning set; nothing but the validator keeps it from having no
load or several. -/
structure TuningSetConfig where
  name : String
  qpsLoad : Option QPSLoad
  randomizedLoad : Option RandomizedLoad
  steppedLoad : Option SteppedLoad
  timeLimitedLoad : Option TimeLimitedLoad
  randomizedTimeLimitedLoad : Option RandomizedTimeLimitedLoad
  parallelismLimitedLoad : Option ParallelismLimitedLoad
  globalQPSLoad : Option GlobalQPSLoad
  poissonLoad : Option PoissonLoad

structure NamespaceConfig where
  number : Int
  namePrefix : String
  deleteStaleNamespaces : Option Bool
  deleteAutomanagedNamespaces : Option Bool
  enableExistingNamespaces : Option Bool
  deleteNamespaceTimeout : Option Int

structure NodeFailureConfig where
  failureRate : ℚ
  interval : Int
  jitterFactor : ℚ
  simulatedDowntime : Int

structure ChaosMonkeyConfig where
  nodeFailure : Option NodeFailureConfig
  excludedNodes : Option (List String)

/-- A configuration with steps of the given type. -/
structure ConfigOf (S : Type) where
  name : String
  dependencies : List Dependency
  automanagedNamespaces : Int
  namespaceConfig : NamespaceConfig
  steps : List S
  tuningSets : List TuningSetConfig
  chaosMonkey : ChaosMonkeyConfig

abbrev Config := ConfigOf Step

/-- As it is decoded, where a step may be a nil pointer. -/
abbrev DecodedConfig := ConfigOf (Option Step)

def ConfigOf.withSteps {S S' : Type} (c : ConfigOf S) (steps : List S') : ConfigOf S' :=
  ⟨c.name, c.dependencies, c.automanagedNamespaces, c.namespaceConfig, steps, c.tuningSets,
    c.chaosMonkey⟩

def defaultNamespaceDeletionTimeout : Int := 10 * 60 * 1000000000

/-- `random` is the text drawn for the default of the prefix. -/
def NamespaceConfig.setDefaults (random : String) (ns : NamespaceConfig) : NamespaceConfig where
  number := if ns.number = 0 then 1 else ns.number
  namePrefix := if ns.namePrefix = "" then "test-" ++ random else ns.namePrefix
  deleteStaleNamespaces := some (ns.deleteStaleNamespaces.getD false)
  deleteAutomanagedNamespaces := some (ns.deleteAutomanagedNamespaces.getD true)
  enableExistingNamespaces := some (ns.enableExistingNamespaces.getD false)
  deleteNamespaceTimeout :=
    some (ns.deleteNamespaceTimeout.getD defaultNamespaceDeletionTimeout)

/-- The deprecated number of namespaces counts where the new one is 1. -/
def Config.setDefaults (random : String) (conf : Config) : Config :=
  let ns := conf.namespaceConfig.setDefaults random
  { conf with namespaceConfig :=
      if ns.number = 1 ∧ conf.automanagedNamespaces > 1 then
        { ns with number := conf.automanagedNamespaces }
      else ns }

/-- The number of namespaces after the defaults. -/
def defaultedNumber (number automanagedNamespaces : Int) : Int :=
  if (number = 0 ∨ number = 1) ∧ automanagedNamespaces > 1 then automanagedNamespaces
  else if number = 0 then 1 else number

section Defaults
variable (random : String) (conf : Config)

theorem setDefaults_namespaceConfig :
    (conf.setDefaults random).namespaceConfig =
      { conf.namespaceConfig.setDefaults random with
        number := defaultedNumber conf.namespaceConfig.number conf.automanagedNamespaces } := by
  simp only [Config.setDefaults, NamespaceConfig.setDefaults, defaultedNumber]
  by_cases hzero : conf.namespaceConfig.number = 0
  · simp only [hzero, if_pos, true_or]
    split <;> rfl
  · simp only [hzero, if_false, false_or]
    split <;> rfl

/-- The defaults keep a number exactly when it is not 0 and does not give way
to the deprecated number. -/
theorem defaultedNumber_eq_self_iff (number automanagedNamespaces : Int) :
    defaultedNumber number automanagedNamespaces = number ↔
      number ≠ 0 ∧ (number = 1 → automanagedNamespaces ≤ 1) := by
  unfold defaultedNumber
  split
  · omega
  · split <;> omega

end Defaults

/-- One namespace, and nothing to execute. -/
def plainConfig : Config where
  name := "load"
  dependencies := []
  automanagedNamespaces := 0
  namespaceConfig := ⟨1, "test", some false, some true, some false, some 0⟩
  steps := []
  tuningSets := []
  chaosMonkey := ⟨none, none⟩

end TestConfig
