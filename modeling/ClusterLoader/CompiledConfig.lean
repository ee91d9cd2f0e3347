import ClusterLoader.ConfigModifier
import ClusterLoader.ConfigValidation
import ClusterLoader.FallibleLoops

/-!
# Compiling a test configuration and running it

Compiling decodes the configuration, applies the modifier, replaces module
steps by the steps of the modules, fills in defaults and validates. Running
applies the same modifier once more, to the compiled configuration, and hands
the result to the executor without validating it again.

The main theorem says when the second application changes nothing. Modules are
loaded through a parameter, up to a depth of nesting: a module that includes
itself makes the source recurse without end, and compiling is then unfinished
at every depth. Flattening panics when it comes to a nil step, so the compiled
configuration has none.
-/

namespace CompiledConfig

open PhaseRequests TestConfig FieldWrites ConfigModifier ConfigValidation FallibleLoops

inductive LoadError where
  | pathNotSet (ref : ModuleRef)
  | processing (ref : ModuleRef) (cause : String)

inductive CompileFailure where
  | reading (cause : String)
  | mutation (cause : Failure)
  | flattening (cause : LoadError)
  /-- The panic of flattening at a nil step. -/
  | nilStep
  /-- The configuration is returned along with the errors, for debugging. -/
  | rejected (config : Config) (errors : List FieldError)
  | unfinished

/-- What the test context answers. `random` is the text drawn for a default. -/
structure TestContext where
  templateToConfig : Except String DecodedConfig
  templateMapping : Mapping
  templateInto : String → Mapping → Except String (List (Option Step))
  deleteStaleNamespaces : Bool
  deleteAutomanagedNamespaces : Bool
  modifierConfig : ModifierConfig
  validator : ConfigValidator
  random : String

/-- How the steps of modules are loaded. -/
abbrev Loader := ModuleRef → Except LoadError (List (Option Step))

/-- The parameters of the reference override the mapping of the test. -/
def loadModule (ctx : TestContext) : Loader := fun ref =>
  if ref.path = "" then .error (.pathNotSet ref)
  else
    let mapping := match ref.params with
      | some params => copyMap params ctx.templateMapping
      | none => ctx.templateMapping
    (ctx.templateInto ref.path mapping).mapError (.processing ref)

/-- The steps that take the place of a step, given how the steps of a module
are flattened. -/
def processStep (load : Loader)
    (flatten : List (Option Step) → Except CompileFailure (List Step)) :
    Option Step → Except CompileFailure (List Step)
  | none => .error .nilStep
  | some step =>
    if step.isModule then do
      let steps ← (load step.moduleRef).mapError .flattening
      flatten steps
    else .ok [step]

/-- The loop over the steps. -/
def flattenEach (load : Loader)
    (flatten : List (Option Step) → Except CompileFailure (List Step)) :
    List (Option Step) → Except CompileFailure (List Step)
  | [] => .ok []
  | step :: rest => do
    let processed ← processStep load flatten step
    let others ← flattenEach load flatten rest
    return processed ++ others

def flattenModuleSteps (load : Loader) :
    Nat → List (Option Step) → Except CompileFailure (List Step)
  | 0 => fun _ => .error .unfinished
  | depth + 1 => flattenEach load (flattenModuleSteps load depth)

/-- The deprecated command line options stand in for missing values. -/
def deprecatedOptions (ctx : TestContext) (c : Config) : Config :=
  { c with namespaceConfig := { c.namespaceConfig with
      deleteStaleNamespaces :=
        some (c.namespaceConfig.deleteStaleNamespaces.getD ctx.deleteStaleNamespaces)
      deleteAutomanagedNamespaces := some
        (c.namespaceConfig.deleteAutomanagedNamespaces.getD ctx.deleteAutomanagedNamespaces) } }

/-- What becomes of a modified configuration before it is validated. -/
def finish (ctx : TestContext) (steps : List Step) (modified : DecodedConfig) : Config :=
  (deprecatedOptions ctx (modified.withSteps steps)).setDefaults ctx.random

def validated (v : ConfigValidator) (c : Config) : Except CompileFailure Config :=
  match validate v c with
  | [] => .ok c
  | errors => .error (.rejected c errors)

def compileTestConfig (depth : Nat) (ctx : TestContext) : Except CompileFailure Config := do
  let decoded ← ctx.templateToConfig.mapError .reading
  let modified ← (changeTest ctx.modifierConfig decoded).mapError .mutation
  let steps ← flattenModuleSteps (loadModule ctx) depth modified.steps
  validated ctx.validator (finish ctx steps modified)

/-- The configuration that RunTest hands to the executor. -/
def runTest (ctx : TestContext) (compiled : Config) : Except Failure Config :=
  changeTest ctx.modifierConfig compiled

theorem bind_of_ok {E A B : Type} {x : Except E A} {a : A} (h : x = .ok a)
    (f : A → Except E B) : x >>= f = f a := by
  rw [h]
  rfl

theorem ok_of_mapError {E E' A : Type} {x : Except E A} {f : E → E'} {a : A}
    (h : x.mapError f = .ok a) : x = .ok a := by
  cases x with
  | error e => cases h
  | ok b =>
    cases h
    rfl

theorem mapError_of_ok {E E' A : Type} {x : Except E A} {a : A} (h : x = .ok a) (f : E → E') :
    x.mapError f = .ok a := by
  rw [h]
  rfl

section Flattening
variable {load : Loader}

/-- The step `s`, itself no module, is a step of the module that `m` refers
to, or of a module that module refers to. -/
inductive Inside (load : Loader) : Step → Step → Prop where
  | direct {m s : Step} {steps : List (Option Step)} (loaded : load m.moduleRef = .ok steps)
      (mem : some s ∈ steps) (executable : s.isModule = false) : Inside load m s
  | nested {m n s : Step} {steps : List (Option Step)} (loaded : load m.moduleRef = .ok steps)
      (mem : some n ∈ steps) (isModule : n.isModule = true) (inside : Inside load n s) :
      Inside load m s

/-- `s` is executed on behalf of the step `t`. -/
def StandsFor (load : Loader) (t s : Step) : Prop :=
  if t.isModule then Inside load t s else s = t

variable {steps : List (Option Step)}

theorem inside_iff {m s : Step} (loaded : load m.moduleRef = .ok steps) :
    Inside load m s ↔ ∃ t, some t ∈ steps ∧ StandsFor load t s := by
  constructor
  · intro inside
    cases inside with
    | direct loaded' mem executable =>
      cases loaded.symm.trans loaded'
      exact ⟨s, mem, by simp only [StandsFor, executable, Bool.false_eq_true, if_false]⟩
    | nested loaded' mem isModule inside =>
      cases loaded.symm.trans loaded'
      exact ⟨_, mem, by rwa [StandsFor, if_pos isModule]⟩
  · rintro ⟨t, mem, stands⟩
    rw [StandsFor] at stands
    split at stands
    · rename_i isModule
      exact .nested loaded mem isModule stands
    · rename_i executable
      subst stands
      exact .direct loaded mem (Bool.eq_false_iff.mpr executable)

/-- One round of the loop, when it goes on. -/
theorem flattenEach_cons {flatten : List (Option Step) → Except CompileFailure (List Step)}
    {entry : Option Step} {rest : List (Option Step)} {out : List Step}
    (h : flattenEach load flatten (entry :: rest) = .ok out) :
    ∃ step processed others, entry = some step ∧ out = processed ++ others ∧
      flattenEach load flatten rest = .ok others ∧
      ((step.isModule = true ∧ ∃ steps, load step.moduleRef = .ok steps ∧
          flatten steps = .ok processed) ∨
        (step.isModule = false ∧ processed = [step])) := by
  obtain ⟨processed, hprocessed, h⟩ := bind_eq_ok.mp h
  obtain ⟨others, hrest, h⟩ := bind_eq_ok.mp h
  cases h
  cases entry with
  | none => cases hprocessed
  | some step =>
    refine ⟨step, processed, others, rfl, rfl, hrest, ?_⟩
    rw [processStep] at hprocessed
    cases hmodule : step.isModule with
    | true =>
      rw [hmodule] at hprocessed
      obtain ⟨steps, hload, hflat⟩ := bind_eq_ok.mp hprocessed
      exact .inl ⟨rfl, steps, ok_of_mapError hload, hflat⟩
    | false =>
      rw [hmodule] at hprocessed
      cases hprocessed
      exact .inr ⟨rfl, rfl⟩

theorem mem_flattenModuleSteps {depth : Nat} {out : List Step}
    (h : flattenModuleSteps load depth steps = .ok out) (s : Step) :
    s ∈ out ↔ ∃ t, some t ∈ steps ∧ StandsFor load t s := by
  induction depth generalizing steps out with
  | zero => cases h
  | succ depth ihdepth =>
    -- the outer induction is on the depth, this one goes along the list
    induction steps generalizing out with
    | nil =>
      cases h
      simp
    | cons entry rest ih =>
      obtain ⟨step, processed, others, rfl, rfl, hrest, hstep⟩ := flattenEach_cons h
      have hprocessed : s ∈ processed ↔ StandsFor load step s := by
        rcases hstep with ⟨isModule, moduleSteps, loaded, flattened⟩ | ⟨executable, rfl⟩
        · rw [ihdepth flattened, StandsFor, if_pos isModule, inside_iff loaded]
        · rw [List.mem_singleton, StandsFor, if_neg (by rw [executable]; simp)]
      rw [List.mem_append, hprocessed, ih hrest]
      simp only [List.mem_cons, Option.some_inj, or_and_right, exists_or, exists_eq_left]

end Flattening

theorem validated_ok {v : ConfigValidator} {c compiled : Config}
    (h : validated v c = .ok compiled) : compiled = c ∧ validate v compiled = [] := by
  rw [validated] at h
  split at h
  · rename_i accepted
    cases h
    exact ⟨rfl, accepted⟩
  · cases h

/-- The steps of the modified configuration are replaced anyway. -/
theorem finish_modified (ctx : TestContext) (steps : List Step) (skipSteps : List String)
    (ws : List Overwrite) (c : DecodedConfig) :
    finish ctx steps (modified skipSteps ws c) = finish ctx steps (configWrites.applyAll ws c) := by
  rw [modified, applyAll_withSteps]
  rfl

variable (skipSteps : List String)

theorem modified_steps {S : Type} [Entry S] (ws : List Overwrite) (c : ConfigOf S) :
    (modified skipSteps ws c).steps = c.steps.filter (unskipped skipSteps) :=
  applyAll_steps ws _

variable {depth : Nat} {ctx : TestContext}

theorem compileTestConfig_ok {compiled : Config}
    (h : compileTestConfig depth ctx = .ok compiled) {decoded : DecodedConfig}
    (read : ctx.templateToConfig = .ok decoded) :
    ∃ ws steps, readAll ctx.modifierConfig.overwriteTestConfig = .ok ws ∧
      flattenModuleSteps (loadModule ctx) depth
        (decoded.steps.filter (unskipped ctx.modifierConfig.skipSteps)) = .ok steps ∧
      compiled = finish ctx steps (configWrites.applyAll ws decoded) ∧
      validate ctx.validator compiled = [] := by
  rw [compileTestConfig, read] at h
  obtain ⟨_, hread, h⟩ := bind_eq_ok.mp h
  cases ok_of_mapError hread
  obtain ⟨changed, hchanged, h⟩ := bind_eq_ok.mp h
  obtain ⟨steps, hsteps, h⟩ := bind_eq_ok.mp h
  have hchange := ok_of_mapError hchanged
  rw [changeTest_eq] at hchange
  split at hchange
  · cases hws : readAll ctx.modifierConfig.overwriteTestConfig with
    | error e => rw [hws] at hchange; cases hchange
    | ok ws =>
      rw [hws] at hchange
      cases hchange
      rw [modified_steps] at hsteps
      refine ⟨ws, steps, rfl, hsteps, ?_⟩
      rw [finish_modified] at h
      exact validated_ok h
  · cases hchange

theorem compileTestConfig_of {decoded : DecodedConfig} {compiled : Config}
    (read : ctx.templateToConfig = .ok decoded) {ws : List Overwrite}
    (hread : readAll ctx.modifierConfig.overwriteTestConfig = .ok ws)
    (skippable : Skippable ctx.modifierConfig.skipSteps decoded.steps) {steps : List Step}
    (hsteps : flattenModuleSteps (loadModule ctx) depth
      (decoded.steps.filter (unskipped ctx.modifierConfig.skipSteps)) = .ok steps)
    (hfinish : finish ctx steps (configWrites.applyAll ws decoded) = compiled)
    (accepted : validate ctx.validator compiled = []) :
    compileTestConfig depth ctx = .ok compiled := by
  have hchange : changeTest ctx.modifierConfig decoded =
      .ok (modified ctx.modifierConfig.skipSteps ws decoded) := by
    rw [changeTest_eq, if_pos skippable, hread]
    rfl
  have hflat : flattenModuleSteps (loadModule ctx) depth
      (modified ctx.modifierConfig.skipSteps ws decoded).steps = .ok steps := by
    rw [modified_steps]
    exact hsteps
  rw [compileTestConfig, bind_of_ok (mapError_of_ok read _), bind_of_ok (mapError_of_ok hchange _),
    bind_of_ok hflat, finish_modified, hfinish, validated, accepted]

theorem finish_namespaceConfig (ctx : TestContext) (steps : List Step) (c : DecodedConfig) :
    (finish ctx steps c).namespaceConfig =
      { number := defaultedNumber c.namespaceConfig.number c.automanagedNamespaces
        namePrefix :=
          if c.namespaceConfig.namePrefix = "" then "test-" ++ ctx.random
          else c.namespaceConfig.namePrefix
        deleteStaleNamespaces :=
          some (c.namespaceConfig.deleteStaleNamespaces.getD ctx.deleteStaleNamespaces)
        deleteAutomanagedNamespaces := some
          (c.namespaceConfig.deleteAutomanagedNamespaces.getD ctx.deleteAutomanagedNamespaces)
        enableExistingNamespaces := some (c.namespaceConfig.enableExistingNamespaces.getD false)
        deleteNamespaceTimeout := some
          (c.namespaceConfig.deleteNamespaceTimeout.getD defaultNamespaceDeletionTimeout) } := by
  rw [finish, setDefaults_namespaceConfig]
  rfl

/-- The overwrite is still in force after the defaults. -/
def Survives (automanagedNamespaces : Int) : Overwrite → Prop
  | .setString .namePrefix v => v ≠ ""
  | .setInt .number v => v ≠ 0 ∧ (v = 1 → automanagedNamespaces ≤ 1)
  | _ => True

theorem default_prefix_iff (random v : String) :
    (if v = "" then "test-" ++ random else v) = v ↔ v ≠ "" := by
  by_cases empty : v = ""
  · subst empty
    simp
  · simp [empty]

theorem inForce_finish_iff (ctx : TestContext) (steps : List Step) {w : Overwrite}
    {c : DecodedConfig} (h : InForce c w) :
    InForce (finish ctx steps c) w ↔ Survives c.automanagedNamespaces w := by
  rcases w with ⟨f, v⟩ | ⟨f, v⟩ | ⟨f, v⟩
  · cases f with
    | name => exact iff_of_true h trivial
    | namePrefix =>
      obtain rfl : c.namespaceConfig.namePrefix = v := h
      rw [InForce, finish_namespaceConfig]
      exact default_prefix_iff ctx.random _
  · cases f with
    | number =>
      obtain rfl : c.namespaceConfig.number = v := h
      rw [InForce, finish_namespaceConfig]
      exact defaultedNumber_eq_self_iff _ _
    | deleteNamespaceTimeout =>
      rw [InForce, finish_namespaceConfig, h]
      exact iff_of_true rfl trivial
    | automanagedNamespaces | interval | simulatedDowntime => exact iff_of_true h trivial
  · cases f with
    | _ =>
      rw [InForce, finish_namespaceConfig, h]
      exact iff_of_true rfl trivial

/-- The number of automanaged namespaces that the overwrites leave. -/
def modifiedAutomanagedNamespaces (ws : List Overwrite) (decoded : DecodedConfig) : Int :=
  match last Overwrite.field (.int .automanagedNamespaces) ws with
  | some (.setInt _ v) => v
  | _ => decoded.automanagedNamespaces

theorem applyAll_automanagedNamespaces (ws : List Overwrite) (c : DecodedConfig) :
    (configWrites.applyAll ws c).automanagedNamespaces = modifiedAutomanagedNamespaces ws c := by
  unfold modifiedAutomanagedNamespaces
  cases hlast : last Overwrite.field (.int .automanagedNamespaces) ws with
  | none =>
    exact configWrites.read_applyAll_unwritten (fun w c => apply_automanagedNamespaces w c)
      hlast c
  | some w =>
    have inForce := (apply_eq_self_iff w _).mp (configWrites.apply_last_applyAll hlast c)
    have hfield := (last_spec hlast).2
    cases w with
    | setInt f v =>
      cases hfield
      exact inForce
    | setString | setBool => cases hfield

/-- The overwrites stay in force throughout the compilation. -/
theorem applyAll_finish_iff (ctx : TestContext) (steps : List Step) (ws : List Overwrite)
    (decoded : DecodedConfig) :
    configWrites.applyAll ws (finish ctx steps (configWrites.applyAll ws decoded)) =
        finish ctx steps (configWrites.applyAll ws decoded) ↔
      ∀ f w, last Overwrite.field f ws = some w →
        Survives (modifiedAutomanagedNamespaces ws decoded) w := by
  rw [configWrites.applyAll_eq_self_iff]
  refine forall_congr' fun f => forall_congr' fun w =>
    forall_congr' fun (hlast : last Overwrite.field f ws = some w) => ?_
  have inForce := (apply_eq_self_iff w _).mp (configWrites.apply_last_applyAll hlast decoded)
  rw [← applyAll_automanagedNamespaces ws decoded, ← inForce_finish_iff ctx steps inForce]
  exact apply_eq_self_iff w _

theorem unskipped_step (s : Step) :
    unskipped skipSteps s = decide (s.name ∉ skipSteps) := rfl

theorem unskipped_some (s : Step) :
    unskipped skipSteps (some s) = decide (s.name ∉ skipSteps) := rfl

/-- Skipping changes nothing after flattening exactly when no step inside a
module has the name of a step to skip. -/
theorem filter_flattened_iff {load : Loader} {skipSteps : List String}
    {top : List (Option Step)} {steps : List Step}
    (h : flattenModuleSteps load depth (top.filter (unskipped skipSteps)) = .ok steps) :
    steps.filter (unskipped skipSteps) = steps ↔
      ∀ m, some m ∈ top → m.isModule = true → m.name ∉ skipSteps →
        ∀ s, Inside load m s → s.name ∉ skipSteps := by
  rw [List.filter_eq_self]
  simp only [unskipped_step, decide_eq_true_eq, mem_flattenModuleSteps h, List.mem_filter,
    unskipped_some]
  constructor
  · intro kept m hm isModule hname s inside
    exact kept s ⟨m, ⟨hm, hname⟩, by rwa [StandsFor, if_pos isModule]⟩
  · rintro kept s ⟨t, ⟨ht, hname⟩, stands⟩
    rw [StandsFor] at stands
    split at stands
    · rename_i isModule
      exact kept t ht isModule hname s stands
    · exact stands ▸ hname

theorem runTest_ok {ws : List Overwrite}
    (hread : readAll ctx.modifierConfig.overwriteTestConfig = .ok ws) (compiled : Config) :
    runTest ctx compiled = .ok (modified ctx.modifierConfig.skipSteps ws compiled) := by
  rw [runTest, changeTest_eq, if_pos (.inr fun _ _ => rfl), hread]
  rfl

/-- Skipping and overwriting touch different parts of a configuration. -/
theorem modified_eq_self_iff (ws : List Overwrite) (c : Config) :
    modified skipSteps ws c = c ↔
      configWrites.applyAll ws c = c ∧ c.steps.filter (unskipped skipSteps) = c.steps := by
  constructor
  · intro h
    have hsteps : c.steps.filter (unskipped skipSteps) = c.steps := by
      have hsame := congrArg ConfigOf.steps h
      rwa [modified_steps] at hsame
    rw [modified, hsteps] at h
    exact ⟨h, hsteps⟩
  · rintro ⟨h, hsteps⟩
    rw [modified, hsteps]
    exact h

/-- The configuration that is executed is the compiled one, and so an accepted
one, if and only if the defaults have not replaced an overwritten number or
name of namespaces and no step inside a module is one to skip. -/
theorem executed_eq_compiled_iff {depth : Nat} {ctx : TestContext} {decoded : DecodedConfig}
    {compiled : Config} (read : ctx.templateToConfig = .ok decoded)
    (returned : compileTestConfig depth ctx = .ok compiled) :
    (∃ executed, runTest ctx compiled = .ok executed ∧ validate ctx.validator executed = [] ∧
        executed = compiled) ↔
      (∀ v, last Overwrite.field (.string .namePrefix)
          (writesOf ctx.modifierConfig.overwriteTestConfig) = some (.setString .namePrefix v) →
        v ≠ "") ∧
      (∀ v, last Overwrite.field (.int .number)
          (writesOf ctx.modifierConfig.overwriteTestConfig) = some (.setInt .number v) →
        v ≠ 0 ∧ (v = 1 → modifiedAutomanagedNamespaces
          (writesOf ctx.modifierConfig.overwriteTestConfig) decoded ≤ 1)) ∧
      (∀ m, some m ∈ decoded.steps → m.isModule = true → m.name ∉ ctx.modifierConfig.skipSteps →
        ∀ s, Inside (loadModule ctx) m s → s.name ∉ ctx.modifierConfig.skipSteps) := by
  obtain ⟨ws, steps, hread, hsteps, rfl, accepted⟩ := compileTestConfig_ok returned read
  obtain rfl := readAll_ok hread
  rw [runTest_ok hread]
  set ws := writesOf ctx.modifierConfig.overwriteTestConfig
  set compiled := finish ctx steps (configWrites.applyAll ws decoded)
  have same : (∃ executed,
        (.ok (modified ctx.modifierConfig.skipSteps ws compiled) : Except Failure Config) =
          .ok executed ∧
        validate ctx.validator executed = [] ∧ executed = compiled) ↔
      modified ctx.modifierConfig.skipSteps ws compiled = compiled := by
    constructor
    · rintro ⟨executed, hok, _, rfl⟩
      exact Except.ok.inj hok
    · intro heq
      exact ⟨compiled, congrArg Except.ok heq, accepted, rfl⟩
  rw [same, modified_eq_self_iff, applyAll_finish_iff]
  have hskip := filter_flattened_iff hsteps
  refine ⟨fun ⟨survive, hfilter⟩ => ⟨?_, ?_, hskip.mp hfilter⟩,
    fun ⟨hname, hnumber, hinside⟩ => ⟨?_, hskip.mpr hinside⟩⟩
  · intro v hlast
    exact survive _ _ hlast
  · intro v hlast
    exact survive _ _ hlast
  · intro f w hlast
    obtain rfl := (last_spec hlast).2
    rcases w with ⟨f, v⟩ | ⟨f, v⟩ | ⟨f, v⟩
    · cases f with
      | name => trivial
      | namePrefix => exact hname v hlast
    · cases f with
      | number => exact hnumber v hlast
      | _ => trivial
    · trivial

/-- One measurement, in a cluster where everything is registered. -/
def sampleConfig (number : Int) (name : String) : Config := { plainConfig with
  namespaceConfig := ⟨number, name, some false, some true, some false, some 0⟩
  steps := [⟨[], [⟨"Timer", "timer", []⟩], ⟨"", none⟩, "Starting timer"⟩] }

/-- The configuration as it is decoded. -/
def decodedConfig (c : Config) : DecodedConfig := c.withSteps (c.steps.map some)

def sampleContext (overwrite : String) : TestContext where
  templateToConfig := .ok (decodedConfig (sampleConfig 0 ""))
  templateMapping := fun _ => none
  templateInto := fun _ _ => .error "no such file"
  deleteStaleNamespaces := false
  deleteAutomanagedNamespaces := true
  modifierConfig := ⟨[overwrite], ["Deleting objects"]⟩
  validator := ⟨"", "", fun _ => false, fun _ => [], fun _ => true, fun _ => true⟩
  random := "x7k2mq"

theorem custom_prefix_executed_as_compiled :
    ∃ executed, runTest (sampleContext "Namespace.Prefix=custom") (sampleConfig 1 "custom") =
        .ok executed ∧
      validate (sampleContext "Namespace.Prefix=custom").validator executed = [] ∧
      executed = sampleConfig 1 "custom" := by
  have hread : readAll ["Namespace.Prefix=custom"] = .ok [.setString .namePrefix "custom"] := by
    decide +kernel
  have compiled : compileTestConfig 1 (sampleContext "Namespace.Prefix=custom") =
      .ok (sampleConfig 1 "custom") := compileTestConfig_of rfl hread (by decide) rfl rfl rfl
  have hws := (readAll_ok hread).symm
  refine (executed_eq_compiled_iff rfl compiled).mpr ⟨?_, ?_, ?_⟩
  · intro v hlast
    cases hlast
    decide
  · intro v hlast
    cases hlast
  · intro m hm isModule
    cases List.mem_singleton.mp hm
    cases isModule

/-- The default replaces the overwritten 0, and the executed configuration has
it back. -/
theorem zero_number_executed_unvalidated :
    compileTestConfig 1 (sampleContext "Namespace.Number=0") =
        .ok (sampleConfig 1 "test-x7k2mq") ∧
      runTest (sampleContext "Namespace.Number=0") (sampleConfig 1 "test-x7k2mq") =
        .ok (sampleConfig 0 "test-x7k2mq") ∧
      validate (sampleContext "Namespace.Number=0").validator (sampleConfig 0 "test-x7k2mq") =
        [invalid "namespace.number" (.int 0) "must be positive"] := by
  have hread : readAll ["Namespace.Number=0"] = .ok [.setInt .number 0] := by decide +kernel
  exact ⟨compileTestConfig_of rfl hread (by decide) rfl rfl rfl,
    (runTest_ok hread _).trans rfl, rfl⟩

end CompiledConfig
