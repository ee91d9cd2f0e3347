import ClusterLoader.TestConfig

/-!
# Executing a test

ExecuteTest starts the chaos monkey, prepares the namespaces, sets up the
dependencies, runs the steps, stops the monkey and writes the summaries. Each
of the first stages can end the test early, and whatever happens the deferred
cleanup runs last. Everything a test asks of the cluster, of the dependencies
and of the file system is a request, so that a run is known by its trace.

A dependency is referred to by its place in the configuration, since two of
them may be alike. The reply to a request for the version of the cluster is
only its error; the request records on behalf of which stage it is made. What
a step does, and logging, is outside this module.
-/

namespace TestExecution

open RequestPrograms RequestPrograms.Prog TestConfig

structure TestError where
  text : String
  critical : Bool
  deriving DecidableEq

/-- A local time. The offset from UTC is in minutes. -/
structure Timestamp where
  year : Nat
  month : Nat
  day : Nat
  hour : Nat
  minute : Nat
  second : Nat
  nanosecond : Nat
  offset : Int
  deriving DecidableEq

structure Summary where
  name : String
  ext : String
  timestamp : Timestamp
  content : String
  deriving DecidableEq

/-- A cleaned path: whether it starts at the root, and its components. -/
structure Path where
  rooted : Bool
  components : List String
  deriving DecidableEq

inductive SetupResult where
  | returned (err : Option String)
  | timedOut

inductive Stage where
  | setup
  | teardown

inductive Request where
  | setAutomanagedNamespacePrefix (namePrefix : String)
  | initFactory (tuningSets : List TuningSetConfig)
  | startNodeKiller (config : NodeFailureConfig) (excludedNodes : List String)
  | listAutomanagedNamespaces
  | deleteNamespaces (namespaces : List String) (timeout : Int)
  | createAutomanagedNamespaces (number : Int) (allowExisting deleteAutomanaged : Bool)
  | createDependency (method : String)
  | serverVersion (stage : Stage)
  | setup (i : Nat) (dep : Dependency)
  | setupWithTimeout (i : Nat) (dep : Dependency)
  | executeStep (step : Step)
  | closeStopCh
  | waitChaosMonkey
  | getSummaries
  | writeFile (path : Path) (content : String)
  | dispose
  | deleteAutomanagedNamespaces (timeout : Int)
  | teardown (i : Nat) (dep : Dependency)

abbrev Reply : Request → Type
  | .setAutomanagedNamespacePrefix _ => Unit
  | .initFactory _ => Unit
  | .startNodeKiller _ _ => Option String
  | .listAutomanagedNamespaces => Except String (List String × List String)
  | .deleteNamespaces _ _ => List String
  | .createAutomanagedNamespaces _ _ _ => Option String
  | .createDependency _ => Option String
  | .serverVersion _ => Option String
  | .setup _ _ => Option String
  | .setupWithTimeout _ _ => SetupResult
  | .executeStep _ => List TestError
  | .closeStopCh => Unit
  | .waitChaosMonkey => Unit
  | .getSummaries => List Summary
  | .writeFile _ _ => Option String
  | .dispose => Unit
  | .deleteAutomanagedNamespaces _ => List String
  | .teardown _ _ => Option String

abbrev Program (A : Type) := Prog Request Reply A

abbrev setAutomanagedNamespacePrefix (namePrefix : String) : Program Unit :=
  request (Request.setAutomanagedNamespacePrefix namePrefix)

abbrev initFactory (tuningSets : List TuningSetConfig) : Program Unit :=
  request (Request.initFactory tuningSets)

abbrev startNodeKiller (config : NodeFailureConfig) (excludedNodes : List String) :
    Program (Option String) :=
  request (Request.startNodeKiller config excludedNodes)

abbrev listAutomanagedNamespaces : Program (Except String (List String × List String)) :=
  request Request.listAutomanagedNamespaces

abbrev deleteNamespaces (namespaces : List String) (timeout : Int) : Program (List String) :=
  request (Request.deleteNamespaces namespaces timeout)

abbrev createAutomanagedNamespaces (number : Int) (allowExisting deleteAutomanaged : Bool) :
    Program (Option String) :=
  request (Request.createAutomanagedNamespaces number allowExisting deleteAutomanaged)

abbrev createDependency (method : String) : Program (Option String) :=
  request (Request.createDependency method)

abbrev serverVersion (stage : Stage) : Program (Option String) :=
  request (Request.serverVersion stage)

abbrev setup (i : Nat) (dep : Dependency) : Program (Option String) := request (Request.setup i dep)

abbrev setupWithTimeout (i : Nat) (dep : Dependency) : Program SetupResult :=
  request (Request.setupWithTimeout i dep)

abbrev executeStep (step : Step) : Program (List TestError) := request (Request.executeStep step)

abbrev closeStopCh : Program Unit := request Request.closeStopCh

abbrev waitChaosMonkey : Program Unit := request Request.waitChaosMonkey

abbrev getSummaries : Program (List Summary) := request Request.getSummaries

abbrev writeFile (path : Path) (content : String) : Program (Option String) :=
  request (Request.writeFile path content)

abbrev dispose : Program Unit := request Request.dispose

abbrev deleteAutomanagedNamespaces (timeout : Int) : Program (List String) :=
  request (Request.deleteAutomanagedNamespaces timeout)

abbrev teardown (i : Nat) (dep : Dependency) : Program (Option String) :=
  request (Request.teardown i dep)

/-- What a test reads of its context besides the configuration. Go's text of a
duration is `durationText`. -/
structure ExecutorContext where
  reportDir : String
  testIdentifier : String
  durationText : Int → String

def plainError (text : String) : TestError := ⟨text, false⟩

def pad2 (n : Nat) : String := if n < 10 then "0" ++ toString n else toString n

def pad4 (n : Nat) : String :=
  if n < 1000 then "0" ++ (if n < 100 then "0" ++ pad2 n else toString n) else toString n

section Paths

/-- The effect of one component on a cleaned path. -/
def Path.push (p : Path) (component : String) : Path :=
  if component = "" ∨ component = "." then p
  else if component = ".." then
    match p.components.getLast? with
    | none => if p.rooted then p else { p with components := [".."] }
    | some last =>
      if last = ".." then { p with components := p.components ++ [".."] }
      else { p with components := p.components.dropLast }
  else { p with components := p.components ++ [component] }

def splitSlash (s : String) : List String := (s.toList.splitOn '/').map String.ofList

def cleanPath (dir : String) : Path :=
  (splitSlash dir).foldl Path.push ⟨dir.toList.head? = some '/', []⟩

/-- path.Join of two parts, the first of which is not empty. -/
def joinPath (dir file : String) : Path := (splitSlash file).foldl Path.push (cleanPath dir)

def Path.text (p : Path) : String :=
  if p.components = [] ∧ ¬ p.rooted then "."
  else (if p.rooted then "/" else "") ++ String.intercalate "/" p.components

end Paths

def Timestamp.zone (t : Timestamp) : String :=
  if t.offset = 0 then "Z"
  else (if t.offset < 0 then "-" else "+") ++ pad2 (t.offset.natAbs / 60) ++ ":" ++
    pad2 (t.offset.natAbs % 60)

def Timestamp.rfc3339 (t : Timestamp) : String :=
  pad4 t.year ++ "-" ++ pad2 t.month ++ "-" ++ pad2 t.day ++ "T" ++ pad2 t.hour ++ ":" ++
    pad2 t.minute ++ ":" ++ pad2 t.second ++ t.zone

section Chaos

/-- Init of the chaos monkey: whether it has been started. -/
def initChaosMonkey (config : ChaosMonkeyConfig) : Program (Except String Bool) := do
  match config.nodeFailure with
  | none => return .ok false
  | some nodeFailure =>
    match ← startNodeKiller nodeFailure (config.excludedNodes.getD []) with
    | some e => return .error e
    | none => return .ok true

end Chaos

section Namespaces

def deleteStaleNamespaces (ns : NamespaceConfig) (stale : List String) : Program Unit := do
  if stale ≠ [] ∧ ns.deleteStaleNamespaces = some true then
    -- errors of the deletion are logged only
    let _ ← deleteNamespaces stale (ns.deleteNamespaceTimeout.getD 0)
    return ()
  else return ()

/-- The error, if the namespaces could not be prepared. -/
def prepareTestNamespaces (ns : NamespaceConfig) : Program (Option String) := do
  match ← listAutomanagedNamespaces with
  | .error e => return some ("automanaged namespaces listing failed: " ++ e)
  | .ok (current, stale) =>
    if current ≠ [] ∧ ns.enableExistingNamespaces = some false then
      return some "pre-existing automanaged namespaces found"
    else
      deleteStaleNamespaces ns stale
      match ← createAutomanagedNamespaces ns.number (ns.enableExistingNamespaces = some true)
          (ns.deleteAutomanagedNamespaces = some true) with
      | some e => return some ("automanaged namespaces creation failed: " ++ e)
      | none => return none

end Namespaces

section Dependencies

/-- The methods an instance exists for, and the dependencies that have been
set up, in the order of their setup. -/
structure DependencyManager where
  dependencies : List String
  setupDependencies : List (Nat × Dependency)

def getDependencyInstance (dm : DependencyManager) (method : String) :
    Program (Option String × DependencyManager) := do
  if method ∈ dm.dependencies then return (none, dm)
  else
    match ← createDependency method with
    | some e => return (some e, dm)
    | none => return (none, { dm with dependencies := method :: dm.dependencies })

/-- Setup runs in a goroutine of its own if the dependency has a timeout. -/
def runSetup (i : Nat) (dep : Dependency) : Program SetupResult := do
  if dep.timeout > 0 then setupWithTimeout i dep
  else
    let err ← setup i dep
    return .returned err

/-- What becomes of the manager once Setup has returned or timed out. -/
def afterSetup (ctx : ExecutorContext) (i : Nat) (dep : Dependency) (dm : DependencyManager) :
    SetupResult → Option String × DependencyManager
  | .returned (some e) => (some ("dependency " ++ dep.name ++ " setup failed: " ++ e), dm)
  | .timedOut => (some ("dependency " ++ dep.name ++ " setup timed out after " ++
      ctx.durationText dep.timeout), dm)
  | .returned none =>
    (none, { dm with setupDependencies := dm.setupDependencies ++ [(i, dep)] })

def setupSingleDependency (ctx : ExecutorContext) (i : Nat) (dep : Dependency)
    (dm : DependencyManager) : Program (Option String × DependencyManager) := do
  let (err, dm) ← getDependencyInstance dm dep.method
  match err with
  | some e => return (some e, dm)
  | none =>
    match ← serverVersion .setup with
    | some e => return (some ("failed to get cluster version: " ++ e), dm)
    | none =>
      let result ← runSetup i dep
      return afterSetup ctx i dep dm result

/-- An error does not keep the dependencies after it from being set up. -/
def setupDependencies (ctx : ExecutorContext) :
    Nat → List Dependency → DependencyManager → Program (List String × DependencyManager)
  | _, [], dm => return ([], dm)
  | i, dep :: rest, dm => do
    let (err, dm) ← setupSingleDependency ctx i dep dm
    let (errs, dm) ← setupDependencies ctx (i + 1) rest dm
    return (err.toList ++ errs, dm)

def teardownDependencyInstance (i : Nat) (dep : Dependency) : Program (Option String) := do
  match ← serverVersion .teardown with
  | some e => return some ("failed to get cluster version during teardown: " ++ e)
  | none =>
    match ← teardown i dep with
    | some e => return some ("dependency " ++ dep.name ++ " teardown failed: " ++ e)
    | none => return none

/-- The loop of the teardown; the list is already reversed. -/
def teardownAll : List (Nat × Dependency) → Program (List String)
  | [] => return []
  | (i, dep) :: rest => do
    let err ← teardownDependencyInstance i dep
    let errs ← teardownAll rest
    return err.toList ++ errs

def teardownDependencies (dm : DependencyManager) : Program (List String) :=
  teardownAll dm.setupDependencies.reverse

end Dependencies

section Steps

def stepName (i : Nat) (name : String) : String :=
  "[step: " ++ pad2 (i + 1) ++ "] " ++
    (if name = "" then "[autogenerated, please name your step in the test config]" else name)

def isErrsCritical (errs : List TestError) : Bool := errs.any TestError.critical

/-- The steps from the one with index `i` on; a critical error ends the loop. -/
def executeTestSteps : Nat → List Step → Program (List TestError)
  | _, [] => return []
  | i, step :: rest => do
    let errs ← executeStep { step with name := stepName i step.name }
    if isErrsCritical errs then return errs
    else
      let others ← executeTestSteps (i + 1) rest
      return errs ++ others

end Steps

section Summaries

def testDistinctor (ctx : ExecutorContext) : String :=
  if ctx.testIdentifier ≠ "" then "_" ++ ctx.testIdentifier else ""

def summaryFile (ctx : ExecutorContext) (confName : String) (summary : Summary) : String :=
  summary.name ++ "_" ++ (confName ++ testDistinctor ctx) ++ "_" ++
    summary.timestamp.rfc3339 ++ "." ++ summary.ext

def summaryPath (ctx : ExecutorContext) (confName : String) (summary : Summary) : Path :=
  joinPath ctx.reportDir (summaryFile ctx confName summary)

/-- Without a report directory summaries are logged only. -/
def writeSummaries (ctx : ExecutorContext) (confName : String) :
    List Summary → Program (List TestError)
  | [] => return []
  | summary :: rest => do
    if ctx.reportDir = "" then writeSummaries ctx confName rest
    else
      let path := summaryPath ctx confName summary
      match ← writeFile path summary.content with
      | some e =>
        let errs ← writeSummaries ctx confName rest
        return plainError ("writing to file " ++ path.text ++ " error: " ++ e) :: errs
      | none => writeSummaries ctx confName rest

end Summaries

/-- Dependencies are not torn down when the namespaces could not be deleted. -/
def cleanupTestResourcesAndDependencies (ns : NamespaceConfig) (dm : DependencyManager) :
    Program Unit := do
  dispose
  if ns.deleteAutomanagedNamespaces = some true then
    match ← deleteAutomanagedNamespaces (ns.deleteNamespaceTimeout.getD 0) with
    | _ :: _ => return ()
    | [] =>
      let _ ← teardownDependencies dm
      return ()
  else
    let _ ← teardownDependencies dm
    return ()

/-- There is no wait group without a node failure configuration. -/
def waitIfStarted (monkey : Bool) : Program Unit :=
  if monkey then waitChaosMonkey else pure ()

/-- From the steps to the return, once the dependencies are set up. -/
def runSteps (ctx : ExecutorContext) (conf : Config) (monkey : Bool) :
    Program (List TestError) := do
  let errs ← executeTestSteps 0 conf.steps
  closeStopCh
  waitIfStarted monkey
  let summaries ← getSummaries
  let writeErrs ← writeSummaries ctx conf.name summaries
  return errs ++ writeErrs

def noDependencies : DependencyManager := ⟨[], []⟩

/-- What happens before the deferred cleanup. The monkey is not stopped when
the namespaces could not be prepared. -/
def runTestBody (ctx : ExecutorContext) (conf : Config) :
    Program (List TestError × DependencyManager) := do
  initFactory conf.tuningSets
  match ← initChaosMonkey conf.chaosMonkey with
  | .error e =>
    closeStopCh
    return ([plainError ("error while creating chaos monkey: " ++ e)], noDependencies)
  | .ok monkey =>
    match ← prepareTestNamespaces conf.namespaceConfig with
    | some e =>
      return ([plainError ("error while preparing test namespaces: " ++ e)], noDependencies)
    | none =>
      let (setupErrs, dm) ← setupDependencies ctx 0 conf.dependencies noDependencies
      match setupErrs with
      | _ :: _ =>
        closeStopCh
        return (setupErrs.map plainError, dm)
      | [] =>
        let errs ← runSteps ctx conf monkey
        return (errs, dm)

def executeTest (ctx : ExecutorContext) (conf : Config) : Program (List TestError) := do
  setAutomanagedNamespacePrefix conf.namespaceConfig.namePrefix
  let (errs, dm) ← runTestBody ctx conf
  cleanupTestResourcesAndDependencies conf.namespaceConfig dm
  return errs

/-- An outside where every call succeeds, except perhaps Setup. -/
def succeeds (result : SetupResult) (summaries : List Summary) : Handler Request Reply Unit
  | .setAutomanagedNamespacePrefix _, w => ((), w)
  | .initFactory _, w => ((), w)
  | .startNodeKiller _ _, w => (none, w)
  | .listAutomanagedNamespaces, w => (.ok ([], []), w)
  | .deleteNamespaces _ _, w => ([], w)
  | .createAutomanagedNamespaces _ _ _, w => (none, w)
  | .createDependency _, w => (none, w)
  | .serverVersion _, w => (none, w)
  | .setup _ _, w => (none, w)
  | .setupWithTimeout _ _, w => (result, w)
  | .executeStep _, w => ([], w)
  | .closeStopCh, w => ((), w)
  | .waitChaosMonkey, w => ((), w)
  | .getSummaries, w => (summaries, w)
  | .writeFile _ _, w => (none, w)
  | .dispose, w => ((), w)
  | .deleteAutomanagedNamespaces _, w => ([], w)
  | .teardown _ _, w => (none, w)

section Runs
variable (ctx : ExecutorContext) (conf : Config)

/-- The ways through a test before its cleanup, by where they leave it. -/
inductive BodyRun : List (Event Reply) → List TestError × DependencyManager → Prop where
  | monkeyRefused {t₁ : List (Event Reply)} {e : String}
      (init : Exec (initChaosMonkey conf.chaosMonkey) t₁ (.error e)) :
      BodyRun (⟨.initFactory conf.tuningSets, ()⟩ :: (t₁ ++ [⟨.closeStopCh, ()⟩]))
        ([plainError ("error while creating chaos monkey: " ++ e)], noDependencies)
  | namespacesRefused {t₁ t₂ : List (Event Reply)} {monkey : Bool} {e : String}
      (init : Exec (initChaosMonkey conf.chaosMonkey) t₁ (.ok monkey))
      (prepare : Exec (prepareTestNamespaces conf.namespaceConfig) t₂ (some e)) :
      BodyRun (⟨.initFactory conf.tuningSets, ()⟩ :: (t₁ ++ t₂))
        ([plainError ("error while preparing test namespaces: " ++ e)], noDependencies)
  | setupFailed {t₁ t₂ t₃ : List (Event Reply)} {monkey : Bool} {e : String} {es : List String}
      {dm : DependencyManager}
      (init : Exec (initChaosMonkey conf.chaosMonkey) t₁ (.ok monkey))
      (prepare : Exec (prepareTestNamespaces conf.namespaceConfig) t₂ none)
      (setup : Exec (setupDependencies ctx 0 conf.dependencies noDependencies) t₃ (e :: es, dm)) :
      BodyRun (⟨.initFactory conf.tuningSets, ()⟩ :: (t₁ ++ (t₂ ++ (t₃ ++ [⟨.closeStopCh, ()⟩]))))
        ((e :: es).map plainError, dm)
  | completed {t₁ t₂ t₃ t₄ : List (Event Reply)} {monkey : Bool} {dm : DependencyManager}
      {errs : List TestError}
      (init : Exec (initChaosMonkey conf.chaosMonkey) t₁ (.ok monkey))
      (prepare : Exec (prepareTestNamespaces conf.namespaceConfig) t₂ none)
      (setup : Exec (setupDependencies ctx 0 conf.dependencies noDependencies) t₃ ([], dm))
      (steps : Exec (runSteps ctx conf monkey) t₄ errs) :
      BodyRun (⟨.initFactory conf.tuningSets, ()⟩ :: (t₁ ++ (t₂ ++ (t₃ ++ t₄)))) (errs, dm)

theorem runTestBody_run : (runTestBody ctx conf).Ensures (BodyRun ctx conf) := by
  intro t r he
  obtain ⟨_, u₁, rfl, he₁⟩ := exec_request_bind he
  obtain ⟨t₁, started, u₂, rfl, init, he₂⟩ := exec_bind he₁
  cases started with
  | error e =>
    obtain ⟨_, u₃, rfl, he₃⟩ := exec_request_bind he₂
    obtain ⟨rfl, rfl⟩ := exec_done he₃
    exact .monkeyRefused init
  | ok monkey =>
    obtain ⟨t₂, prepared, u₃, rfl, prepare, he₃⟩ := exec_bind he₂
    cases prepared with
    | some e =>
      obtain ⟨rfl, rfl⟩ := exec_done he₃
      rw [List.append_nil]
      exact .namespacesRefused init prepare
    | none =>
      obtain ⟨t₃, ⟨setupErrs, dm⟩, u₄, rfl, setup, he₄⟩ := exec_bind he₃
      cases setupErrs with
      | cons e es =>
        obtain ⟨_, u₅, rfl, he₅⟩ := exec_request_bind he₄
        obtain ⟨rfl, rfl⟩ := exec_done he₅
        exact .setupFailed init prepare setup
      | nil =>
        obtain ⟨t₄, errs, u₅, rfl, steps, he₅⟩ := exec_bind he₄
        obtain ⟨rfl, rfl⟩ := exec_done he₅
        rw [List.append_nil]
        exact .completed init prepare setup steps

/-- A run of a test is a run of its body followed by the cleanup. -/
theorem executeTest_run : (executeTest ctx conf).Ensures fun t errs => ∃ t₁ t₂ dm,
    t = ⟨.setAutomanagedNamespacePrefix conf.namespaceConfig.namePrefix, ()⟩ :: (t₁ ++ t₂) ∧
      BodyRun ctx conf t₁ (errs, dm) ∧
      Exec (cleanupTestResourcesAndDependencies conf.namespaceConfig dm) t₂ () := by
  intro t errs he
  obtain ⟨_, u₁, rfl, he₁⟩ := exec_request_bind he
  obtain ⟨t₁, ⟨errs', dm⟩, u₂, rfl, body, he₂⟩ := exec_bind he₁
  obtain ⟨t₂, _, u₃, rfl, cleanup, he₃⟩ := exec_bind he₂
  obtain ⟨rfl, rfl⟩ := exec_done he₃
  refine ⟨t₁, t₂, dm, by rw [List.append_nil], ?_, cleanup⟩
  exact runTestBody_run ctx conf _ _ body

end Runs

section Uses
variable {ok : (q : Request) → Reply q → Prop} {allowed : Request → Prop}

theorem uses_initChaosMonkey {config : ChaosMonkeyConfig}
    (h : ∀ nodeFailure excluded, allowed (.startNodeKiller nodeFailure excluded)) :
    (initChaosMonkey config).Uses ok allowed := by
  rw [initChaosMonkey]
  cases config.nodeFailure with
  | none => trivial
  | some nodeFailure =>
    refine ⟨h _ _, fun r _ => ?_⟩
    cases r <;> trivial

theorem uses_prepareTestNamespaces {ns : NamespaceConfig}
    (hlist : allowed .listAutomanagedNamespaces)
    (hdelete : ∀ namespaces timeout, allowed (.deleteNamespaces namespaces timeout))
    (hcreate : ∀ number existing deletes,
      allowed (.createAutomanagedNamespaces number existing deletes)) :
    (prepareTestNamespaces ns).Uses ok allowed := by
  refine uses_request_bind hlist fun r _ => ?_
  rcases r with e | ⟨current, stale⟩
  · trivial
  · dsimp only
    split
    · trivial
    · refine uses_bind ?_ fun _ => uses_request_bind (hcreate _ _ _) fun r _ => ?_
      · rw [deleteStaleNamespaces]
        split
        · exact ⟨hdelete _ _, fun _ _ => trivial⟩
        · trivial
      · cases r <;> trivial

theorem uses_executeTestSteps (h : ∀ step, allowed (.executeStep step)) (i : Nat)
    (steps : List Step) : (executeTestSteps i steps).Uses ok allowed := by
  induction steps generalizing i with
  | nil => trivial
  | cons step rest ih =>
    refine uses_request_bind (h _) fun errs _ => ?_
    split
    · trivial
    · exact uses_bind (ih (i + 1)) fun _ => trivial

variable {ctx : ExecutorContext}

theorem uses_writeSummaries {confName : String}
    (h : ∀ path content, allowed (.writeFile path content)) (summaries : List Summary) :
    (writeSummaries ctx confName summaries).Uses ok allowed := by
  induction summaries with
  | nil => trivial
  | cons summary rest ih =>
    rw [writeSummaries]
    split
    · exact ih
    · refine uses_request_bind (h _ _) fun r _ => ?_
      cases r with
      | some e => exact uses_bind ih fun _ => trivial
      | none => exact ih

theorem uses_runSteps {conf : Config} {monkey : Bool} (hstep : ∀ step, allowed (.executeStep step))
    (hclose : allowed .closeStopCh) (hwait : monkey = true → allowed .waitChaosMonkey)
    (hsummaries : allowed .getSummaries)
    (hwrite : ∀ path content, allowed (.writeFile path content)) :
    (runSteps ctx conf monkey).Uses ok allowed := by
  refine uses_bind (uses_executeTestSteps hstep 0 _) fun _ => ?_
  refine uses_request_bind hclose fun _ _ => uses_bind ?_ fun _ => ?_
  · cases monkey with
    | true => exact ⟨hwait rfl, fun _ _ => trivial⟩
    | false => trivial
  · refine uses_request_bind hsummaries fun summaries _ => ?_
    exact uses_bind (uses_writeSummaries hwrite _) fun _ => trivial

theorem uses_setupDependencies (hcreate : ∀ method, allowed (.createDependency method))
    (hversion : allowed (.serverVersion .setup)) (hsetup : ∀ i dep, allowed (.setup i dep))
    (htimeout : ∀ i dep, allowed (.setupWithTimeout i dep)) (i : Nat) (deps : List Dependency)
    (dm : DependencyManager) : (setupDependencies ctx i deps dm).Uses ok allowed := by
  induction deps generalizing i dm with
  | nil => trivial
  | cons dep rest ih =>
    refine uses_bind ?_ fun r => uses_bind (ih (i + 1) r.2) fun _ => trivial
    refine uses_bind ?_ fun r => ?_
    · rw [getDependencyInstance]
      split
      · trivial
      · refine uses_request_bind (hcreate _) fun r _ => ?_
        cases r <;> trivial
    · obtain ⟨err, dm'⟩ := r
      cases err with
      | some e => trivial
      | none =>
        refine uses_request_bind hversion fun version _ => ?_
        cases version with
        | some e => trivial
        | none =>
          refine uses_bind ?_ fun _ => trivial
          rw [runSetup]
          split
          · exact ⟨htimeout i dep, fun _ _ => trivial⟩
          · exact ⟨hsetup i dep, fun _ _ => trivial⟩

theorem uses_teardownAll (hversion : allowed (.serverVersion .teardown))
    (hteardown : ∀ i dep, allowed (.teardown i dep)) (recorded : List (Nat × Dependency)) :
    (teardownAll recorded).Uses ok allowed := by
  induction recorded with
  | nil => trivial
  | cons entry rest ih =>
    refine uses_bind ?_ fun _ => uses_bind ih fun _ => trivial
    refine uses_request_bind hversion fun version _ => ?_
    cases version with
    | some e => trivial
    | none =>
      refine uses_request_bind (hteardown _ _) fun r _ => ?_
      cases r <;> trivial

theorem uses_cleanup (hdispose : allowed .dispose)
    (hdelete : ∀ timeout, allowed (.deleteAutomanagedNamespaces timeout))
    (hversion : allowed (.serverVersion .teardown))
    (hteardown : ∀ i dep, allowed (.teardown i dep)) (ns : NamespaceConfig)
    (dm : DependencyManager) :
    (cleanupTestResourcesAndDependencies ns dm).Uses ok allowed := by
  have torn : (teardownDependencies dm >>= fun _ => pure ()).Uses ok allowed :=
    uses_bind (uses_teardownAll hversion hteardown _) fun _ => trivial
  refine uses_request_bind hdispose fun _ _ => ?_
  split
  · refine uses_request_bind (hdelete _) fun errs _ => ?_
    cases errs with
    | cons e es => trivial
    | nil => exact torn
  · exact torn

end Uses

end TestExecution
