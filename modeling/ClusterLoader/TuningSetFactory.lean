import ClusterLoader.ConfigValidation
import ClusterLoader.PhaseExecution

/-!
# The tuning set factory and validated phases

A phase names a tuning set; the factory finds the declaration of that name and
makes a tuning set from its load. The validator has seen both the phases and
the declarations. The main theorem says which accepted phases do obtain a
tuning set when they are executed.

How a load spaces the actions of a phase is not modelled here: `schedule` is
arbitrary. The text of a declaration without a load is left to `render`.
-/

namespace TuningSetFactory

open PhaseRequests PhaseExecution TestConfig ConfigValidation

/-- What the factory makes a tuning set from. A global load is shared by all
phases that name it. -/
inductive Load where
  | qps (params : QPSLoad)
  | randomized (params : RandomizedLoad)
  | stepped (params : SteppedLoad)
  | timeLimited (params : TimeLimitedLoad)
  | randomizedTimeLimited (params : RandomizedTimeLimitedLoad)
  | parallelismLimited (params : ParallelismLimitedLoad)
  | globalQPS (limiter : GlobalQPSLoad)
  | poisson (params : PoissonLoad)

inductive FactoryError where
  | notFound (name : String)
  | incorrect (tuningSet : TuningSetConfig)

def FactoryError.text (render : TuningSetConfig → String) : FactoryError → String
  | .notFound name => "tuningset " ++ name ++ " not found"
  | .incorrect tuningSet => "incorrect tuning set: " ++ render tuningSet

/-- The declared tuning sets, and the limiters made so far. -/
structure Factory where
  tuningSetMap : String → Option TuningSetConfig
  existing : String → Option GlobalQPSLoad

namespace Factory

/-- Of two declarations with one name the later stays. -/
def declare (tuningSetMap : String → Option TuningSetConfig) (ts : TuningSetConfig) :
    String → Option TuningSetConfig :=
  fun name => if name = ts.name then some ts else tuningSetMap name

def init (f : Factory) (tuningSets : List TuningSetConfig) : Factory :=
  { f with tuningSetMap := tuningSets.foldl declare fun _ => none }

def getOrCreate (f : Factory) (name : String) (params : GlobalQPSLoad) :
    GlobalQPSLoad × Factory :=
  match f.existing name with
  | some limiter => (limiter, f)
  | none =>
    (params, { f with existing := fun n => if n = name then some params else f.existing n })

def createTuningSet (f : Factory) (name : String) : Except FactoryError Load × Factory :=
  match f.tuningSetMap name with
  | none => (.error (.notFound name), f)
  | some ts =>
    match ts.qpsLoad, ts.randomizedLoad, ts.steppedLoad, ts.timeLimitedLoad,
      ts.randomizedTimeLimitedLoad, ts.parallelismLimitedLoad, ts.globalQPSLoad,
      ts.poissonLoad with
    | some params, _, _, _, _, _, _, _ => (.ok (.qps params), f)
    | _, some params, _, _, _, _, _, _ => (.ok (.randomized params), f)
    | _, _, some params, _, _, _, _, _ => (.ok (.stepped params), f)
    | _, _, _, some params, _, _, _, _ => (.ok (.timeLimited params), f)
    | _, _, _, _, some params, _, _, _ => (.ok (.randomizedTimeLimited params), f)
    | _, _, _, _, _, some params, _, _ => (.ok (.parallelismLimited params), f)
    | _, _, _, _, _, _, some params, _ =>
      let (limiter, f) := f.getOrCreate name params
      (.ok (.globalQPS limiter), f)
    | _, _, _, _, _, _, _, some params => (.ok (.poisson params), f)
    | none, none, none, none, none, none, none, none => (.error (.incorrect ts), f)

end Factory

/-- The context of a test whose factory is `f`. -/
def context (mapping : Mapping) (namePrefix : String) (f : Factory)
    (render : TuningSetConfig → String) (schedule : Load → TuningSet) : Context where
  templateMapping := mapping
  automanagedNamespacePrefix := namePrefix
  createTuningSet := fun name => ((f.createTuningSet name).1.mapError (·.text render)).map schedule

/-- The phase gets past the creation of its tuning set. -/
def ObtainsTuningSet (ctx : Context) (phase : Phase) : Prop :=
  ∃ nsList tuningSet, ctx.createTuningSet phase.tuningSet = .ok tuningSet ∧
    executePhase ctx phase = some (executeNamespaces ctx phase tuningSet nsList [])

theorem obtainsTuningSet_iff (ctx : Context) (phase : Phase) :
    ObtainsTuningSet ctx phase ↔
      (∃ tuningSet, ctx.createTuningSet phase.tuningSet = .ok tuningSet) ∧
      ∃ nsList, namespacesOf ctx phase = some nsList := by
  constructor
  · rintro ⟨_, tuningSet, created, executed⟩
    obtain ⟨nsList, namespaces, -⟩ := Option.map_eq_some_iff.mp executed
    exact ⟨⟨tuningSet, created⟩, nsList, namespaces⟩
  · rintro ⟨⟨tuningSet, created⟩, nsList, namespaces⟩
    refine ⟨nsList, tuningSet, created, ?_⟩
    rw [executePhase, namespaces, created]
    rfl

theorem context_createTuningSet_ok_iff (mapping : Mapping) (namePrefix : String) (f : Factory)
    (render : TuningSetConfig → String) (schedule : Load → TuningSet) (name : String) :
    (∃ tuningSet, (context mapping namePrefix f render schedule).createTuningSet name =
        .ok tuningSet) ↔ ∃ load, (f.createTuningSet name).1 = .ok load := by
  unfold context
  dsimp only
  cases (f.createTuningSet name).1 with
  | error e => exact iff_of_false (fun ⟨_, h⟩ => nomatch h) (fun ⟨_, h⟩ => nomatch h)
  | ok load => exact iff_of_true ⟨schedule load, rfl⟩ ⟨load, rfl⟩

section Lookup

theorem init_tuningSetMap (f : Factory) (tuningSets : List TuningSetConfig) (name : String) :
    (∀ ts ∈ tuningSets, ts.name ≠ name) ∧ (f.init tuningSets).tuningSetMap name = none ∨
    ∃ ts ∈ tuningSets, ts.name = name ∧ (f.init tuningSets).tuningSetMap name = some ts := by
  induction tuningSets using List.reverseRecOn with
  | nil => exact .inl ⟨fun ts hts => absurd hts List.not_mem_nil, rfl⟩
  | append_singleton tuningSets last ih =>
    have hstep : (f.init (tuningSets ++ [last])).tuningSetMap name =
        Factory.declare (f.init tuningSets).tuningSetMap last name := by
      simp only [Factory.init, List.foldl_append, List.foldl_cons, List.foldl_nil]
    rw [hstep, Factory.declare]
    by_cases hname : name = last.name
    · exact .inr ⟨last, by simp, hname.symm, if_pos hname⟩
    · rw [if_neg hname]
      rcases ih with ⟨hnone, hmap⟩ | ⟨ts, hts, htsname, hmap⟩
      · refine .inl ⟨fun ts hts => ?_, hmap⟩
        rcases List.mem_append.mp hts with hts | hts
        · exact hnone ts hts
        · rw [List.mem_singleton.mp hts]
          exact Ne.symm hname
      · exact .inr ⟨ts, List.mem_append_left _ hts, htsname, hmap⟩

def NoLoad (ts : TuningSetConfig) : Prop :=
  ts.qpsLoad = none ∧ ts.randomizedLoad = none ∧ ts.steppedLoad = none ∧
    ts.timeLimitedLoad = none ∧ ts.randomizedTimeLimitedLoad = none ∧
    ts.parallelismLimitedLoad = none ∧ ts.globalQPSLoad = none ∧ ts.poissonLoad = none

/-- A declaration that passes the validator has a load. -/
theorem accepted_has_load {ts : TuningSetConfig} {path : String}
    (h : validateTuningSet ts path = []) : ¬ NoLoad ts := by
  rintro ⟨h1, h2, h3, h4, h5, h6, h7, h8⟩
  simp only [validateTuningSet, List.append_eq_nil_iff, check_eq_nil, loadChecks, h1, h2, h3, h4,
    h5, h6, h7, h8, validateLoad] at h
  exact absurd h.2 (by decide)

/-- Creation fails only for a name without a declaration or a declaration
without a load. -/
theorem createTuningSet_ok {f : Factory} {name : String} {ts : TuningSetConfig}
    (found : f.tuningSetMap name = some ts) (hasLoad : ¬ NoLoad ts) :
    ∃ load, (f.createTuningSet name).1 = .ok load := by
  rw [Factory.createTuningSet, found]
  dsimp only
  split
  case h_9 h1 h2 h3 h4 h5 h6 h7 h8 =>
    exact absurd ⟨h1, h2, h3, h4, h5, h6, h7, h8⟩ hasLoad
  all_goals exact ⟨_, rfl⟩

end Lookup

section Accepted
variable {v : ConfigValidator} {c : Config} (accepted : validate v c = []) (f : Factory)
include accepted

/-- In an accepted configuration the factory knows exactly the declared names. -/
theorem createTuningSet_ok_iff (name : String) :
    (∃ load, ((f.init c.tuningSets).createTuningSet name).1 = .ok load) ↔
      ∃ ts ∈ c.tuningSets, ts.name = name := by
  rcases init_tuningSetMap f c.tuningSets name with ⟨hnone, hmap⟩ | ⟨ts, hts, hname, hmap⟩
  · refine iff_of_false ?_ ?_
    · rintro ⟨load, hload⟩
      rw [Factory.createTuningSet, hmap] at hload
      cases hload
    · rintro ⟨ts, hts, hname⟩
      exact hnone ts hts hname
  · obtain ⟨path, hvalid⟩ := tuningSet_accepted accepted hts
    exact iff_of_true (createTuningSet_ok hmap (accepted_has_load hvalid)) ⟨ts, hts, hname⟩

variable {s : Step} (hs : s ∈ c.steps) {p : PhaseConfig} (hp : p ∈ s.phases)
include hs hp

/-- The name of an accepted phase is declared unless it is empty. -/
theorem tuningSet_declared_iff :
    (∃ ts ∈ c.tuningSets, ts.name = p.tuningSet) ↔
      (p.tuningSet = "" → ∃ ts ∈ c.tuningSets, ts.name = "") := by
  constructor
  · intro declared unnamed
    rwa [unnamed] at declared
  · intro h
    by_cases unnamed : p.tuningSet = ""
    · rw [unnamed]
      exact h unnamed
    · exact phase_tuningSet_declared accepted hs hp unnamed

/-- The list of namespaces of an accepted phase is built unless its range ends
at the largest `int32`. -/
theorem namespacesOf_isSome_iff (ctx : Context) :
    (∃ nsList, namespacesOf ctx p.toPhase = some nsList) ↔
      ∀ range, p.namespaceRange = some range → range.max ≠ maxInt32 := by
  obtain ⟨path, hphase⟩ := phase_accepted accepted hs hp
  simp only [validatePhase, List.append_eq_nil_iff] at hphase
  obtain ⟨⟨⟨honly, hrange⟩, -⟩, -⟩ := hphase
  unfold namespacesOf PhaseConfig.toPhase
  cases hlist : p.namespaceList with
  | some nsList =>
    rw [hlist] at honly
    refine iff_of_true ⟨nsList, rfl⟩ fun range h => ?_
    rw [h] at honly
    cases honly
  | none =>
    cases h : p.namespaceRange with
    | none => exact iff_of_true ⟨_, rfl⟩ fun range hsome => absurd hsome (by simp)
    | some range =>
      rw [h] at hrange
      simp only [validateNamespaceRange, List.append_eq_nil_iff, check_eq_nil,
        decide_eq_false_iff_not] at hrange
      have ordered : range.min ≤ range.max := by omega
      simp only [createNamespacesList, Option.some.injEq]
      by_cases largest : range.max = maxInt32
      · rw [if_pos ⟨ordered, largest⟩]
        refine iff_of_false (by simp) fun hmax => hmax range rfl largest
      · rw [if_neg fun h => largest h.2]
        exact iff_of_true ⟨_, rfl⟩ fun r hr => hr ▸ largest

/-- A phase of an accepted configuration obtains a tuning set if and only if
it names one, or one with an empty name is declared, and its namespace range
does not end at the largest `int32`. -/
theorem accepted_phase_obtains_tuning_set_iff (mapping : Mapping) (namePrefix : String)
    (render : TuningSetConfig → String) (schedule : Load → TuningSet) :
    ObtainsTuningSet (context mapping namePrefix (f.init c.tuningSets) render schedule)
        p.toPhase ↔
      (p.tuningSet = "" → ∃ ts ∈ c.tuningSets, ts.name = "") ∧
      ∀ range, p.namespaceRange = some range → range.max ≠ maxInt32 := by
  set ctx := context mapping namePrefix (f.init c.tuningSets) render schedule
  rw [← tuningSet_declared_iff accepted hs hp, ← createTuningSet_ok_iff accepted f p.tuningSet,
    ← namespacesOf_isSome_iff accepted hs hp ctx, obtainsTuningSet_iff]
  exact and_congr_left fun _ => context_createTuningSet_ok_iff _ _ _ _ _ _

end Accepted

/-- One phase and one declaration. -/
def sampleConfig (tuningSet : String) : Config := { plainConfig with
  steps := [⟨[⟨some ⟨1, 2, none⟩, none, 10, tuningSet, []⟩], [], ⟨"", none⟩, "Creating objects"⟩]
  tuningSets := [⟨"Sequence", some ⟨10⟩, none, none, none, none, none, none, none⟩] }

def sampleValidator : ConfigValidator :=
  ⟨"", "", fun _ => false, fun _ => [], fun _ => true, fun _ => true⟩

def sampleFactory : Factory := ⟨fun _ => none, fun _ => none⟩

def samplePhase (tuningSet : String) : PhaseConfig := ⟨some ⟨1, 2, none⟩, none, 10, tuningSet, []⟩

def sampleContext (tuningSet : String) : Context :=
  context (fun _ => none) "test" (sampleFactory.init (sampleConfig tuningSet).tuningSets)
    TuningSetConfig.name (fun _ => ⟨[]⟩)

theorem named_phase_obtains_tuning_set :
    ObtainsTuningSet (sampleContext "Sequence") (samplePhase "Sequence").toPhase := by
  have accepted : validate sampleValidator (sampleConfig "Sequence") = [] := by decide +kernel
  refine (accepted_phase_obtains_tuning_set_iff accepted sampleFactory List.mem_cons_self
    (p := samplePhase "Sequence") List.mem_cons_self _ _ _ _).mpr ⟨?_, ?_⟩
  · intro unnamed
    exact absurd unnamed (by decide)
  · intro range h
    cases h
    decide

/-- The validator passes a phase without a tuning set, and the factory does
not. -/
theorem unnamed_phase_obtains_none :
    validate sampleValidator (sampleConfig "") = [] ∧
      samplePhase "" ∈ (sampleConfig "").steps.flatMap Step.phases ∧
      executePhase (sampleContext "") (samplePhase "").toPhase =
        some (.done (some ["tuning set creation error: tuningset  not found"])) ∧
      ¬ ObtainsTuningSet (sampleContext "") (samplePhase "").toPhase := by
  have refused : (sampleContext "").createTuningSet "" = .error "tuningset  not found" := rfl
  refine ⟨by decide +kernel, List.mem_cons_self, ?_, ?_⟩
  · rfl
  · rintro ⟨_, tuningSet, created, -⟩
    cases refused.symm.trans created

end TuningSetFactory
