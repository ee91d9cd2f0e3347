import ClusterLoader.CompiledConfig
import ClusterLoader.KeyedStore
import Mathlib.Data.Finset.Card
import Mathlib.Data.List.Flatten

/-!
# Modules that refer to modules

Flattening goes through the steps in order and, at a module step, through the
steps of the module before it goes on. What it comes to is told by `Visits`; the
result has the visited steps that are no module steps, so a phase or measurement
that stands in a module step is lost without an error.

The recursion ends if and only if no module that it comes to leads back to
itself. Only what lies before the first error counts, since an error ends it, and
so does the panic at a nil step.
-/

namespace ModuleFiles

open CompiledConfig ConfigModifier PhaseRequests TestConfig KeyedStore Relation

/-! ## Relations without cycles -/

/-- Where finitely many points lead anywhere and no cycle can be reached, every
way ends. -/
theorem acc_of_no_cycle {α : Type*} {r : α → α → Prop} {known : Finset α}
    (hknown : ∀ a b, r a b → a ∈ known) {a : α}
    (h : ∀ b, ReflTransGen r a b → ¬ TransGen r b b) : Acc (fun x y => r y x) a := by
  classical
  induction hn : (known.filter (ReflTransGen r a)).card using Nat.strong_induction_on
    generalizing a with
  | _ n ih =>
    subst hn
    refine ⟨a, fun b hab => ih _ ?_ (fun c hbc => h c (.head hab hbc)) rfl⟩
    -- the point itself cannot be reached from the next one
    refine Finset.card_lt_card (Finset.ssubset_iff_of_subset ?_ |>.mpr ⟨a, ?_, ?_⟩)
    · intro c hc
      rw [Finset.mem_filter] at hc ⊢
      exact ⟨hc.1, .head hab hc.2⟩
    · exact Finset.mem_filter.mpr ⟨hknown a b hab, .refl⟩
    · intro hback
      exact h a .refl (.head' hab (Finset.mem_filter.mp hback).2)

/-! ## The steps that are come to -/

variable {step : Step} {inner : List (Option Step)}

section Flattening

variable {load : Loader}

/-- The steps of a list and of the modules it refers to, in the order in which
they are come to. A module step stands before the steps of its module. -/
inductive Visits (load : Loader) : List (Option Step) → List Step → Prop where
  | nil : Visits load [] []
  | executable {step : Step} {rest : List (Option Step)} {visited : List Step}
      (notModule : step.isModule = false) (others : Visits load rest visited) :
      Visits load (some step :: rest) (step :: visited)
  | included {step : Step} {inner rest : List (Option Step)} {visited visited' : List Step}
      (isModule : step.isModule = true) (loaded : load step.moduleRef = .ok inner)
      (inside : Visits load inner visited) (others : Visits load rest visited') :
      Visits load (some step :: rest) (step :: (visited ++ visited'))

variable {steps : List (Option Step)} {visited : List Step}

theorem Visits.unique {visited' : List Step} (h : Visits load steps visited)
    (h' : Visits load steps visited') : visited = visited' := by
  induction h generalizing visited' with
  | nil =>
    cases h'
    rfl
  | executable notModule _ ih =>
    cases h' with
    | executable _ others => rw [ih others]
    | included isModule => cases notModule.symm.trans isModule
  | included isModule loaded _ _ ihinside ih =>
    cases h' with
    | executable notModule => cases notModule.symm.trans isModule
    | included _ loaded' inside others =>
      cases loaded.symm.trans loaded'
      rw [ihinside inside, ih others]

def executables (visited : List Step) : List Step := visited.filter fun step => !step.isModule

section Rounds

variable {flatten : List (Option Step) → Except CompileFailure (List Step)} {step : Step}

theorem flattenEach_executable (notModule : step.isModule = false) (rest : List (Option Step)) :
    flattenEach load flatten (some step :: rest) =
      (flattenEach load flatten rest).map (step :: ·) := by
  rw [flattenEach, processStep, notModule]
  cases flattenEach load flatten rest <;> rfl

theorem flattenEach_failed (isModule : step.isModule = true) {cause : LoadError}
    (failed : load step.moduleRef = .error cause) (rest : List (Option Step)) :
    flattenEach load flatten (some step :: rest) = .error (.flattening cause) := by
  rw [flattenEach, processStep, isModule, failed]
  rfl

theorem flattenEach_included (isModule : step.isModule = true)
    (loaded : load step.moduleRef = .ok inner) (rest : List (Option Step)) :
    flattenEach load flatten (some step :: rest) =
      (flatten inner).bind fun processed =>
        (flattenEach load flatten rest).map (processed ++ ·) := by
  rw [flattenEach, processStep, isModule, if_pos rfl, loaded]
  cases hinner : flatten inner with
  | error e =>
    simp only [Except.mapError, bind, Except.bind, hinner]
  | ok processed =>
    simp only [Except.mapError, bind, Except.bind, hinner]
    cases flattenEach load flatten rest <;> rfl

end Rounds

theorem flatten_succ (depth : Nat) (steps : List (Option Step)) :
    flattenModuleSteps load (depth + 1) steps =
      flattenEach load (flattenModuleSteps load depth) steps := rfl

variable {depth : Nat}

/-- Where flattening returns steps, they are those visited without the modules. -/
theorem visits_of_ok {out : List Step} (h : flattenModuleSteps load depth steps = .ok out) :
    ∃ visited, Visits load steps visited ∧ out = executables visited := by
  induction depth generalizing steps out with
  | zero => cases h
  | succ depth ihdepth =>
    induction steps generalizing out with
    | nil =>
      cases h
      exact ⟨[], .nil, rfl⟩
    | cons entry rest ih =>
      obtain ⟨step, processed, others, rfl, rfl, hrest, hstep⟩ := flattenEach_cons h
      obtain ⟨visited', hvisits', rfl⟩ := ih hrest
      rcases hstep with ⟨isModule, inner, loaded, flattened⟩ | ⟨notModule, rfl⟩
      · obtain ⟨visited, hvisits, rfl⟩ := ihdepth flattened
        refine ⟨_, .included isModule loaded hvisits hvisits', ?_⟩
        simp [executables, isModule]
      · refine ⟨_, .executable notModule hvisits', ?_⟩
        simp [executables, notModule]

/-! ## When the recursion ends -/

/-- The loop comes to a step of a module. -/
def Enters (load : Loader) (steps : List (Option Step)) (ref : ModuleRef) : Prop :=
  ∃ before step after visited, steps = before ++ some step :: after ∧
    Visits load before visited ∧ step.isModule = true ∧ step.moduleRef = ref

def Leads (load : Loader) (ref ref' : ModuleRef) : Prop :=
  ∃ inner, load ref = .ok inner ∧ Enters load inner ref'

def Finishes (load : Loader) (depth : Nat) (steps : List (Option Step)) : Prop :=
  flattenModuleSteps load depth steps ≠ .error .unfinished

theorem flattenEach_congr
    {flatten flatten' : List (Option Step) → Except CompileFailure (List Step)}
    (h : ∀ inner, flatten inner ≠ .error .unfinished → flatten' inner = flatten inner)
    (finished : flattenEach load flatten steps ≠ .error .unfinished) :
    flattenEach load flatten' steps = flattenEach load flatten steps := by
  induction steps with
  | nil => rfl
  | cons entry rest ih =>
    cases entry with
    | none => rfl
    | some step =>
      cases hmodule : step.isModule with
      | false =>
        rw [flattenEach_executable hmodule] at finished ⊢
        rw [flattenEach_executable hmodule, ih]
        intro hrest
        rw [hrest] at finished
        exact finished rfl
      | true =>
        cases hload : load step.moduleRef with
        | error cause => rw [flattenEach_failed hmodule hload, flattenEach_failed hmodule hload]
        | ok inner =>
          rw [flattenEach_included hmodule hload] at finished ⊢
          rw [flattenEach_included hmodule hload]
          cases hinner : flatten inner with
          | error cause =>
            rw [h inner, hinner]
            · rfl
            · intro hunfinished
              rw [hunfinished] at finished
              exact finished rfl
          | ok processed =>
            rw [h inner (by rw [hinner]; exact nofun), hinner]
            rw [hinner] at finished
            rw [Except.bind, Except.bind, ih]
            intro hrest
            rw [hrest] at finished
            exact finished rfl

/-- More depth changes nothing once the recursion has ended. -/
theorem flatten_of_le {depth' : Nat} (hle : depth ≤ depth') (finished : Finishes load depth steps) :
    flattenModuleSteps load depth' steps = flattenModuleSteps load depth steps := by
  induction depth generalizing depth' steps with
  | zero => exact absurd rfl finished
  | succ depth ih =>
    obtain ⟨depth', rfl⟩ : ∃ n, depth' = n + 1 := ⟨depth' - 1, by omega⟩
    exact flattenEach_congr (fun inner hinner => ih (by omega) hinner) finished

variable {rest : List (Option Step)} {ref : ModuleRef}

theorem Enters.cons_executable (notModule : step.isModule = false) (h : Enters load rest ref) :
    Enters load (some step :: rest) ref := by
  obtain ⟨before, step', after, visited, rfl, hvisits, hmodule, href⟩ := h
  exact ⟨some step :: before, step', after, _, rfl, .executable notModule hvisits, hmodule, href⟩

variable {inner : List (Option Step)}

theorem Enters.cons_included (isModule : step.isModule = true)
    (loaded : load step.moduleRef = .ok inner) (inside : Visits load inner visited)
    (h : Enters load rest ref) :
    Enters load (some step :: rest) ref := by
  obtain ⟨before, step', after, visited, rfl, hvisits, hmodule, href⟩ := h
  exact ⟨some step :: before, step', after, _, rfl, .included isModule loaded inside hvisits,
    hmodule, href⟩

theorem Finishes.mono {depth' : Nat} (hle : depth ≤ depth')
    (finished : Finishes load depth steps) : Finishes load depth' steps := by
  rw [Finishes, flatten_of_le hle finished]
  exact finished

theorem map_eq_error_iff {E A B : Type} {x : Except E A} {f : A → B} {e : E} :
    x.map f = .error e ↔ x = .error e := by
  cases x <;> simp [Except.map]

theorem finishes_executable (notModule : step.isModule = false) :
    Finishes load (depth + 1) (some step :: rest) ↔ Finishes load (depth + 1) rest := by
  rw [Finishes, flatten_succ, flattenEach_executable notModule]
  exact not_congr map_eq_error_iff

theorem finishes_included (isModule : step.isModule = true)
    (loaded : load step.moduleRef = .ok inner) :
    Finishes load (depth + 1) (some step :: rest) ↔ Finishes load depth inner ∧
      ∀ out, flattenModuleSteps load depth inner = .ok out →
        Finishes load (depth + 1) rest := by
  rw [Finishes, flatten_succ, flattenEach_included isModule loaded, Finishes]
  cases hinner : flattenModuleSteps load depth inner with
  | error cause =>
    constructor
    · exact fun h => ⟨h, nofun⟩
    · exact fun h => h.1
  | ok out =>
    constructor
    · intro h
      exact ⟨nofun, fun _ _ => fun hrest => h (map_eq_error_iff.mpr hrest)⟩
    · intro h hmap
      exact h.2 out rfl (map_eq_error_iff.mp hmap)

/-- If the recursion ends for all modules that are come to, it ends for the list. -/
theorem exists_finishes (h : ∀ ref inner, Enters load steps ref → load ref = .ok inner →
      ∃ depth, Finishes load depth inner) : ∃ depth, Finishes load (depth + 1) steps := by
  induction steps with
  | nil => exact ⟨0, nofun⟩
  | cons entry rest ih =>
    cases entry with
    | none => exact ⟨0, nofun⟩
    | some step =>
      cases hmodule : step.isModule with
      | false =>
        obtain ⟨depth, finished⟩ := ih fun ref inner hrest =>
          h ref inner (hrest.cons_executable hmodule)
        exact ⟨depth, (finishes_executable hmodule).mpr finished⟩
      | true =>
        cases hload : load step.moduleRef with
        | error cause =>
          refine ⟨0, ?_⟩
          rw [Finishes, flatten_succ, flattenEach_failed hmodule hload]
          exact nofun
        | ok inner =>
          obtain ⟨depth, finished⟩ := h step.moduleRef inner
            ⟨[], step, rest, [], rfl, .nil, hmodule, rfl⟩ hload
          cases hinner : flattenModuleSteps load depth inner with
          | error cause =>
            refine ⟨depth, (finishes_included hmodule hload).mpr ⟨finished, fun out hout => ?_⟩⟩
            cases hinner.symm.trans hout
          | ok out =>
            obtain ⟨visited, inside, _⟩ := visits_of_ok hinner
            obtain ⟨depth', finished'⟩ := ih fun ref inner' hrest =>
              h ref inner' (hrest.cons_included hmodule hload inside)
            refine ⟨max depth depth', (finishes_included hmodule hload).mpr
              ⟨finished.mono (by omega), fun _ _ => finished'.mono (by omega)⟩⟩

variable {before : List (Option Step)}

/-- What is visited only adds to what becomes of the steps behind it. -/
theorem Visits.flatten_append (h : Visits load before visited)
    (finished : Finishes load (depth + 1) (before ++ rest)) :
    flattenModuleSteps load (depth + 1) (before ++ rest) =
      (flattenModuleSteps load (depth + 1) rest).map (executables visited ++ ·) := by
  induction h generalizing depth rest with
  | nil => cases h : flattenModuleSteps load (depth + 1) rest <;> simp [h, executables, Except.map]
  | executable notModule _ ih =>
    rw [List.cons_append] at finished ⊢
    have hrest := ih ((finishes_executable notModule).mp finished)
    rw [flatten_succ, flattenEach_executable notModule, ← flatten_succ, hrest]
    cases flattenModuleSteps load (depth + 1) rest <;> simp [Except.map, executables, notModule]
  | @included _ inner _ _ _ isModule loaded _ _ ihinside ih =>
    rw [List.cons_append] at finished ⊢
    obtain ⟨hinner, others⟩ := (finishes_included isModule loaded).mp finished
    cases depth with
    | zero => exact absurd rfl hinner
    | succ depth =>
      rw [← List.append_nil inner] at hinner
      have hinside := ihinside hinner
      rw [List.append_nil] at hinside
      have hrest := ih (others _ hinside)
      rw [flatten_succ, flattenEach_included isModule loaded, hinside, ← flatten_succ]
      change Except.map _ _ = _
      rw [hrest]
      cases flattenModuleSteps load (depth + 2) rest <;> simp [Except.map, executables, isModule]

theorem Visits.flatten (h : Visits load steps visited) (finished : Finishes load depth steps) :
    flattenModuleSteps load depth steps = .ok (executables visited) := by
  cases depth with
  | zero => exact absurd rfl finished
  | succ depth =>
    rw [← List.append_nil steps] at finished ⊢
    rw [h.flatten_append finished]
    exact congrArg Except.ok (List.append_nil _)

theorem Visits.finishes (h : Visits load before visited)
    (finished : Finishes load (depth + 1) (before ++ rest)) : Finishes load (depth + 1) rest := by
  intro unfinished
  refine finished ?_
  rw [h.flatten_append finished, unfinished]
  rfl

/-- Where the recursion ends, it ends one level earlier for a module come to. -/
theorem Finishes.of_enters (finished : Finishes load depth steps) (enters : Enters load steps ref) :
    ∃ depth' < depth, ∀ inner, load ref = .ok inner → Finishes load depth' inner := by
  obtain ⟨before, step, after, visited, rfl, hvisits, isModule, rfl⟩ := enters
  cases depth with
  | zero => exact absurd rfl finished
  | succ depth =>
    refine ⟨depth, Nat.lt_succ_self depth, fun inner loaded => ?_⟩
    exact ((finishes_included isModule loaded).mp (hvisits.finishes finished)).1

theorem exists_finishes_of_acc (acc : Acc (fun x y => Leads load y x) ref)
    (loaded : load ref = .ok inner) :
    ∃ depth, Finishes load depth inner := by
  induction acc generalizing inner with
  | intro ref _ ih =>
    obtain ⟨depth, finished⟩ := exists_finishes fun ref' inner' enters loaded' =>
      ih ref' ⟨inner, loaded, enters⟩ loaded'
    exact ⟨depth + 1, finished⟩

/-! ## Nil steps -/

/-- The loop comes to a nil step, in the list itself or in a module. -/
inductive MeetsNil (load : Loader) : List (Option Step) → Prop where
  | here {before after : List (Option Step)} {visited : List Step}
      (visits : Visits load before visited) : MeetsNil load (before ++ none :: after)
  | inside {steps inner : List (Option Step)} {ref : ModuleRef} (enters : Enters load steps ref)
      (loaded : load ref = .ok inner) (meets : MeetsNil load inner) : MeetsNil load steps

theorem MeetsNil.cons_executable (notModule : step.isModule = false) (h : MeetsNil load rest) :
    MeetsNil load (some step :: rest) := by
  cases h with
  | here visits => exact .here (.executable notModule visits)
  | inside enters loaded meets => exact .inside (enters.cons_executable notModule) loaded meets

theorem MeetsNil.cons_included (isModule : step.isModule = true)
    (loaded : load step.moduleRef = .ok inner) (inside : Visits load inner visited)
    (h : MeetsNil load rest) : MeetsNil load (some step :: rest) := by
  cases h with
  | here visits => exact .here (.included isModule loaded inside visits)
  | inside enters loaded' meets =>
    exact .inside (enters.cons_included isModule loaded inside) loaded' meets

/-- The three ways in which no steps are returned. -/
theorem flatten_error {cause : CompileFailure}
    (h : flattenModuleSteps load depth steps = .error cause) :
    cause = .unfinished ∨ (cause = .nilStep ∧ MeetsNil load steps) ∨
      ∃ loadError, cause = .flattening loadError := by
  induction depth generalizing steps cause with
  | zero => exact .inl (Except.error.inj h).symm
  | succ depth ihdepth =>
    induction steps with
    | nil => cases h
    | cons entry rest ih =>
      cases entry with
      | none => exact .inr (.inl ⟨(Except.error.inj h).symm, .here .nil⟩)
      | some step =>
        cases hmodule : step.isModule with
        | false =>
          rw [flatten_succ, flattenEach_executable hmodule] at h
          exact (ih (map_eq_error_iff.mp h)).imp_right
            (Or.imp_left (And.imp_right (.cons_executable hmodule)))
        | true =>
          cases hload : load step.moduleRef with
          | error loadError =>
            rw [flatten_succ, flattenEach_failed hmodule hload] at h
            exact .inr (.inr ⟨loadError, (Except.error.inj h).symm⟩)
          | ok inner =>
            rw [flatten_succ, flattenEach_included hmodule hload] at h
            cases hinner : flattenModuleSteps load depth inner with
            | error cause' =>
              rw [hinner] at h
              cases h
              have enters : Enters load (some step :: rest) step.moduleRef :=
                ⟨[], step, rest, [], rfl, .nil, hmodule, rfl⟩
              exact (ihdepth hinner).imp_right (Or.imp_left (And.imp_right (.inside enters hload)))
            | ok out =>
              rw [hinner] at h
              obtain ⟨visited, inside, _⟩ := visits_of_ok hinner
              exact (ih (map_eq_error_iff.mp h)).imp_right
                (Or.imp_left (And.imp_right (.cons_included hmodule hload inside)))

theorem MeetsNil.flatten (h : MeetsNil load steps) (finished : Finishes load depth steps) :
    flattenModuleSteps load depth steps = .error .nilStep := by
  induction h generalizing depth with
  | here visits =>
    cases depth with
    | zero => exact absurd rfl finished
    | succ depth =>
      rw [visits.flatten_append finished]
      rfl
  | inside enters loaded _ ih =>
    obtain ⟨before, step, after, visited, rfl, hvisits, isModule, rfl⟩ := enters
    cases depth with
    | zero => exact absurd rfl finished
    | succ depth =>
      have hrest := hvisits.finishes finished
      have hinner := ih ((finishes_included isModule loaded).mp hrest).1
      rw [hvisits.flatten_append finished, flatten_succ, flattenEach_included isModule loaded,
        hinner]
      rfl

/-! ## What is lost -/

/-- What a step carries itself. -/
def carried (step : Step) : List (PhaseConfig ⊕ Measurement) :=
  step.phases.map .inl ++ step.measurements.map .inr

/-- Flattening ends with an error, or with steps that carry what the visited steps
carry, in the same order and as often. -/
def LosesNothing (load : Loader) (steps : List (Option Step)) : Prop :=
  ∃ depth,
    (∃ cause, flattenModuleSteps load depth steps = .error (.flattening cause)) ∨
    ∃ out visited, flattenModuleSteps load depth steps = .ok out ∧ Visits load steps visited ∧
      (∀ step ∈ out, step.isModule = false) ∧ out.flatMap carried = visited.flatMap carried

def Bare (step : Step) : Prop := step.phases = [] ∧ step.measurements = []

/-- No module step that is come to has phases or measurements of its own. -/
def BareModules (load : Loader) (steps : List (Option Step)) : Prop :=
  ∀ visited, Visits load steps visited → ∀ step ∈ visited, step.isModule = true → Bare step

theorem carried_eq_nil_iff : carried step = [] ↔ Bare step := by
  simp [carried, Bare]

theorem flatMap_executables_iff (visited : List Step) :
    (executables visited).flatMap carried = visited.flatMap carried ↔
      ∀ step ∈ visited, step.isModule = true → Bare step := by
  induction visited with
  | nil => exact iff_of_true rfl nofun
  | cons step rest ih =>
    rw [List.forall_mem_cons, ← ih, List.flatMap_cons]
    cases hmodule : step.isModule with
    | true =>
      have hskip : executables (step :: rest) = executables rest := by simp [executables, hmodule]
      rw [hskip]
      constructor
      · intro h
        have hlen := congrArg List.length h
        have hle : ((executables rest).flatMap carried).length ≤ (rest.flatMap carried).length :=
          (List.filter_sublist.flatMap carried).length_le
        rw [List.length_append] at hlen
        have hnil : carried step = [] := List.eq_nil_of_length_eq_zero (by omega)
        exact ⟨fun _ => carried_eq_nil_iff.mp hnil, by rw [h, hnil, List.nil_append]⟩
      · rintro ⟨hbare, hrest⟩
        rw [carried_eq_nil_iff.mpr (hbare rfl), List.nil_append, hrest]
    | false =>
      have hkeep : executables (step :: rest) = step :: executables rest := by
        simp [executables, hmodule]
      rw [hkeep, List.flatMap_cons, List.append_cancel_left_eq]
      exact ⟨fun h => ⟨nofun, h⟩, fun h => h.2⟩

theorem losesNothing_iff (ends : ∃ depth, Finishes load depth steps) :
    LosesNothing load steps ↔ ¬ MeetsNil load steps ∧ BareModules load steps := by
  constructor
  · rintro ⟨depth, ⟨cause, herror⟩ | ⟨out, visited, hok, hvisits, _, hcarried⟩⟩
    · have finished : Finishes load depth steps := fun h => by cases herror.symm.trans h
      refine ⟨fun meets => ?_, fun visited hvisits => ?_⟩
      · cases herror.symm.trans (meets.flatten finished)
      · cases herror.symm.trans (hvisits.flatten finished)
    · refine ⟨fun meets => ?_, fun visited' hvisits' => ?_⟩
      · have finished : Finishes load depth steps := fun h => by cases hok.symm.trans h
        cases hok.symm.trans (meets.flatten finished)
      · obtain ⟨_, hvisits'', rfl⟩ := visits_of_ok hok
        obtain rfl := hvisits.unique hvisits'
        obtain rfl := hvisits.unique hvisits''
        exact (flatMap_executables_iff visited).mp hcarried
  · rintro ⟨noNil, bare⟩
    obtain ⟨depth, finished⟩ := ends
    refine ⟨depth, ?_⟩
    cases hflat : flattenModuleSteps load depth steps with
    | error cause =>
      rcases flatten_error hflat with rfl | ⟨rfl, meets⟩ | ⟨loadError, rfl⟩
      · exact absurd hflat finished
      · exact absurd meets noNil
      · exact .inl ⟨loadError, rfl⟩
    | ok out =>
      obtain ⟨visited, hvisits, rfl⟩ := visits_of_ok hflat
      refine .inr ⟨_, visited, rfl, hvisits, ?_,
        (flatMap_executables_iff visited).mpr (bare visited hvisits)⟩
      intro step hstep
      simpa using (List.mem_filter.mp hstep).2

end Flattening

/-! ## Files without a cycle -/

/-- Some rendering of the first file has a step of the second. -/
def Includes (ctx : TestContext) (path path' : String) : Prop :=
  ∃ mapping steps, ctx.templateInto path mapping = .ok steps ∧
    ∃ step, some step ∈ steps ∧ step.isModule = true ∧ step.moduleRef.path = path'

structure Acyclic (ctx : TestContext) : Prop where
  finite : ∃ paths : Finset String, ∀ path mapping steps,
    ctx.templateInto path mapping = .ok steps → path ∈ paths
  noCycle : ∀ path, ¬ TransGen (Includes ctx) path path

variable {ctx : TestContext} {steps : List (Option Step)} {ref : ModuleRef}

theorem loadModule_ok (h : loadModule ctx ref = .ok steps) :
    ∃ mapping, ctx.templateInto ref.path mapping = .ok steps := by
  rw [loadModule] at h
  split at h
  · cases h
  · exact ⟨_, ok_of_mapError h⟩

theorem Leads.includes {ref ref' : ModuleRef} (h : Leads (loadModule ctx) ref ref') :
    Includes ctx ref.path ref'.path := by
  obtain ⟨inner, loaded, before, step, after, _, rfl, _, isModule, rfl⟩ := h
  obtain ⟨mapping, hrender⟩ := loadModule_ok loaded
  exact ⟨mapping, _, hrender, step, by simp, isModule, rfl⟩

theorem Acyclic.exists_finishes (acyclic : Acyclic ctx) (steps : List (Option Step)) :
    ∃ depth, Finishes (loadModule ctx) depth steps := by
  obtain ⟨paths, hpaths⟩ := acyclic.finite
  have hsource : ∀ path path', Includes ctx path path' → path ∈ paths := by
    rintro path _ ⟨mapping, inner, hrender, _⟩
    exact hpaths path mapping inner hrender
  have hacc : ∀ ref : ModuleRef, Acc (fun x y => Leads (loadModule ctx) y x) ref := by
    intro ref
    have hpath : Acc (fun x y => Includes ctx y x) ref.path :=
      acc_of_no_cycle hsource fun path _ => acyclic.noCycle path
    exact Subrelation.accessible (fun h => Leads.includes h)
      (InvImage.accessible ModuleRef.path hpath)
  obtain ⟨depth, finished⟩ : ∃ depth, Finishes (loadModule ctx) (depth + 1) steps :=
    ModuleFiles.exists_finishes fun ref _ _ loaded => exists_finishes_of_acc (hacc ref) loaded
  exact ⟨depth + 1, finished⟩

/-- Flattening loses no phase and no measurement if and only if it comes to no nil
step and no module step that it comes to has one. -/
theorem losesNothing_iff_bareModules {ctx : TestContext} (acyclic : Acyclic ctx)
    (steps : List (Option Step)) :
    LosesNothing (loadModule ctx) steps ↔
      ¬ MeetsNil (loadModule ctx) steps ∧ BareModules (loadModule ctx) steps :=
  losesNothing_iff (acyclic.exists_finishes steps)

def timerStep : Step := ⟨[], [⟨"Timer", "timer", []⟩], ⟨"", none⟩, "Starting timer"⟩

def moduleStep (measurements : List Measurement) (path : String) : Step :=
  ⟨[], measurements, ⟨path, none⟩, "Including a module"⟩

def timerContext (steps : List (Option Step)) : TestContext :=
  { sampleContext "" with
    templateToConfig := .ok ((sampleConfig 0 "").withSteps steps)
    templateInto := fun path _ =>
      if path = "modules/timer.yaml" then .ok [some timerStep] else .error "no such file"
    modifierConfig := ⟨[], []⟩ }

theorem acyclic_timerContext (steps : List (Option Step)) : Acyclic (timerContext steps) where
  finite := by
    refine ⟨{"modules/timer.yaml"}, fun path mapping inner h => ?_⟩
    simp only [timerContext] at h
    split at h
    · exact Finset.mem_singleton.mpr ‹_›
    · cases h
  noCycle := by
    have hnone : ∀ path path', ¬ Includes (timerContext steps) path path' := by
      rintro path path' ⟨mapping, inner, h, step, hstep, isModule, _⟩
      simp only [timerContext] at h
      split at h
      · cases h
        cases List.mem_singleton.mp hstep
        cases isModule
      · cases h
    intro path cycle
    cases cycle with
    | single h => exact hnone _ _ h
    | tail _ h => exact hnone _ _ h

theorem visits_timer (isModule : step.isModule = true)
    (loaded : loadModule (timerContext steps) step.moduleRef = .ok [some timerStep]) :
    Visits (loadModule (timerContext steps)) [some step] [step, timerStep] := by
  have hvisits := Visits.included isModule loaded (.executable rfl .nil) .nil
  exact hvisits

theorem losesNothing_timer :
    LosesNothing (loadModule (timerContext [])) [some (moduleStep [] "modules/timer.yaml")] := by
  refine (losesNothing_iff_bareModules (acyclic_timerContext []) _).mpr ⟨fun meets => ?_, ?_⟩
  · have flattened : flattenModuleSteps (loadModule (timerContext [])) 2
        [some (moduleStep [] "modules/timer.yaml")] = .ok [timerStep] := rfl
    cases (meets.flatten fun h => by cases flattened.symm.trans h).symm.trans flattened
  · intro visited hvisits
    have hvisits' : Visits (loadModule (timerContext []))
        [some (moduleStep [] "modules/timer.yaml")]
        [moduleStep [] "modules/timer.yaml", timerStep] :=
      visits_timer rfl rfl
    obtain rfl := hvisits.unique hvisits'
    intro step hstep isModule
    rcases List.mem_pair.mp hstep with rfl | rfl
    · exact ⟨rfl, rfl⟩
    · cases isModule

def mixedStep : Step := moduleStep [⟨"PodStartupLatency", "latency", []⟩] "modules/timer.yaml"

/-- A measurement beside the module is gone, and the configuration is accepted. -/
theorem mixedStep_stripped :
    (∃ compiled, compileTestConfig 2 (timerContext [some mixedStep]) = .ok compiled ∧
        compiled.steps = [timerStep]) ∧
      ¬ LosesNothing (loadModule (timerContext [some mixedStep])) [some mixedStep] := by
  refine ⟨⟨_, rfl, rfl⟩, fun lossless => ?_⟩
  have hvisits : Visits (loadModule (timerContext [some mixedStep])) [some mixedStep]
      [mixedStep, timerStep] :=
    visits_timer rfl rfl
  have flattened : flattenModuleSteps (loadModule (timerContext [some mixedStep])) 2
      [some mixedStep] = .ok [timerStep] := rfl
  have ends : ∃ depth, Finishes (loadModule (timerContext [some mixedStep])) depth
      [some mixedStep] := ⟨2, fun unfinished => by cases flattened.symm.trans unfinished⟩
  have bare := ((losesNothing_iff ends).mp lossless).2 _ hvisits mixedStep List.mem_cons_self rfl
  cases bare.2

/-! ## Files whose contents are fixed -/

/-- The rendered contents do not depend on the parameters. -/
def withFiles (ctx : TestContext) (files : Map String (Except String (List (Option Step)))) :
    TestContext :=
  { ctx with templateInto := fun path _ => (files.get path).getD (.error "no such file") }

section Fixed

variable (ctx : TestContext) (files : Map String (Except String (List (Option Step))))

/-- A module of the first file comes to a module of the second. -/
def FileLeads (path path' : String) : Prop :=
  ∃ ref ref', Leads (loadModule (withFiles ctx files)) ref ref' ∧ ref.path = path ∧
    ref'.path = path'

/-- The flattening of the steps comes to a module of the file, if no error ends it. -/
def ComesTo (steps : List (Option Step)) (path : String) : Prop :=
  ∃ ref, Enters (loadModule (withFiles ctx files)) steps ref ∧
    ReflTransGen (FileLeads ctx files) ref.path path

/-- A configuration or an error, and not a panic. -/
def Returned : Except CompileFailure Config → Prop
  | .error .unfinished | .error .nilStep | .error (.mutation (.panic _)) => False
  | _ => True

/-- The compilation returns, with a configuration or an error. -/
def Ends (ctx : TestContext) : Prop :=
  ∃ depth, ∀ depth' ≥ depth, Returned (compileTestConfig depth' ctx)

variable {ctx files}

theorem loadModule_withFiles :
    loadModule (withFiles ctx files) ref = .ok inner ↔
      ref.path ≠ "" ∧ files.get ref.path = some (.ok inner) := by
  rw [loadModule]
  by_cases hpath : ref.path = ""
  · simp [hpath]
  · simp only [if_neg hpath, withFiles]
    cases hget : files.get ref.path with
    | none => simp [Except.mapError]
    | some rendered => cases rendered <;> simp [Except.mapError, hpath]

/-- At this depth the recursion ends for the modules of a file. -/
def FileFinishes (ctx : TestContext) (files : Map String (Except String (List (Option Step))))
    (depth : Nat) (path : String) : Prop :=
  ∀ ref inner, ref.path = path → loadModule (withFiles ctx files) ref = .ok inner →
    Finishes (loadModule (withFiles ctx files)) depth inner

variable {depth : Nat}

theorem fileFinishes_of_enters (finished : Finishes (loadModule (withFiles ctx files)) depth steps)
    (enters : Enters (loadModule (withFiles ctx files)) steps ref) :
    ∃ depth' < depth, FileFinishes ctx files depth' ref.path := by
  obtain ⟨depth', hlt, hinner⟩ := finished.of_enters enters
  refine ⟨depth', hlt, fun ref' inner hpath loaded => hinner inner ?_⟩
  -- another reference to the same file loads the same steps
  rw [loadModule_withFiles, hpath] at loaded
  exact loadModule_withFiles.mpr loaded

variable {path path' : String}

theorem FileFinishes.of_leads
    (finished : FileFinishes ctx files depth path) (leads : FileLeads ctx files path path') :
    ∃ depth' < depth, FileFinishes ctx files depth' path' := by
  obtain ⟨ref, ref', ⟨inner, loaded, enters⟩, rfl, rfl⟩ := leads
  exact fileFinishes_of_enters (finished ref inner rfl loaded) enters

theorem FileFinishes.of_transGen (finished : FileFinishes ctx files depth path)
    (leads : TransGen (FileLeads ctx files) path path') :
    ∃ depth' < depth, FileFinishes ctx files depth' path' := by
  induction leads with
  | single hstep => exact finished.of_leads hstep
  | tail _ hstep ih =>
    obtain ⟨depth', hlt, finished'⟩ := ih
    obtain ⟨depth'', hlt', finished''⟩ := finished'.of_leads hstep
    exact ⟨depth'', by omega, finished''⟩

theorem not_fileFinishes (cycle : TransGen (FileLeads ctx files) path path)
    (depth : Nat) : ¬ FileFinishes ctx files depth path := by
  induction depth using Nat.strong_induction_on with
  | _ depth ih =>
    intro finished
    obtain ⟨depth', hlt, finished'⟩ := finished.of_transGen cycle
    exact ih depth' hlt finished'

theorem fileLeads_source (h : FileLeads ctx files path path') : path ∈ files.keys.toFinset := by
  obtain ⟨ref, ref', ⟨inner, loaded, _⟩, rfl, _⟩ := h
  rw [List.mem_toFinset, Map.mem_keys, (loadModule_withFiles.mp loaded).2]
  rfl

theorem exists_finishes_iff (steps : List (Option Step)) :
    (∃ depth, Finishes (loadModule (withFiles ctx files)) depth steps) ↔
      ∀ path, ComesTo ctx files steps path → ¬ TransGen (FileLeads ctx files) path path := by
  constructor
  · rintro ⟨depth, finished⟩ path ⟨ref, enters, hreach⟩ cycle
    obtain ⟨depth', _, finished'⟩ := fileFinishes_of_enters finished enters
    rcases reflTransGen_iff_eq_or_transGen.mp hreach with rfl | hreach
    · exact not_fileFinishes cycle depth' finished'
    · obtain ⟨depth'', _, finished''⟩ := finished'.of_transGen hreach
      exact not_fileFinishes cycle depth'' finished''
  · intro noCycle
    suffices h : ∃ depth, Finishes (loadModule (withFiles ctx files)) (depth + 1) steps by
      obtain ⟨depth, finished⟩ := h
      exact ⟨depth + 1, finished⟩
    refine exists_finishes fun ref inner enters loaded => ?_
    have hpath := acc_of_no_cycle (fun _ _ => fileLeads_source)
        fun path hreach => noCycle path ⟨ref, enters, hreach⟩
    refine exists_finishes_of_acc (Subrelation.accessible ?_
      (InvImage.accessible ModuleRef.path hpath)) loaded
    exact fun {ref' ref''} hleads => ⟨ref'', ref', hleads, rfl, rfl⟩

/-- The compilation returns if reading fails, or if the modifier does not panic and
flattening ends without one. -/
theorem returned_compileTestConfig_iff :
    Returned (compileTestConfig depth ctx) ↔
      ∀ decoded, ctx.templateToConfig = .ok decoded →
        (∀ text, changeTest ctx.modifierConfig decoded ≠ .error (.panic text)) ∧
        ∀ changed, changeTest ctx.modifierConfig decoded = .ok changed →
          Finishes (loadModule ctx) depth changed.steps ∧
            ¬ MeetsNil (loadModule ctx) changed.steps := by
  rw [compileTestConfig]
  cases hread : ctx.templateToConfig with
  | error cause =>
    refine iff_of_true trivial fun _ h => ?_
    cases h
  | ok decoded =>
    rw [bind_of_ok (mapError_of_ok rfl _)]
    simp only [Except.ok.injEq, forall_eq']
    cases hchange : changeTest ctx.modifierConfig decoded with
    | error failure =>
      cases failure with
      | error text => exact iff_of_true trivial ⟨by simp, by simp⟩
      | panic text => exact iff_of_false id fun h => h.1 text rfl
    | ok changed =>
      rw [bind_of_ok (mapError_of_ok rfl _)]
      simp only [Except.ok.injEq, forall_eq', ne_eq, reduceCtorEq, not_false_eq_true, forall_const,
        true_and]
      cases hflat : flattenModuleSteps (loadModule ctx) depth changed.steps with
      | ok steps =>
        have finished : Finishes (loadModule ctx) depth changed.steps :=
          fun h => by cases hflat.symm.trans h
        refine iff_of_true ?_ ⟨finished, fun meets => ?_⟩
        · rw [bind_of_ok rfl, validated]
          split <;> trivial
        · cases hflat.symm.trans (meets.flatten finished)
      | error cause =>
        rcases flatten_error hflat with rfl | ⟨rfl, meets⟩ | ⟨loadError, rfl⟩
        · exact iff_of_false id fun h => h.1 hflat
        · exact iff_of_false id fun h => h.2 meets
        · have finished : Finishes (loadModule ctx) depth changed.steps :=
            fun h => by cases hflat.symm.trans h
          refine iff_of_true trivial ⟨finished, fun meets => ?_⟩
          cases hflat.symm.trans (meets.flatten finished)

/-- Compiling ends if and only if the modifier does not panic, no module file that
is come to leads back to itself, and no step that is come to is nil. -/
theorem ends_iff_no_cycle (ctx : TestContext)
    (files : Map String (Except String (List (Option Step)))) :
    Ends (withFiles ctx files) ↔
      ∀ decoded, ctx.templateToConfig = .ok decoded →
        (∀ text, changeTest ctx.modifierConfig decoded ≠ .error (.panic text)) ∧
        ∀ changed, changeTest ctx.modifierConfig decoded = .ok changed →
          (∀ path, ComesTo ctx files changed.steps path →
            ¬ TransGen (FileLeads ctx files) path path) ∧
          ¬ MeetsNil (loadModule (withFiles ctx files)) changed.steps := by
  simp only [Ends, returned_compileTestConfig_iff, ← exists_finishes_iff]
  constructor
  · rintro ⟨depth, hends⟩ decoded hread
    obtain ⟨noPanic, flattens⟩ := hends depth (Nat.le_refl _) decoded hread
    refine ⟨noPanic, fun changed hchange => ?_⟩
    obtain ⟨finished, noNil⟩ := flattens changed hchange
    exact ⟨⟨depth, finished⟩, noNil⟩
  · intro h
    by_cases hchanged : ∃ decoded changed, ctx.templateToConfig = .ok decoded ∧
        changeTest ctx.modifierConfig decoded = .ok changed
    · obtain ⟨decoded, changed, hread, hchange⟩ := hchanged
      obtain ⟨noPanic, flattens⟩ := h decoded hread
      obtain ⟨⟨depth, finished⟩, noNil⟩ := flattens changed hchange
      refine ⟨depth, fun depth' hle decoded' hread' => ?_⟩
      cases hread.symm.trans hread'
      refine ⟨noPanic, fun changed' hchange' => ?_⟩
      cases hchange.symm.trans hchange'
      exact ⟨finished.mono hle, noNil⟩
    · refine ⟨0, fun depth' _ decoded hread => ⟨(h decoded hread).1, fun changed hchange => ?_⟩⟩
      exact absurd ⟨decoded, changed, hread, hchange⟩ hchanged

end Fixed

/-- A module that includes itself. -/
def selfIncluding : Map String (Except String (List (Option Step))) where
  entries := [("modules/timer.yaml",
    .ok [some timerStep, some (moduleStep [] "modules/timer.yaml")])]
  unique := by decide

def selfIncludingContext : TestContext :=
  timerContext [some (moduleStep [] "modules/timer.yaml")]

theorem not_ends_selfIncluding : ¬ Ends (withFiles selfIncludingContext selfIncluding) := by
  rintro ⟨depth, hends⟩
  have enters : Enters (loadModule (withFiles selfIncludingContext selfIncluding))
      [some (moduleStep [] "modules/timer.yaml")] ⟨"modules/timer.yaml", none⟩ :=
    ⟨[], _, [], [], rfl, .nil, rfl, rfl⟩
  have leads : FileLeads selfIncludingContext selfIncluding "modules/timer.yaml"
      "modules/timer.yaml" :=
    ⟨⟨"modules/timer.yaml", none⟩, ⟨"modules/timer.yaml", none⟩,
      ⟨_, rfl, [some timerStep], _, [], _, rfl, .executable rfl .nil, rfl, rfl⟩, rfl, rfl⟩
  have returned := hends depth (Nat.le_refl _)
  obtain ⟨finished, _⟩ := (returned_compileTestConfig_iff.mp returned _ rfl).2 _ rfl
  exact (exists_finishes_iff _).mp ⟨depth, finished⟩ _ ⟨_, enters, .refl⟩ (.single leads)

end ModuleFiles
