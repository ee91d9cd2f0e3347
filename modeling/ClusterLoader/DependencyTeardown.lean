import ClusterLoader.TestExecution

/-!
# Dependencies that are set up and torn down

A dependency whose Setup returns in time is recorded, and the cleanup tears
the recorded ones down in reverse. A Setup that has timed out goes on in its
own goroutine and may still succeed; nobody records it then. The cleanup gives
up before the teardown when the namespaces could not be deleted, and on a
dependency when the version of the cluster is not known.

A history is the trace of a run together with the late returns of timed-out
setups. The main theorem says in which histories exactly the dependencies that
were set up are torn down, in reverse order.
-/

namespace DependencyTeardown

open RequestPrograms RequestPrograms.Prog TestConfig TestExecution

abbrev Trace := List (Event Reply)

/-- The dependency that a call has set up. -/
def succeeded : Event Reply → Option (Nat × Dependency)
  | ⟨.setup i dep, none⟩ => some (i, dep)
  | ⟨.setupWithTimeout i dep, .returned none⟩ => some (i, dep)
  | _ => none

def tornDown : Event Reply → Option (Nat × Dependency)
  | ⟨.teardown i dep, _⟩ => some (i, dep)
  | _ => none

def setups (t : Trace) : List (Nat × Dependency) := t.filterMap succeeded

def teardowns (t : Trace) : List (Nat × Dependency) := t.filterMap tornDown

/-- The calls that only the cleanup makes and that decide what is torn down. -/
def CleanupCall : Request → Prop
  | .serverVersion .teardown => True
  | .deleteAutomanagedNamespaces _ => True
  | .teardown _ _ => True
  | _ => False

def NoCleanup (t : Trace) : Prop := ∀ e ∈ t, ¬ CleanupCall e.1

@[simp] theorem setups_append (t t' : Trace) : setups (t ++ t') = setups t ++ setups t' :=
  List.filterMap_append

@[simp] theorem teardowns_append (t t' : Trace) :
    teardowns (t ++ t') = teardowns t ++ teardowns t' :=
  List.filterMap_append

theorem noCleanup_append {t t' : Trace} (h : NoCleanup t) (h' : NoCleanup t') :
    NoCleanup (t ++ t') :=
  List.forall_mem_append.mpr ⟨h, h'⟩

theorem noCleanup_nil : NoCleanup [] := fun _ he => absurd he List.not_mem_nil

variable {t : Trace} {e : Event Reply}

theorem noCleanup_cons (he : ¬ CleanupCall e.1) (h : NoCleanup t) : NoCleanup (e :: t) :=
  List.forall_mem_cons.mpr ⟨he, h⟩

theorem teardowns_of_noCleanup (h : NoCleanup t) : teardowns t = [] := by
  rw [teardowns, List.filterMap_eq_nil_iff]
  intro e he
  obtain ⟨q, r⟩ := e
  cases q with
  | teardown i dep => exact absurd trivial (h _ he)
  | _ => rfl

section Body
variable (ctx : ExecutorContext)

/-- The manager records what the calls of `t` have set up, and `t` does not
belong to the cleanup. -/
def Records (dm dm' : DependencyManager) (t : Trace) : Prop :=
  dm'.setupDependencies = dm.setupDependencies ++ setups t ∧ NoCleanup t

theorem records_nil (dm : DependencyManager) : Records dm dm [] :=
  ⟨(List.append_nil _).symm, noCleanup_nil⟩

theorem records_append {dm₁ dm₂ dm₃ : DependencyManager} {t t' : Trace}
    (h : Records dm₁ dm₂ t) (h' : Records dm₂ dm₃ t') : Records dm₁ dm₃ (t ++ t') := by
  refine ⟨?_, noCleanup_append h.2 h'.2⟩
  rw [h'.1, h.1, setups_append, List.append_assoc]

/-- A call that sets nothing up and does not belong to the cleanup. -/
theorem records_cons {dm dm' : DependencyManager} (hset : succeeded e = none)
    (he : ¬ CleanupCall e.1) (h : Records dm dm' t) :
    Records dm dm' (e :: t) := by
  refine ⟨?_, noCleanup_cons he h.2⟩
  have same : setups (e :: t) = setups t := List.filterMap_cons_none hset
  rw [h.1, same]

/-- A call that has set a dependency up. -/
theorem records_success {dm : DependencyManager} {p : Nat × Dependency}
    (hset : succeeded e = some p) (he : ¬ CleanupCall e.1) :
    Records dm { dm with setupDependencies := dm.setupDependencies ++ [p] } [e] := by
  refine ⟨?_, noCleanup_cons he noCleanup_nil⟩
  rw [setups, List.filterMap_cons_some hset]
  rfl

theorem getDependencyInstance_records (dm : DependencyManager) (method : String) :
    (getDependencyInstance dm method).Ensures fun t r => Records dm r.2 t := by
  rw [getDependencyInstance]
  split
  · exact ensures_done (records_nil dm)
  · refine ensures_request_bind fun r => ?_
    cases r with
    | some e => exact ensures_done (records_cons rfl id (records_nil dm))
    | none => exact ensures_done (records_cons rfl id ⟨(List.append_nil _).symm, noCleanup_nil⟩)

/-- Setup and what is made of its result. -/
theorem runSetup_records (i : Nat) (dep : Dependency) (dm : DependencyManager) :
    (runSetup i dep).Ensures fun t r => Records dm (afterSetup ctx i dep dm r).2 t := by
  rw [runSetup]
  split
  · refine ensures_ask fun r => ensures_done ?_
    cases r with
    | timedOut => exact records_cons rfl id (records_nil dm)
    | returned err =>
      cases err with
      | some e => exact records_cons rfl id (records_nil dm)
      | none => exact records_success rfl id
  · refine ensures_ask fun err => ensures_done ?_
    cases err with
    | some e => exact records_cons rfl id (records_nil dm)
    | none => exact records_success rfl id

theorem setupSingleDependency_records (i : Nat) (dep : Dependency) (dm : DependencyManager) :
    (setupSingleDependency ctx i dep dm).Ensures fun t r => Records dm r.2 t := by
  refine ensures_bind (getDependencyInstance_records dm dep.method) fun t r h => ?_
  obtain ⟨err, dm'⟩ := r
  cases err with
  | some e => exact ensures_done (records_append h (records_nil dm'))
  | none =>
    refine ensures_request_bind fun version => ?_
    cases version with
    | some e => exact ensures_done (records_append h (records_cons rfl id (records_nil dm')))
    | none =>
      refine ensures_bind (runSetup_records ctx i dep dm') fun t' result h' => ?_
      refine ensures_done (records_append h (records_cons rfl id ?_))
      rw [List.append_nil]
      exact h'

theorem setupDependencies_records (i : Nat) (deps : List Dependency) (dm : DependencyManager) :
    (setupDependencies ctx i deps dm).Ensures fun t r => Records dm r.2 t := by
  induction deps generalizing i dm with
  | nil => exact ensures_done (records_nil dm)
  | cons dep rest ih =>
    refine ensures_bind (setupSingleDependency_records ctx i dep dm) fun t r h => ?_
    obtain ⟨err, dm'⟩ := r
    refine ensures_bind (ih (i + 1) dm') fun t' r' h' => ?_
    refine ensures_done (records_append h ?_)
    rw [List.append_nil]
    exact h'

/-- A program that sets nothing up and makes no call of the cleanup. -/
def Apart (q : Request) : Prop :=
  ¬ CleanupCall q ∧ ∀ r, succeeded ⟨q, r⟩ = none

theorem ensures_apart {A : Type} {p : Program A} (h : p.Uses (fun _ _ => True) Apart)
    (dm : DependencyManager) : p.Ensures fun t _ => Records dm dm t := by
  intro t a he
  have apart := uses_exec h he fun _ _ => trivial
  clear h he
  induction t with
  | nil => exact records_nil dm
  | cons e t ih =>
    have here := apart e List.mem_cons_self
    exact records_cons (here.2 _) here.1 (ih fun e he => apart e (List.mem_cons_of_mem _ he))

theorem bodyRun_records {conf : Config} {r : List TestError × DependencyManager}
    (h : BodyRun ctx conf t r) : Records noDependencies r.2 t := by
  have started := ensures_apart (p := initChaosMonkey conf.chaosMonkey)
    (uses_initChaosMonkey fun _ _ => ⟨id, fun _ => rfl⟩) noDependencies
  have prepared := ensures_apart (p := prepareTestNamespaces conf.namespaceConfig)
    (uses_prepareTestNamespaces ⟨id, fun _ => rfl⟩ (fun _ _ => ⟨id, fun _ => rfl⟩)
      (fun _ _ _ => ⟨id, fun _ => rfl⟩)) noDependencies
  have set := setupDependencies_records ctx 0 conf.dependencies noDependencies
  have stepped (monkey : Bool) := ensures_apart (p := runSteps ctx conf monkey)
    (uses_runSteps (fun _ => ⟨id, fun _ => rfl⟩) ⟨id, fun _ => rfl⟩ (fun _ => ⟨id, fun _ => rfl⟩)
      ⟨id, fun _ => rfl⟩ (fun _ _ => ⟨id, fun _ => rfl⟩))
  cases h with
  | monkeyRefused init =>
    exact records_cons rfl id
      (records_append (started _ _ init) (records_cons rfl id (records_nil _)))
  | namespacesRefused init prepare =>
    exact records_cons rfl id (records_append (started _ _ init) (prepared _ _ prepare))
  | setupFailed init prepare setup =>
    exact records_cons rfl id (records_append (started _ _ init)
      (records_append (prepared _ _ prepare)
        (records_append (set _ _ setup) (records_cons rfl id (records_nil _)))))
  | completed init prepare setup steps =>
    exact records_cons rfl id (records_append (started _ _ init)
      (records_append (prepared _ _ prepare) (records_append (set _ _ setup)
        (stepped _ _ _ _ steps))))

end Body

section Cleanup

/-- No teardown was given up for want of the version of the cluster. -/
def VersionKnown (t : Trace) : Prop := ∀ e, (⟨.serverVersion .teardown, some e⟩ : Event Reply) ∉ t

/-- No attempt to delete the namespaces of the test has failed. -/
def NamespacesDeleted (t : Trace) : Prop :=
  ∀ timeout e es, (⟨.deleteAutomanagedNamespaces timeout, e :: es⟩ : Event Reply) ∉ t

theorem versionKnown_append {t t' : Trace} :
    VersionKnown (t ++ t') ↔ VersionKnown t ∧ VersionKnown t' := by
  simp only [VersionKnown, List.mem_append, not_or, forall_and]

theorem namespacesDeleted_append {t t' : Trace} :
    NamespacesDeleted (t ++ t') ↔ NamespacesDeleted t ∧ NamespacesDeleted t' := by
  simp only [NamespacesDeleted, List.mem_append, not_or, forall_and]

theorem versionKnown_of_noCleanup (h : NoCleanup t) : VersionKnown t :=
  fun _ he => h _ he trivial

theorem namespacesDeleted_of_noCleanup (h : NoCleanup t) : NamespacesDeleted t :=
  fun _ _ _ he => h _ he trivial

theorem teardownDependencyInstance_spec (i : Nat) (dep : Dependency) :
    (teardownDependencyInstance i dep).Ensures fun t _ =>
      setups t = [] ∧ NamespacesDeleted t ∧
        ((VersionKnown t ∧ teardowns t = [(i, dep)]) ∨ (¬ VersionKnown t ∧ teardowns t = [])) := by
  refine ensures_request_bind fun version => ?_
  cases version with
  | some e =>
    refine ensures_done ⟨rfl, by simp [NamespacesDeleted], .inr ⟨fun h => ?_, rfl⟩⟩
    exact h e List.mem_cons_self
  | none =>
    refine ensures_request_bind fun r => ?_
    cases r with
    | _ =>
      refine ensures_done ⟨rfl, by simp [NamespacesDeleted], .inl ⟨by simp [VersionKnown], rfl⟩⟩

theorem teardownAll_spec (recorded : List (Nat × Dependency)) :
    (teardownAll recorded).Ensures fun t _ =>
      setups t = [] ∧ NamespacesDeleted t ∧ (teardowns t).length ≤ recorded.length ∧
        (teardowns t = recorded ↔ VersionKnown t) := by
  induction recorded with
  | nil =>
    refine ensures_done ⟨rfl, by simp [NamespacesDeleted], Nat.le_refl 0, ?_⟩
    exact iff_of_true rfl (by simp [VersionKnown])
  | cons entry rest ih =>
    obtain ⟨i, dep⟩ := entry
    refine ensures_bind (teardownDependencyInstance_spec i dep) fun t₁ _ h₁ => ?_
    refine ensures_bind ih fun t₂ _ h₂ => ensures_done ?_
    obtain ⟨hset₁, hdel₁, htorn₁⟩ := h₁
    obtain ⟨hset₂, hdel₂, hlen₂, htorn₂⟩ := h₂
    rw [List.append_nil]
    refine ⟨by rw [setups_append, hset₁, hset₂]; rfl, namespacesDeleted_append.mpr ⟨hdel₁, hdel₂⟩,
      ?_⟩
    rw [teardowns_append, versionKnown_append, List.length_append, List.length_cons]
    rcases htorn₁ with ⟨known, htorn₁⟩ | ⟨unknown, htorn₁⟩
    · rw [htorn₁]
      refine ⟨by simp only [List.length_singleton]; omega, ?_⟩
      rw [List.singleton_append, List.cons_inj_right, htorn₂]
      exact (and_iff_right known).symm
    · rw [htorn₁]
      refine ⟨by simp only [List.length_nil]; omega, ?_⟩
      refine iff_of_false (fun h => ?_) fun h => unknown h.1
      -- one dependency fewer is torn down than was recorded
      have := congrArg List.length h
      simp only [List.nil_append, List.length_cons] at this
      omega

/-- Which of the recorded dependencies the calls of `t` tear down. -/
def TearsDown (recorded : List (Nat × Dependency)) (t : Trace) : Prop :=
  (teardowns t).length ≤ recorded.length ∧
    (teardowns t = recorded.reverse ↔ VersionKnown t ∧ (recorded = [] ∨ NamespacesDeleted t))

/-- The teardown after calls that are not about dependencies. -/
theorem teardown_after (dm : DependencyManager) (before : Trace) (hset : setups before = [])
    (htorn : teardowns before = []) (hknown : VersionKnown before)
    (hdeleted : NamespacesDeleted before) :
    (teardownDependencies dm >>= fun _ => pure ()).Ensures fun t (_ : Unit) =>
      setups (before ++ t) = [] ∧ TearsDown dm.setupDependencies (before ++ t) := by
  refine ensures_bind (teardownAll_spec dm.setupDependencies.reverse) fun t _ h => ?_
  refine ensures_done ?_
  obtain ⟨hset', hdeleted', hlength, hiff⟩ := h
  rw [List.append_nil, TearsDown, setups_append, teardowns_append, versionKnown_append,
    namespacesDeleted_append, hset, htorn]
  rw [List.length_reverse] at hlength
  refine ⟨hset', hlength, hiff.trans ?_⟩
  exact ⟨fun known => ⟨⟨hknown, known⟩, .inr ⟨hdeleted, hdeleted'⟩⟩, fun h => h.1.2⟩

theorem cleanup_spec (ns : NamespaceConfig) (dm : DependencyManager) :
    (cleanupTestResourcesAndDependencies ns dm).Ensures fun t _ =>
      setups t = [] ∧ TearsDown dm.setupDependencies t := by
  refine ensures_request_bind fun _ => ?_
  split
  · refine ensures_request_bind fun errs => ?_
    cases errs with
    | cons e es =>
      refine ensures_done ⟨rfl, Nat.zero_le _, ?_⟩
      have failed : ¬ NamespacesDeleted [⟨.dispose, ()⟩, ⟨.deleteAutomanagedNamespaces
          (ns.deleteNamespaceTimeout.getD 0), e :: es⟩] := by
        intro h
        exact h _ e es (List.mem_cons_of_mem _ List.mem_cons_self)
      have known : VersionKnown [⟨.dispose, ()⟩, ⟨.deleteAutomanagedNamespaces
          (ns.deleteNamespaceTimeout.getD 0), e :: es⟩] := by
        simp [VersionKnown]
      constructor
      · intro h
        exact ⟨known, .inl (List.reverse_eq_nil_iff.mp h.symm)⟩
      · rintro ⟨-, hnone | hdeleted⟩
        · rw [hnone]
          rfl
        · exact absurd hdeleted failed
    | nil =>
      exact teardown_after dm [_, _] rfl rfl (by simp [VersionKnown]) (by simp [NamespacesDeleted])
  · exact teardown_after dm [_] rfl rfl (by simp [VersionKnown]) (by simp [NamespacesDeleted])

/-- A run tears down what it has recorded, unless the cleanup gives up. -/
theorem executeTest_tearsDown (ctx : ExecutorContext) (conf : Config) :
    (executeTest ctx conf).Ensures fun t _ => TearsDown (setups t) t := by
  intro t errs he
  obtain ⟨t₁, t₂, dm, rfl, body, cleanup⟩ := executeTest_run ctx conf t errs he
  obtain ⟨hrecorded, hbody⟩ := bodyRun_records ctx body
  obtain ⟨hset₂, hlength, hiff⟩ := cleanup_spec conf.namespaceConfig dm _ _ cleanup
  set t := (⟨.setAutomanagedNamespacePrefix conf.namespaceConfig.namePrefix, ()⟩ : Event Reply) ::
    (t₁ ++ t₂)
  have hnone : NoCleanup (⟨.setAutomanagedNamespacePrefix conf.namespaceConfig.namePrefix, ()⟩ ::
      t₁) := noCleanup_cons id hbody
  have hsetups : setups t = dm.setupDependencies := by
    change setups (t₁ ++ t₂) = _
    rw [setups_append, hset₂, List.append_nil]
    exact hrecorded.symm
  have htorn : teardowns t = teardowns t₂ := by
    change teardowns ((_ :: t₁) ++ t₂) = _
    rw [teardowns_append, teardowns_of_noCleanup hnone, List.nil_append]
  have hknown : VersionKnown t ↔ VersionKnown t₂ := by
    change VersionKnown ((_ :: t₁) ++ t₂) ↔ _
    rw [versionKnown_append]
    exact and_iff_right (versionKnown_of_noCleanup hnone)
  have hdeleted : NamespacesDeleted t ↔ NamespacesDeleted t₂ := by
    change NamespacesDeleted ((_ :: t₁) ++ t₂) ↔ _
    rw [namespacesDeleted_append]
    exact and_iff_right (namespacesDeleted_of_noCleanup hnone)
  rw [TearsDown, hsetups, htorn, hknown, hdeleted]
  exact ⟨hlength, hiff⟩

end Cleanup

section Histories

/-- A call of the run, or the return of a Setup whose timeout has fired. -/
inductive HistoryEvent where
  | call (e : Event Reply)
  | late (i : Nat) (dep : Dependency) (err : Option String)

def HistoryEvent.call? : HistoryEvent → Option (Event Reply)
  | .call e => some e
  | .late _ _ _ => none

/-- The dependency that an event shows to be set up. -/
def HistoryEvent.completed? : HistoryEvent → Option (Nat × Dependency)
  | .call e => succeeded e
  | .late i dep none => some (i, dep)
  | .late _ _ (some _) => none

def timedOut? : Event Reply → Option (Nat × Dependency)
  | ⟨.setupWithTimeout i dep, .timedOut⟩ => some (i, dep)
  | _ => none

/-- Only a Setup that has timed out returns late, and it does so at most once.
The setups of `pending` are still running. -/
def LateReturns : List (Nat × Dependency) → List HistoryEvent → Prop
  | _, [] => True
  | pending, .call e :: rest => LateReturns ((timedOut? e).toList ++ pending) rest
  | pending, .late i dep _ :: rest =>
    (i, dep) ∈ pending ∧ LateReturns (pending.erase (i, dep)) rest

/-- A complete run of a test, cleanup included. -/
structure Run (ctx : ExecutorContext) (conf : Config) where
  history : List HistoryEvent
  errs : List TestError
  executes : Exec (executeTest ctx conf) (history.filterMap HistoryEvent.call?) errs
  lateReturns : LateReturns [] history

namespace Run
variable {ctx : ExecutorContext} {conf : Config} (run : Run ctx conf)

def calls : Trace := run.history.filterMap HistoryEvent.call?

/-- The dependencies whose Setup returned without an error, in the order in
which the setups returned. -/
def completed : List (Nat × Dependency) := run.history.filterMap HistoryEvent.completed?

def tornDown : List (Nat × Dependency) := teardowns run.calls

end Run

def LateSuccess (history : List HistoryEvent) : Prop := ∃ i dep, .late i dep none ∈ history

/-- Only a late success separates the setups that were recorded from those that
returned. -/
theorem lateSuccess_cons {event : HistoryEvent} {rest : List HistoryEvent}
    (other : ∀ i dep, event ≠ .late i dep none) :
    LateSuccess (event :: rest) ↔ LateSuccess rest := by
  simp only [LateSuccess, List.mem_cons]
  constructor
  · rintro ⟨i, dep, heq | hmem⟩
    · exact absurd heq.symm (other i dep)
    · exact ⟨i, dep, hmem⟩
  · rintro ⟨i, dep, hmem⟩
    exact ⟨i, dep, .inr hmem⟩

theorem completed_cases (history : List HistoryEvent) :
    (¬ LateSuccess history ∧
        history.filterMap HistoryEvent.completed? =
          setups (history.filterMap HistoryEvent.call?)) ∨
      (LateSuccess history ∧ (setups (history.filterMap HistoryEvent.call?)).length <
        (history.filterMap HistoryEvent.completed?).length) := by
  induction history with
  | nil => exact .inl ⟨fun ⟨_, _, h⟩ => absurd h List.not_mem_nil, rfl⟩
  | cons event rest ih =>
    cases event with
    | call e =>
      have hcalls : setups ((HistoryEvent.call e :: rest).filterMap HistoryEvent.call?) =
          (e :: rest.filterMap HistoryEvent.call?).filterMap succeeded := rfl
      have hevent : (HistoryEvent.call e).completed? = succeeded e := rfl
      rw [lateSuccess_cons (by simp), hcalls]
      cases hset : succeeded e with
      | none =>
        rw [List.filterMap_cons_none hset, List.filterMap_cons_none (hevent.trans hset)]
        exact ih
      | some p =>
        rw [List.filterMap_cons_some hset, List.filterMap_cons_some (hevent.trans hset)]
        rcases ih with ⟨hnone, heq⟩ | ⟨hlate, hlt⟩
        · exact .inl ⟨hnone, congrArg _ heq⟩
        · exact .inr ⟨hlate, Nat.succ_lt_succ hlt⟩
    | late i dep err =>
      have hcalls : setups ((HistoryEvent.late i dep err :: rest).filterMap HistoryEvent.call?) =
          setups (rest.filterMap HistoryEvent.call?) := rfl
      cases err with
      | some e =>
        rw [lateSuccess_cons (by simp)]
        exact ih
      | none =>
        refine .inr ⟨⟨i, dep, List.mem_cons_self⟩, Nat.lt_succ_of_le ?_⟩
        rcases ih with ⟨-, heq⟩ | ⟨-, hlt⟩
        · exact Nat.le_of_eq (congrArg List.length heq).symm
        · exact Nat.le_of_lt hlt

theorem Run.mem_calls {ctx : ExecutorContext} {conf : Config} (run : Run ctx conf)
    (e : Event Reply) : e ∈ run.calls ↔ .call e ∈ run.history := by
  rw [Run.calls, List.mem_filterMap]
  constructor
  · rintro ⟨event, hmem, hcall⟩
    cases event with
    | call e' =>
      cases hcall
      exact hmem
    | late i dep err => cases hcall
  · exact fun hmem => ⟨_, hmem, rfl⟩

/-- The dependencies whose Setup succeeded are torn down, each once and in
reverse order, if and only if no Setup succeeds after its timeout, the version
of the cluster is known at every teardown, and the namespaces are deleted
unless nothing was set up. -/
theorem completed_torn_down_iff {ctx : ExecutorContext} {conf : Config} (run : Run ctx conf) :
    run.tornDown = run.completed.reverse ↔
      (∀ i dep, .late i dep none ∉ run.history) ∧
      (∀ e, .call ⟨.serverVersion .teardown, some e⟩ ∉ run.history) ∧
      ((∃ timeout e es, .call ⟨.deleteAutomanagedNamespaces timeout, e :: es⟩ ∈ run.history) →
        ∀ e, .call e ∈ run.history → succeeded e = none) := by
  obtain ⟨hlength, hiff⟩ := executeTest_tearsDown ctx conf _ _ run.executes
  change teardowns run.calls = (setups run.calls).reverse ↔
    VersionKnown run.calls ∧ (setups run.calls = [] ∨ NamespacesDeleted run.calls) at hiff
  have hnone : setups run.calls = [] ↔ ∀ e, .call e ∈ run.history → succeeded e = none := by
    rw [setups, List.filterMap_eq_nil_iff]
    exact forall_congr' fun e => by rw [run.mem_calls]
  have hknown : VersionKnown run.calls ↔
      ∀ e, .call ⟨.serverVersion .teardown, some e⟩ ∉ run.history :=
    forall_congr' fun e => not_congr (run.mem_calls _)
  have hdeleted : NamespacesDeleted run.calls ↔ ¬ ∃ timeout e es,
      .call ⟨.deleteAutomanagedNamespaces timeout, e :: es⟩ ∈ run.history := by
    simp only [NamespacesDeleted, run.mem_calls, not_exists]
  rcases completed_cases run.history with ⟨hlate, heq⟩ | ⟨hlate, hlt⟩
  · have hcompleted : run.completed = setups run.calls := heq
    rw [Run.tornDown, hcompleted, hiff, hknown, hnone, hdeleted]
    constructor
    · rintro ⟨known, h⟩
      refine ⟨fun i dep hmem => hlate ⟨i, dep, hmem⟩, known, fun failed => ?_⟩
      rcases h with none | deleted
      · exact none
      · exact absurd failed deleted
    · rintro ⟨-, known, h⟩
      refine ⟨known, ?_⟩
      by_cases failed : ∃ timeout e es,
          .call ⟨.deleteAutomanagedNamespaces timeout, e :: es⟩ ∈ run.history
      · exact .inl (h failed)
      · exact .inr failed
  · refine iff_of_false (fun h => ?_) fun h => ?_
    · have := congrArg List.length h
      rw [List.length_reverse] at this
      exact absurd hlength (Nat.not_le_of_lt (this ▸ hlt))
    · obtain ⟨i, dep, hmem⟩ := hlate
      exact h.1 i dep hmem

end Histories

section Sample

def driver : Dependency := ⟨"install driver", "DRAInstall", 600000000000⟩

def sampleConfig : Config := { plainConfig with name := "dra", dependencies := [driver] }

def sampleContext : ExecutorContext := ⟨"", "", fun _ => "10m0s"⟩

/-- Setup succeeds right after its timeout has fired. -/
def lateRun : Run sampleContext sampleConfig where
  history := [.call ⟨.setAutomanagedNamespacePrefix "test", ()⟩, .call ⟨.initFactory [], ()⟩,
    .call ⟨.listAutomanagedNamespaces, .ok ([], [])⟩,
    .call ⟨.createAutomanagedNamespaces 1 false true, none⟩,
    .call ⟨.createDependency "DRAInstall", none⟩, .call ⟨.serverVersion .setup, none⟩,
    .call ⟨.setupWithTimeout 0 driver, .timedOut⟩, .late 0 driver none,
    .call ⟨.closeStopCh, ()⟩, .call ⟨.dispose, ()⟩,
    .call ⟨.deleteAutomanagedNamespaces 0, []⟩]
  errs := [plainError "dependency install driver setup timed out after 10m0s"]
  executes := run_exec (succeeds .timedOut []) (executeTest sampleContext sampleConfig) ()
  lateReturns := ⟨List.mem_cons_self, trivial⟩

theorem late_setup_is_not_torn_down :
    (0, driver) ∈ lateRun.completed ∧ lateRun.tornDown = [] ∧
      lateRun.tornDown ≠ lateRun.completed.reverse := by
  refine ⟨List.mem_cons_self, rfl, fun h => ?_⟩
  cases h

end Sample

end DependencyTeardown
