import ClusterLoader.PhasePlan

/-!
# What a rejected phase leaves behind

A phase that gives up before its tuning set runs has issued no object
operation, and its log line calls it skipped. The recorded counts are changed
all the same: desired counts are written before the checks, and the deferred
functions of the namespaces that passed set current counts no operation has
produced. The main theorem says exactly when nothing is changed.
-/

namespace RejectedPhases

open RequestPrograms RequestPrograms.Prog PhaseRequests PhaseExecution PhasePlan

/-- The desired and the current count recorded for an identifier. -/
def counts (s : NamespacesState) (n : String) (i : InstancesIdentifier) : Option (Nat × Nat) :=
  (s.get n i).map fun instances =>
    (instances.desiredReplicaCount, instances.currentReplicaCount)

/-- The phase gives up in `ns`, after the namespaces of `passed` have been
accepted and the objects of `handled` have been handled in `ns`. -/
inductive GivesUpAt (lookups : Lookups) (ctx : Context) (phase : Phase) (s : NamespacesState) :
    List String → String → List Object → Prop where
  | tuningSet {e : String} (ns : String)
      (refused : ctx.createTuningSet phase.tuningSet = .error e) :
      GivesUpAt lookups ctx phase s [] ns []
  | bundle {tuningSet : TuningSet} {nsList : List String} {stop : Stop lookups phase}
      (created : ctx.createTuningSet phase.tuningSet = .ok tuningSet)
      (namespaces : namespacesOf ctx phase = some nsList)
      (stopped : (planNamespaces lookups phase nsList s).stopped = some stop) :
      GivesUpAt lookups ctx phase s
        ((planNamespaces lookups phase nsList s).accepted.map Accepted.ns) stop.ns
        (stop.handled.map Entry.object)

variable {nsList : List String}

section Counts
variable {lookups : Lookups} {phase : Phase}
variable {s : NamespacesState}

theorem counts_committed (e : Entry lookups phase.replicasPerNamespace)
    {n : String} {i : InstancesIdentifier} (h : s.get n i = some e.committed) :
    counts s n i = some (phase.replicasPerNamespace, phase.replicasPerNamespace) := by
  rw [counts, h, Option.map_some, Entry.committed, e.desired]

variable {stop : Stop lookups phase}

section
variable (h : (planNamespaces lookups phase nsList s).stopped = some stop)
include h

/-- The counts after the phase gave up: those of the accepted namespaces agree
with the phase, those of the handled objects have its desired count. -/
theorem counts_given_up (n : String) (i : InstancesIdentifier) :
    let plan := planNamespaces lookups phase nsList s
    let after := counts (plan.commit (plan.record s)) n i
    (Touched plan.accepted n i ∧
      after = some (phase.replicasPerNamespace, phase.replicasPerNamespace)) ∨
    (¬ Touched plan.accepted n i ∧ n = stop.ns ∧ ∃ e ∈ stop.handled, e.id = i ∧
      after = some (phase.replicasPerNamespace, e.instances.currentReplicaCount)) ∨
    (¬ Touched plan.accepted n i ∧ (n = stop.ns → ∀ e ∈ stop.handled, e.id ≠ i) ∧
      after = counts s n i) := by
  intro plan after
  by_cases touched : Touched plan.accepted n i
  · obtain ⟨e, _, hget⟩ := get_commitAll_touched touched (plan.record s)
    exact .inl ⟨touched, counts_committed e hget⟩
  · have hcommit : (plan.commit (plan.record s)).get n i = (plan.record s).get n i :=
      get_commitAll_other touched _
    have hrecord : plan.record s = writeAll stop.ns Entry.instances stop.handled
        (plan.accepted.foldl (fun s a => a.record s) s) := by
      simp only [Plan.record, plan, h]
    have hafter : after = counts (writeAll stop.ns Entry.instances stop.handled
        (plan.accepted.foldl (fun s a => a.record s) s)) n i := by
      rw [← hrecord]
      simp only [after, counts, hcommit]
    refine .inr ?_
    by_cases handled : n = stop.ns ∧ ∃ e ∈ stop.handled, e.id = i
    · obtain ⟨rfl, hmem⟩ := handled
      obtain ⟨e, he, hid, hget⟩ := get_writeAll_mem stop.ns Entry.instances
        (plan.accepted.foldl (fun s a => a.record s) s) hmem
      refine .inl ⟨touched, rfl, e, he, hid, ?_⟩
      rw [hafter, counts, hget, Option.map_some, e.desired]
    · have hnot : ∀ e ∈ stop.handled, ¬ (n = stop.ns ∧ i = e.id) :=
        fun e he heq => handled ⟨heq.1, e, he, heq.2.symm⟩
      refine .inr ⟨touched, fun hn e he hid => handled ⟨hn, e, he, hid⟩, ?_⟩
      rw [hafter, counts, get_writeAll_other _ _ hnot, get_recordAll_other touched s, counts]

/-- A handled object keeps the current count it was recorded with. -/
theorem handled_current {e : Entry lookups phase.replicasPerNamespace} (he : e ∈ stop.handled)
    (untouched : ¬ Touched (planNamespaces lookups phase nsList s).accepted stop.ns e.id)
    {d c : Nat} (recorded : counts s stop.ns e.id = some (d, c)) :
    e.instances.currentReplicaCount = c := by
  rw [planNamespaces_stopped h] at he
  have hsame := get_recordAll_other untouched s
  apply planBundle_current he
  · intro instances hget
    rw [hsame] at hget
    rw [counts, hget, Option.map_some, Option.some.injEq, Prod.mk.injEq] at recorded
    exact recorded.2
  · intro hnone
    rw [hsame] at hnone
    rw [counts, hnone] at recorded
    cases recorded

end

end Counts

variable {ctx : Context} {prog : Program (Option (List String))}

variable {phase : Phase}

section
variable (hprog : executePhase ctx phase = some prog)
include hprog

theorem executePhase_refused {e : String}
    (refused : ctx.createTuningSet phase.tuningSet = .error e) :
    prog = .done (some ["tuning set creation error: " ++ e]) := by
  simp only [executePhase, refused, Option.map_eq_some_iff] at hprog
  obtain ⟨nsList, _, hdone⟩ := hprog
  exact hdone.symm

theorem executePhase_namespaces :
    ∃ nsList, namespacesOf ctx phase = some nsList := by
  obtain ⟨nsList, namespaces, _⟩ := Option.map_eq_some_iff.mp hprog
  exact ⟨nsList, namespaces⟩

theorem executePhase_created {tuningSet : TuningSet}
    (created : ctx.createTuningSet phase.tuningSet = .ok tuningSet)
    (namespaces : namespacesOf ctx phase = some nsList) :
    prog = executeNamespaces ctx phase tuningSet nsList [] := by
  simp only [executePhase, created, namespaces, Option.map_some, Option.some.injEq] at hprog
  exact hprog.symm

end

/-- A phase that gives up keeps every recorded count if and only if the bundle
was already recorded at the desired count, current and desired, in every
namespace that passed, and the objects handled in the namespace at which it
gives up were already recorded with the desired count. -/
theorem rejected_keeps_counts_iff {E : Type} (out : Outside E) {ctx : Context} {phase : Phase}
    {prog : Program (Option (List String))} (hprog : executePhase ctx phase = some prog)
    (w : World E) {passed : List String} {ns : String} {handled : List Object}
    (rejected : GivesUpAt out.lookups ctx phase w.state passed ns handled) :
    (∀ n i, counts (run (answer out) prog w).2.state n i = counts w.state n i) ↔
      (∀ n ∈ passed, ∀ object ∈ phase.objectBundle, ∀ id,
        identifierOf out.lookups object = .ok id →
          counts w.state n id = some (phase.replicasPerNamespace, phase.replicasPerNamespace)) ∧
      (∀ object ∈ handled, ∀ id, identifierOf out.lookups object = .ok id →
        ∃ current, counts w.state ns id = some (phase.replicasPerNamespace, current)) := by
  cases rejected with
  | tuningSet ns refused =>
    obtain rfl := executePhase_refused hprog refused
    simp
  | @bundle tuningSet nsList stop created namespaces stopped =>
    obtain rfl := executePhase_created hprog created namespaces
    have after := counts_given_up stopped
    have current := fun e he => handled_current stopped (e := e) he
    simp only [run_executeNamespaces, stopped]
    set plan := planNamespaces out.lookups phase nsList w.state
    constructor
    · intro same
      constructor
      · intro n hn object ho id hid
        have touched := touched_iff.mpr ⟨hn, object, ho, hid⟩
        rcases after n id with ⟨_, heq⟩ | ⟨hnot, _⟩ | ⟨hnot, _⟩
        · exact (same n id).symm.trans heq
        · exact absurd touched hnot
        · exact absurd touched hnot
      · intro object ho id hid
        obtain ⟨e, he, rfl⟩ := List.mem_map.mp ho
        have hname : e.id = id := Except.ok.inj (e.named.symm.trans hid)
        rcases after stop.ns id with ⟨_, heq⟩ | ⟨_, _, e', _, _, heq⟩ | ⟨_, hnone, _⟩
        · exact ⟨_, (same stop.ns id).symm.trans heq⟩
        · exact ⟨_, (same stop.ns id).symm.trans heq⟩
        · exact absurd hname (hnone rfl e he)
    · rintro ⟨hpassed, hhandled⟩ n i
      rcases after n i with ⟨touched, heq⟩ | ⟨untouched, rfl, e, he, rfl, heq⟩ | ⟨_, _, heq⟩
      · obtain ⟨hn, object, ho, hid⟩ := touched_iff.mp touched
        exact heq.trans (hpassed n hn object ho i hid).symm
      · obtain ⟨c, hc⟩ := hhandled e.object (List.mem_map_of_mem he) e.id e.named
        rw [hc, ← current e he untouched hc]
        exact heq
      · exact heq

section TwoNamespaces

def templates : Lookups where
  rawToObject path :=
    if path = "deployment.yaml" then .ok ⟨"apps", "v1", "Deployment"⟩
    else if path = "service.yaml" then .ok ⟨"", "v1", "Service"⟩
    else .error (.failed "reading error: file does not exist")
  labelSelectorAsSelector _ := .ok ⟨""⟩
  getNumObjectsMatchingSelector _ _ _ _ := .ok 0

def context : Context where
  templateMapping _ := none
  automanagedNamespacePrefix := "test"
  createTuningSet _ := .ok ⟨[]⟩

def web : Object := ⟨"web", "deployment.yaml", none, none⟩

def frontend : Object := ⟨"frontend", "service.yaml", none, none⟩

def webId : InstancesIdentifier := ⟨"web", "Deployment", "apps"⟩

def frontendId : InstancesIdentifier := ⟨"frontend", "Service", ""⟩

/-- In the second namespace the two objects disagree. -/
def unevenState : NamespacesState :=
  (NamespacesState.empty.set "ns-2" webId ⟨1, 1, web⟩).set "ns-2" frontendId ⟨2, 2, frontend⟩

def threeReplicas : Phase := ⟨none, some ["ns-1", "ns-2"], 3, "uniform", [web, frontend]⟩

theorem threeReplicas_rejected :
    GivesUpAt templates context threeReplicas unevenState ["ns-1"] "ns-2" [web, frontend] :=
  @GivesUpAt.bundle templates context threeReplicas unevenState ⟨[]⟩ ["ns-1", "ns-2"] _
    rfl rfl rfl

/-- The phase is rejected because of the second namespace, and three replicas
that were never created are recorded in the first. -/
theorem rejected_phase_records_replicas :
    GivesUpAt templates context threeReplicas unevenState ["ns-1"] "ns-2" [web, frontend] ∧
      ∃ prog, executePhase context threeReplicas = some prog ∧
        counts unevenState "ns-1" webId = none ∧
        counts (run (answer ⟨templates, noOperations⟩) prog ⟨unevenState, ()⟩).2.state
          "ns-1" webId = some (3, 3) :=
  ⟨threeReplicas_rejected, _, rfl, rfl, rfl⟩

theorem rejected_keeps_counts_iff_uneven :
    ∃ prog, executePhase context threeReplicas = some prog ∧
      ((∀ n i, counts (run (answer ⟨templates, noOperations⟩) prog ⟨unevenState, ()⟩).2.state
          n i = counts unevenState n i) ↔
        (∀ n ∈ ["ns-1"], ∀ object ∈ [web, frontend], ∀ id,
          identifierOf templates object = .ok id → counts unevenState n id = some (3, 3)) ∧
        (∀ object ∈ [web, frontend], ∀ id, identifierOf templates object = .ok id →
          ∃ current, counts unevenState "ns-2" id = some (3, current))) :=
  ⟨_, rfl, rejected_keeps_counts_iff ⟨templates, noOperations⟩ rfl ⟨unevenState, ()⟩
    threeReplicas_rejected⟩

end TwoNamespaces

end RejectedPhases
