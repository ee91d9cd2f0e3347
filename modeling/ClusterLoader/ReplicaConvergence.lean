import ClusterLoader.ClusterObjects
import ClusterLoader.PhaseErrors

/-!
# Replicas converge to what the phases ask for

The executor keeps its own table of counts and never looks at the cluster. The
table stays in step with the cluster as long as every phase succeeds: for each
identifier the recorded counts are those of the last phase that touched it, and
its replicas in the cluster are exactly the first so many. The order in which
the actions of a phase make their calls does not matter.

The identifier of an object is read off its template with the placeholders
removed, and so is the kind that a deletion addresses, while a creation
addresses the kind of the rendered template. The result therefore asks that
rendering keeps the kind and group.
-/

namespace ReplicaConvergence

open RequestPrograms RequestPrograms.Prog PhaseRequests PhaseExecution PhasePlan
open RejectedPhases PhaseErrors ClusterObjects

/-- The phase works on the identifier in the namespace. -/
def Touches (lookups : Lookups) (step : Context × Phase) (n : String)
    (i : InstancesIdentifier) : Prop :=
  n ∈ (namespacesOf step.1 step.2).getD [] ∧
    ∃ object ∈ step.2.objectBundle, identifierOf lookups object = .ok i

instance (lookups : Lookups) (step : Context × Phase) (n : String) (i : InstancesIdentifier) :
    Decidable (Touches lookups step n i) :=
  inferInstanceAs (Decidable (_ ∧ _))

/-- The replica count of the last phase that touched an identifier. -/
def declared (lookups : Lookups) (steps : List (Context × Phase)) :
    String → InstancesIdentifier → Option Nat :=
  steps.foldl (fun before step n i =>
    if Touches lookups step n i then some step.2.replicasPerNamespace else before n i)
    fun _ _ => none

theorem declared_append (lookups : Lookups) (steps : List (Context × Phase))
    (step : Context × Phase) (n : String) (i : InstancesIdentifier) :
    declared lookups (steps ++ [step]) n i =
      if Touches lookups step n i then some step.2.replicasPerNamespace
      else declared lookups steps n i := by
  simp only [declared, List.foldl_append, List.foldl_cons, List.foldl_nil]

/-- Phases executed one after another, each returning an empty error list. -/
inductive Succeeds {E : Type} (out : Outside E) (w : World E) :
    List (Context × Phase) → World E → Prop where
  | start : Succeeds out w [] w
  | phase {steps : List (Context × Phase)} {before after : World E} {ctx : Context}
      {phase : Phase} {prog : Program (Option (List String))} {result : Option (List String)}
      (earlier : Succeeds out w steps before) (returns : executePhase ctx phase = some prog)
      (runs : run (answer out) prog before = (result, after)) (empty : result.getD [] = []) :
      Succeeds out w (steps ++ [(ctx, phase)]) after

/-- The templates of the bundle are not empty, and no object is to be listed. -/
structure Ordinary {E : Type} (out : Outside E) (step : Context × Phase) : Prop where
  rendered : ∀ object ∈ step.2.objectBundle, ∀ ns i,
    out.operations.templateToObject object.objectTemplatePath
      (objectMapping step.1 object ns i) ≠ .error .emptyFile
  unlisted : ∀ object ∈ step.2.objectBundle, object.listUnknownObjectOptions = none

/-- Rendering a template keeps the kind and group of its raw form. -/
def KeepsKind {E : Type} (out : Outside E) (step : Context × Phase) : Prop :=
  ∀ object ∈ step.2.objectBundle, ∀ ns i obj gvk,
    out.operations.templateToObject object.objectTemplatePath
      (objectMapping step.1 object ns i) = .ok obj →
    out.lookups.rawToObject object.objectTemplatePath = .ok gvk →
      obj.gvk.kind = gvk.kind ∧ obj.gvk.group = gvk.group

/-- Counts and cluster agree with what the phases declared; `start` is the
cluster before the first of them. -/
structure Reconciled {E V : Type} (lookups : Lookups) (view : E → Address → Option V) (start : E)
    (steps : List (Context × Phase)) (w : World E) : Prop where
  counts : ∀ n i replicas, declared lookups steps n i = some replicas →
    ∃ instances, w.state.get n i = some instances ∧
      instances.desiredReplicaCount = replicas ∧ instances.currentReplicaCount = replicas
  replicas : ∀ n i replicas, declared lookups steps n i = some replicas →
    ∀ k, (view w.outside (replicaAddress n i k)).isSome ↔ k < replicas
  others : ∀ a, (∀ n i replicas k, declared lookups steps n i = some replicas →
    a ≠ replicaAddress n i k) → view w.outside a = view start a

/-- The current count recorded for an identifier, zero if there is none. -/
def currentCount (s : NamespacesState) (n : String) (i : InstancesIdentifier) : Nat :=
  ((s.get n i).map InstancesState.currentReplicaCount).getD 0

section Counts
variable {lookups : Lookups} {phase : Phase}

theorem newReplicaCount_unlisted {object : Object}
    (h : object.listUnknownObjectOptions = none) (ns : String) :
    newReplicaCount lookups ns object = .ok 0 := by
  rw [newReplicaCount, h]

variable {s : NamespacesState}

theorem planBundle_currentCount {ns : String} {bundle : List Object}
    {replicas : Nat} (unlisted : ∀ object ∈ bundle, object.listUnknownObjectOptions = none)
    {e : Entry lookups replicas} (he : e ∈ (planBundle lookups replicas ns bundle s).1) :
    e.instances.currentReplicaCount = currentCount s ns e.id := by
  apply planBundle_current he
  · intro instances hget
    simp [currentCount, hget]
  · intro hnone object ho n hn
    rw [newReplicaCount_unlisted (unlisted object ho)] at hn
    simp [currentCount, hnone, ← Except.ok.inj hn]

/-- Setting desired counts leaves all current counts as they are. -/
theorem currentCount_record (a : Accepted lookups phase)
    (hcurrent : ∀ e ∈ a.entries, e.instances.currentReplicaCount = currentCount s a.ns e.id)
    (n : String) (i : InstancesIdentifier) :
    currentCount (a.record s) n i = currentCount s n i := by
  by_cases hin : n = a.ns ∧ ∃ e ∈ a.entries, e.id = i
  · obtain ⟨rfl, hmem⟩ := hin
    obtain ⟨e, he, rfl, hget⟩ := get_writeAll_mem a.ns Entry.instances s hmem
    rw [← hcurrent e he, currentCount, Accepted.record, hget]
    rfl
  · have hget : (a.record s).get n i = s.get n i := get_writeAll_other _ s
      (fun e he h => hin ⟨h.1, e, he, h.2.symm⟩)
    rw [currentCount, hget, currentCount]

theorem accepted_current {nsList : List String}
    (unlisted : ∀ object ∈ phase.objectBundle, object.listUnknownObjectOptions = none)
    {a : Accepted lookups phase} (ha : a ∈ (planNamespaces lookups phase nsList s).accepted)
    {e : Entry lookups phase.replicasPerNamespace} (he : e ∈ a.entries) :
    a.current = currentCount s a.ns e.id := by
  induction nsList generalizing s with
  | nil => cases ha
  | cons ns rest ih =>
    cases hcheck : checkNamespace lookups phase ns s with
    | inl stop => simp [planNamespaces, hcheck] at ha
    | inr first =>
      obtain ⟨rfl, hplan⟩ := checkNamespace_accept hcheck
      have hfirst : ∀ e ∈ first.entries,
          e.instances.currentReplicaCount = currentCount s first.ns e.id := by
        intro e he
        have hmem : e ∈ (planBundle lookups phase.replicasPerNamespace first.ns
            phase.objectBundle s).1 := by rw [hplan]; exact he
        exact planBundle_currentCount unlisted hmem
      simp only [planNamespaces, hcheck, List.mem_cons] at ha
      rcases ha with rfl | ha
      · rw [← a.agree e he]
        exact hfirst e he
      · rw [ih ha]
        exact currentCount_record first hfirst a.ns e.id

/-- A phase that does not give up accepts every namespace of its list. -/
theorem accepted_namespaces {nsList : List String}
    (h : (planNamespaces lookups phase nsList s).stopped = none) :
    (planNamespaces lookups phase nsList s).accepted.map Accepted.ns = nsList := by
  induction nsList generalizing s with
  | nil => rfl
  | cons ns rest ih =>
    cases hcheck : checkNamespace lookups phase ns s with
    | inl stop => simp [planNamespaces, hcheck] at h
    | inr a =>
      simp only [planNamespaces, hcheck] at h ⊢
      rw [List.map_cons, ih h, (checkNamespace_accept hcheck).1]

end Counts

/-- Every reply of `t` is one that the outside can give. -/
def Answered {E : Type} (out : Outside E) (q : Request) (r : Reply q) : Prop :=
  ∃ w, r = (answer out q w).1

section Events
variable {E : Type} {out : Outside E} {step : Context × Phase}
variable {object : Object} {ns : String} {k : Nat} {t : List (Event Reply)}

theorem withTemplate_reaches (ordinary : Ordinary out step) (ho : object ∈ step.2.objectBundle)
    {send : Unstructured → Program (List String)}
    (he : Exec (withTemplate step.1 object ns k send) t [])
    (answered : ∀ e ∈ t, Answered out e.1 e.2) :
    ∃ obj, ∃ t' : List (Event Reply), (∀ e ∈ t', e ∈ t) ∧
      out.operations.templateToObject object.objectTemplatePath
        (objectMapping step.1 object ns k) = .ok obj ∧ Exec (send obj) t' [] := by
  obtain ⟨r, t', rfl, tail⟩ := exec_ask he
  obtain ⟨w, hr⟩ := answered _ List.mem_cons_self
  rcases r with (_ | message) | obj
  · exact absurd hr.symm (ordinary.rendered object ho ns k)
  · cases (exec_done tail).2
  · exact ⟨obj, t', fun e he => List.mem_cons_of_mem _ he, hr.symm, tail⟩

variable {operation : OperationType}

/-- Without errors, an operation on a replica reaches the address of the replica. -/
theorem executeObject_reaches (ordinary : Ordinary out step) (keeps : KeepsKind out step)
    (ho : object ∈ step.2.objectBundle) {id : InstancesIdentifier}
    (named : identifierOf out.lookups object = .ok id)
    (he : Exec (executeObject step.1 object ns k operation) t [])
    (answered : ∀ e ∈ t, Answered out e.1 e.2) :
    ∃ e ∈ t, target e.1 = some (operation, replicaAddress ns id k) := by
  obtain ⟨gvk, hraw, rfl⟩ := named_gvk named
  cases operation with
  | createObject | patchObject =>
    obtain ⟨obj, t', hsub, hobj, tail⟩ := withTemplate_reaches ordinary ho he answered
    obtain ⟨hkind, hgroup⟩ := keeps object ho ns k obj gvk hobj hraw
    obtain ⟨r, t'', rfl, _⟩ := exec_ask tail
    refine ⟨_, hsub _ List.mem_cons_self, ?_⟩
    simp only [target, objectAddress, replicaAddress, hkind, hgroup]
  | deleteObject =>
    obtain ⟨r, t', rfl, tail⟩ := exec_ask he
    obtain ⟨w, hr⟩ := answered _ List.mem_cons_self
    obtain rfl : r = .ok gvk := hr.trans hraw
    obtain ⟨r', t'', rfl, _⟩ := exec_ask tail
    exact ⟨_, List.mem_cons_of_mem _ List.mem_cons_self, rfl⟩

theorem applyAll_reaches {ctx : Context} {bundle : List Object}
    (he : Exec (applyAll ctx operation ns k bundle) t []) (ho : object ∈ bundle) :
    ∃ t' : List (Event Reply), (∀ e ∈ t', e ∈ t) ∧
      Exec (executeObject ctx object ns k operation) t' [] := by
  induction bundle generalizing t with
  | nil => cases ho
  | cons first rest ih =>
    obtain ⟨t₁, errs, t₂, rfl, h₁, h₂⟩ := exec_bind he
    cases errs with
    | cons e others => cases (exec_done h₂).2
    | nil =>
      rcases List.mem_cons.mp ho with rfl | ho
      · exact ⟨t₁, fun e he => List.mem_append_left _ he, h₁⟩
      · obtain ⟨t', hsub, hexec⟩ := ih h₂ ho
        exact ⟨t', fun e he => List.mem_append_right _ (hsub e he), hexec⟩

theorem deleteAll_reaches {ctx : Context} {pairs : List (Object × InstancesState)}
    (he : Exec (deleteAll ctx ns k pairs) t []) {pair : Object × InstancesState}
    (hp : pair ∈ pairs) (hk : k < pair.2.currentReplicaCount) :
    ∃ t' : List (Event Reply), (∀ e ∈ t', e ∈ t) ∧
      Exec (executeObject ctx pair.1 ns k .deleteObject) t' [] := by
  induction pairs generalizing t with
  | nil => cases hp
  | cons first rest ih =>
    obtain ⟨t₁, errs, t₂, rfl, h₁, h₂⟩ := exec_bind he
    obtain ⟨t₃, others, t₄, rfl, h₃, h₄⟩ := exec_bind h₂
    obtain ⟨rfl, hnil⟩ := exec_done h₄
    obtain ⟨rfl, rfl⟩ := List.append_eq_nil_iff.mp hnil.symm
    rw [List.append_nil]
    rcases List.mem_cons.mp hp with rfl | hp
    · rw [deleteReplica, if_pos hk] at h₁
      exact ⟨t₁, fun e he => List.mem_append_left _ he, h₁⟩
    · obtain ⟨t', hsub, hexec⟩ := ih h₃ hp
      exact ⟨t', fun e he => List.mem_append_right _ (hsub e he), hexec⟩

section Trace
variable {ctx : Context} {phase : Phase} {tuningSet : TuningSet} {nsList : List String}
variable {w : World E}

/-- If the call is an operation, it is on a replica of an accepted entry, in
the range that the operation has there. -/
def OnReplica {lookups : Lookups} (accepted : List (Accepted lookups phase)) (q : Request) :
    Prop :=
  ∀ operation address, target q = some (operation, address) →
    ∃ a ∈ accepted, ∃ entry ∈ a.entries, ∃ k,
      InRange phase.replicasPerNamespace a.current k operation ∧
        address = replicaAddress a.ns entry.id k

variable {a : Accepted out.lookups phase}

theorem onReplica_operation {accepted : List (Accepted out.lookups phase)}
    (keeps : KeepsKind out (ctx, phase)) (ha : a ∈ accepted) {object : Object}
    (ho : object ∈ phase.objectBundle) {k : Nat}
    (hrange : InRange phase.replicasPerNamespace a.current k operation) :
    AllowsOperation (Answered out) (OnReplica accepted) ctx a.ns object k operation := by
  have hobject := ho
  rw [← a.covers] at ho
  obtain ⟨entry, hentry, rfl⟩ := List.mem_map.mp ho
  obtain ⟨gvk, hraw, hid⟩ := named_gvk entry.named
  have hon : ∀ q, target q = some (operation, replicaAddress a.ns entry.id k) →
      OnReplica accepted q := by
    intro q hq operation' address ht
    obtain ⟨rfl, rfl⟩ := Prod.mk.inj (Option.some.inj (hq.symm.trans ht))
    exact ⟨a, ha, entry, hentry, k, hrange, rfl⟩
  have hnone : ∀ q, target q = none → OnReplica accepted q :=
    fun q hq operation' address ht => by cases hq.symm.trans ht
  cases operation with
  | createObject | patchObject =>
    refine ⟨hnone _ rfl, fun obj answered => hon _ ?_⟩
    obtain ⟨w, hobj⟩ := answered
    obtain ⟨hkind, hgroup⟩ := keeps entry.object hobject a.ns k obj gvk hobj.symm hraw
    simp only [target, objectAddress, replicaAddress, hid, hkind, hgroup]
  | deleteObject =>
    refine ⟨hnone _ rfl, fun gvk' answered => hon _ ?_⟩
    obtain ⟨w, hgvk⟩ := answered
    obtain rfl : gvk' = gvk := Except.ok.inj (hgvk.trans hraw)
    simp only [target, objectAddress, replicaAddress, hid]

theorem actionTrace_onReplica (keeps : KeepsKind out (ctx, phase)) {e : Event Reply}
    (he : e ∈ actionTrace out ctx phase tuningSet nsList w) :
    OnReplica (planNamespaces out.lookups phase nsList w.state).accepted e.1 := by
  have huses : (interleave tuningSet.schedule
      ((planNamespaces out.lookups phase nsList w.state).actions ctx)).Uses (Answered out)
        (OnReplica (planNamespaces out.lookups phase nsList w.state).accepted) := by
    refine uses_interleave _ fun p hp => ?_
    obtain ⟨a, ha, hp⟩ := List.mem_flatMap.mp hp
    exact uses_namespaceActions
      (fun object ho k operation hrange => onReplica_operation keeps ha ho hrange) hp
  exact uses_trace (fun q w => ⟨w, rfl⟩) huses _ he

/-- When no call fails, every operation that is due has been made. -/
theorem actionTrace_reaches (ordinary : Ordinary out (ctx, phase))
    (keeps : KeepsKind out (ctx, phase))
    (success : ∀ e ∈ actionTrace out ctx phase tuningSet nsList w, ¬ Failed e)
    (ha : a ∈ (planNamespaces out.lookups phase nsList w.state).accepted)
    {entry : Entry out.lookups phase.replicasPerNamespace} (hentry : entry ∈ a.entries) {k : Nat}
    (hrange : InRange phase.replicasPerNamespace a.current k operation) :
    ∃ e ∈ actionTrace out ctx phase tuningSet nsList w,
      target e.1 = some (operation, replicaAddress a.ns entry.id k) := by
  have hobject : entry.object ∈ phase.objectBundle := by
    rw [← a.covers]
    exact List.mem_map_of_mem hentry
  have hpool := run_exec (answer out) (interleave tuningSet.schedule
    ((planNamespaces out.lookups phase nsList w.state).actions ctx))
    { w with state := (planNamespaces out.lookups phase nsList w.state).record w.state }
  have hnil := (errors_interleave (fun p hp => (plan_actions _ hp).1)
    (trace_consistent out _ _) hpool).mpr success
  have answered : ∀ e ∈ actionTrace out ctx phase tuningSet nsList w, Answered out e.1 e.2 :=
    fun e he => trace_reply _ _ _ he
  -- every action runs to its end without errors
  have hdone : ∀ p ∈ a.actions ctx, ∃ t : List (Event Reply),
      (∀ e ∈ t, e ∈ actionTrace out ctx phase tuningSet nsList w) ∧ Exec p t [] := by
    intro p hp
    obtain ⟨runs, hexec, hprogs, hresults, hmem⟩ := execs_parts (exec_interleave hpool)
    have hmember : p ∈ (planNamespaces out.lookups phase nsList w.state).actions ctx :=
      List.mem_flatMap.mpr ⟨a, ha, hp⟩
    rw [hprogs] at hmember
    obtain ⟨r, hr, rfl⟩ := List.mem_map.mp hmember
    have hdone := hexec r hr
    rw [List.flatten_eq_nil_iff.mp hnil r.2.2 (hresults ▸ List.mem_map_of_mem hr)] at hdone
    exact ⟨r.2.1, fun e he => (hmem e).mpr ⟨r, hr, he⟩, hdone⟩
  have hreach : ∀ t' : List (Event Reply),
      (∀ e ∈ t', e ∈ actionTrace out ctx phase tuningSet nsList w) →
      Exec (executeObject ctx entry.object a.ns k operation) t' [] →
      ∃ e ∈ actionTrace out ctx phase tuningSet nsList w,
        target e.1 = some (operation, replicaAddress a.ns entry.id k) := by
    intro t' hsub hexec
    obtain ⟨e, he, ht⟩ := executeObject_reaches ordinary keeps hobject entry.named hexec
      (fun e he => answered e (hsub e he))
    exact ⟨e, hsub e he, ht⟩
  cases operation with
  | createObject =>
    obtain ⟨t, hsub, hexec⟩ := hdone (applyAll ctx .createObject a.ns k phase.objectBundle)
      (mem_namespaceActions.mpr (.inr (.inr ⟨k, hrange.1, hrange.2, rfl⟩)))
    obtain ⟨t', hsub', hexec'⟩ := applyAll_reaches hexec hobject
    exact hreach t' (fun e he => hsub e (hsub' e he)) hexec'
  | patchObject =>
    obtain ⟨t, hsub, hexec⟩ := hdone (applyAll ctx .patchObject a.ns k phase.objectBundle)
      (mem_namespaceActions.mpr (.inr (.inl ⟨k, hrange.1, hrange.2, rfl⟩)))
    obtain ⟨t', hsub', hexec'⟩ := applyAll_reaches hexec hobject
    exact hreach t' (fun e he => hsub e (hsub' e he)) hexec'
  | deleteObject =>
    obtain ⟨t, hsub, hexec⟩ := hdone _
      (mem_namespaceActions.mpr (.inl ⟨k, hrange.1, hrange.2, rfl⟩))
    have hpair : (entry.object, entry.instances) ∈
        (phase.objectBundle.zip (a.entries.map Entry.instances)).reverse := by
      rw [a.zip_states, List.mem_reverse]
      exact List.mem_map_of_mem hentry
    have hk : k < entry.instances.currentReplicaCount := by
      rw [a.agree entry hentry]
      exact hrange.2
    obtain ⟨t', hsub', hexec'⟩ := deleteAll_reaches hexec hpair hk
    exact hreach t' (fun e he => hsub e (hsub' e he)) hexec'

end Trace

end Events

variable {i : InstancesIdentifier}

section OnePhase
variable {E V : Type} {out : Outside E} {view : E → Address → Option V}
variable {ctx : Context} {phase : Phase} {tuningSet : TuningSet} {nsList : List String}
variable {w : World E}

/-- The world when the actions of the phase are done. -/
def afterActions (out : Outside E) (ctx : Context) (phase : Phase) (tuningSet : TuningSet)
    (nsList : List String) (w : World E) : World E :=
  replay (answer out) (actionTrace out ctx phase tuningSet nsList w)
    { w with state := (planNamespaces out.lookups phase nsList w.state).record w.state }

theorem afterActions_replays : Replays (answer out) (actionTrace out ctx phase tuningSet nsList w)
    { w with state := (planNamespaces out.lookups phase nsList w.state).record w.state } :=
  trace_replays _ _ _

/-- The actions do not touch the table of counts. -/
theorem afterActions_state (ctx : Context) (tuningSet : TuningSet) :
    (afterActions out ctx phase tuningSet nsList w).state =
    (planNamespaces out.lookups phase nsList w.state).record w.state := by
  refine replay_keeps World.state afterActions_replays (fun q w' he => ?_)
  have hcall := actionTrace_call he
  cases q with
  | setInstances ns id instances => exact hcall.elim
  | _ => rfl

theorem others_after (serves : Serves out view) (keeps : KeepsKind out (ctx, phase))
    (success : ∀ e ∈ actionTrace out ctx phase tuningSet nsList w, ¬ Failed e) {a : Address}
    (other : ∀ n i k, Touched (planNamespaces out.lookups phase nsList w.state).accepted n i →
      a ≠ replicaAddress n i k) :
    view (afterActions out ctx phase tuningSet nsList w).outside a = view w.outside a := by
  refine replay_unaddressed serves afterActions_replays success (fun e he operation ht => ?_)
  obtain ⟨acc, hacc, entry, hentry, k, _, haddress⟩ := actionTrace_onReplica keeps he _ _ ht
  exact other acc.ns entry.id k ⟨acc, hacc, rfl, entry, hentry, rfl⟩ haddress

/-- The replicas of a touched identifier after the actions, if its current
count was right before. -/
theorem replicas_after (serves : Serves out view) (ordinary : Ordinary out (ctx, phase))
    (keeps : KeepsKind out (ctx, phase))
    (success : ∀ e ∈ actionTrace out ctx phase tuningSet nsList w, ¬ Failed e) {n : String}
    (touched : Touched (planNamespaces out.lookups phase nsList w.state).accepted n i) {k : Nat}
    (before : (view w.outside (replicaAddress n i k)).isSome ↔ k < currentCount w.state n i) :
    (view (afterActions out ctx phase tuningSet nsList w).outside
      (replicaAddress n i k)).isSome ↔ k < phase.replicasPerNamespace := by
  obtain ⟨a, ha, rfl, entry, hentry, rfl⟩ := touched
  have hcurrent := accepted_current ordinary.unlisted ha hentry
  -- an operation on this replica is in the range of the operation
  have hrange : ∀ e ∈ actionTrace out ctx phase tuningSet nsList w, ∀ operation,
      target e.1 = some (operation, replicaAddress a.ns entry.id k) →
        InRange phase.replicasPerNamespace a.current k operation := by
    intro e he operation ht
    obtain ⟨a', ha', entry', hentry', k', hr, haddress⟩ := actionTrace_onReplica keeps he _ _ ht
    obtain ⟨hns, hid, rfl⟩ := replicaAddress_inj haddress
    have hcurrent' := accepted_current ordinary.unlisted ha' hentry'
    rw [← hns, ← hid, ← hcurrent] at hcurrent'
    exact hcurrent' ▸ hr
  have hreach : ∀ operation, InRange phase.replicasPerNamespace a.current k operation →
      ∃ e ∈ actionTrace out ctx phase tuningSet nsList w,
        target e.1 = some (operation, replicaAddress a.ns entry.id k) :=
    fun operation hr => actionTrace_reaches ordinary keeps success ha hentry hr
  rw [← hcurrent] at before
  have never : ∀ operation, ¬ InRange phase.replicasPerNamespace a.current k operation →
      ∀ e ∈ actionTrace out ctx phase tuningSet nsList w,
        target e.1 ≠ some (operation, replicaAddress a.ns entry.id k) :=
    fun _ outside e he ht => outside (hrange e he _ ht)
  by_cases grows : a.current ≤ phase.replicasPerNamespace
  · have present := replay_settled serves afterActions_replays success true
      (never .deleteObject fun hr => absurd hr.2 (by have := hr.1; omega))
    rw [afterActions, present, before]
    constructor
    · rintro (hk | ⟨e, he, ht⟩)
      · omega
      · exact (hrange e he _ ht).2
    · intro hk
      by_cases hold : k < a.current
      · exact .inl hold
      · exact .inr (hreach .createObject ⟨by omega, hk⟩)
  · have absent := replay_settled serves afterActions_replays success false
      (never .createObject fun hr => absurd hr.2 (by have := hr.1; omega))
    rw [afterActions, ← not_iff_not, Bool.not_eq_true, absent, ← Bool.not_eq_true, before]
    constructor
    · rintro (hk | ⟨e, he, ht⟩)
      · omega
      · exact Nat.not_lt.mpr (hrange e he _ ht).1
    · intro hk
      by_cases hold : k < a.current
      · exact .inr (hreach .deleteObject ⟨by omega, hold⟩)
      · exact .inl hold

/-- What a phase does that returns no errors. -/
structure PhaseEffect (out : Outside E) (view : E → Address → Option V) (step : Context × Phase)
    (w w' : World E) : Prop where
  counts : ∀ n i, Touches out.lookups step n i → ∃ instances, w'.state.get n i = some instances ∧
    instances.desiredReplicaCount = step.2.replicasPerNamespace ∧
    instances.currentReplicaCount = step.2.replicasPerNamespace
  otherCounts : ∀ n i, ¬ Touches out.lookups step n i → w'.state.get n i = w.state.get n i
  replicas : ∀ n i k, Touches out.lookups step n i →
    ((view w.outside (replicaAddress n i k)).isSome ↔ k < currentCount w.state n i) →
      ((view w'.outside (replicaAddress n i k)).isSome ↔ k < step.2.replicasPerNamespace)
  others : ∀ a, (∀ n i k, Touches out.lookups step n i → a ≠ replicaAddress n i k) →
    view w'.outside a = view w.outside a

theorem touched_iff_touches {s : NamespacesState}
    (namespaces : namespacesOf ctx phase = some nsList)
    (h : (planNamespaces out.lookups phase nsList s).stopped = none) {n : String} :
    Touched (planNamespaces out.lookups phase nsList s).accepted n i ↔
      Touches out.lookups (ctx, phase) n i := by
  rw [touched_iff, accepted_namespaces h, Touches, namespaces, Option.getD_some]

/-- A phase with an empty bundle changes nothing. -/
theorem empty_bundle_keeps {stop : Stop out.lookups phase} (hempty : phase.objectBundle = [])
    (h : (planNamespaces out.lookups phase nsList w.state).stopped = some stop) :
    (planNamespaces out.lookups phase nsList w.state).commit
      ((planNamespaces out.lookups phase nsList w.state).record w.state) = w.state := by
  have untouched : ∀ n i,
      ¬ Touched (planNamespaces out.lookups phase nsList w.state).accepted n i := by
    intro n i touched
    obtain ⟨_, object, ho, _⟩ := touched_iff.mp touched
    rw [hempty] at ho
    cases ho
  have hhandled : stop.handled = [] := by
    rw [planNamespaces_stopped h, hempty]
    rfl
  refine NamespacesState.ext fun n i => ?_
  rw [Plan.commit, get_commitAll_other (untouched n i)]
  simp only [Plan.record, h, hhandled]
  exact get_recordAll_other (untouched n i) w.state

/-- A phase that reaches its actions commits its plan after them. -/
theorem run_reached (ctx : Context) (tuningSet : TuningSet)
    (h : (planNamespaces out.lookups phase nsList w.state).stopped = none) :
    (run (answer out) (executeNamespaces ctx phase tuningSet nsList []) w).2 =
      { afterActions out ctx phase tuningSet nsList w with
        state := (planNamespaces out.lookups phase nsList w.state).commit
          ((planNamespaces out.lookups phase nsList w.state).record w.state) } := by
  rw [← afterActions_state ctx tuningSet]
  simp only [run_executeNamespaces, h, List.nil_append, run_world, afterActions, actionTrace]

theorem phase_effect (serves : Serves out view) (ordinary : Ordinary out (ctx, phase))
    (keeps : KeepsKind out (ctx, phase)) {prog : Program (Option (List String))}
    (returns : executePhase ctx phase = some prog) {result : Option (List String)} {w' : World E}
    (runs : run (answer out) prog w = (result, w')) (empty : result.getD [] = []) :
    PhaseEffect out view (ctx, phase) w w' := by
  obtain ⟨nsList, namespaces⟩ := executePhase_namespaces returns
  cases created : ctx.createTuningSet phase.tuningSet with
  | error e =>
    obtain rfl := executePhase_refused returns created
    obtain ⟨rfl, rfl⟩ := Prod.mk.inj runs
    cases empty
  | ok tuningSet =>
    obtain rfl := executePhase_created returns created namespaces
    cases h : (planNamespaces out.lookups phase nsList w.state).stopped with
    | some stop =>
      simp only [run_executeNamespaces, h] at runs
      obtain ⟨rfl, rfl⟩ := Prod.mk.inj runs
      rcases stop_result h with ⟨e, he⟩ | hempty
      · rw [he] at empty
        cases empty
      · have untouched : ∀ n i, ¬ Touches out.lookups (ctx, phase) n i := by
          rintro n i ⟨_, object, ho, _⟩
          rw [hempty] at ho
          cases ho
        refine ⟨fun n i ht => absurd ht (untouched n i), fun n i _ => ?_,
          fun n i k ht => absurd ht (untouched n i), fun _ _ => rfl⟩
        rw [empty_bundle_keeps hempty h]
    | none =>
      have hworld := run_reached ctx tuningSet h
      obtain ⟨errs, hresult, hnil⟩ : ∃ errs, (run (answer out)
          (executeNamespaces ctx phase tuningSet nsList []) w).1 = some errs ∧
          (errs = [] ↔ ∀ e ∈ actionTrace out ctx phase tuningSet nsList w, ¬ Failed e) :=
        reached_errors h
      rw [runs] at hworld hresult
      obtain rfl : result = some errs := hresult
      have success := hnil.mp empty
      have htouch : ∀ n i, Touched (planNamespaces out.lookups phase nsList w.state).accepted n i ↔
          Touches out.lookups (ctx, phase) n i := fun n i => touched_iff_touches namespaces h
      obtain rfl : w' = _ := hworld
      refine ⟨fun n i ht => ?_, fun n i ht => ?_, fun n i k ht before => ?_, fun a other => ?_⟩
      · obtain ⟨e, _, hget⟩ := get_commitAll_touched ((htouch n i).mpr ht) _
        refine ⟨_, hget, e.desired, ?_⟩
        exact e.desired
      · have hnot : ¬ Touched (planNamespaces out.lookups phase nsList w.state).accepted n i :=
          fun touched => ht ((htouch n i).mp touched)
        rw [Plan.commit, get_commitAll_other hnot]
        simp only [Plan.record, h]
        exact get_recordAll_other hnot w.state
      · exact replicas_after serves ordinary keeps success ((htouch n i).mpr ht) before
      · exact others_after serves keeps success
          (fun n i k touched => other n i k ((htouch n i).mp touched))

/-- Whatever the calls return and in whatever order they are made, a phase creates
replicas from the recorded count up to the one asked for, deletes those from the one
asked for up to the recorded one, and patches only if the two are equal. -/
theorem operations_in_range (keeps : KeepsKind out (ctx, phase))
    (unlisted : ∀ object ∈ phase.objectBundle, object.listUnknownObjectOptions = none)
    {prog : Program (Option (List String))} (returns : executePhase ctx phase = some prog)
    {e : Event Reply} (he : e ∈ trace (answer out) prog w) {operation : OperationType}
    {address : Address} (ht : target e.1 = some (operation, address)) :
    ∃ n i k, Touches out.lookups (ctx, phase) n i ∧ address = replicaAddress n i k ∧
      InRange phase.replicasPerNamespace (currentCount w.state n i) k operation := by
  obtain ⟨nsList, namespaces⟩ := executePhase_namespaces returns
  cases created : ctx.createTuningSet phase.tuningSet with
  | error err =>
    obtain rfl := executePhase_refused returns created
    cases he
  | ok tuningSet =>
    obtain rfl := executePhase_created returns created namespaces
    have operates : IsOperation e.1 := by
      obtain ⟨q, _⟩ := e
      cases q <;> trivial
    cases h : (planNamespaces out.lookups phase nsList w.state).stopped with
    | some stop => exact absurd operates (stopped_no_operation h he)
    | none =>
      have acts : e ∈ actionTrace out ctx phase tuningSet nsList w := by
        simp only [trace_executeNamespaces, h, List.nil_append, List.mem_append] at he
        rcases he with (he | he) | he
        · exact absurd operates (planTrace_no_operation he)
        · exact he
        · exact absurd operates (commitTrace_no_operation he)
      obtain ⟨a, ha, entry, hentry, k, range, rfl⟩ := actionTrace_onReplica keeps acts _ _ ht
      have touches := (touched_iff_touches namespaces h).mp ⟨a, ha, rfl, entry, hentry, rfl⟩
      rw [accepted_current unlisted ha hentry] at range
      exact ⟨a.ns, entry.id, k, touches, rfl, range⟩

end OnePhase

/-- The kind and group of some bundle object of the phases. -/
def Involved (lookups : Lookups) (steps : List (Context × Phase)) (kind group : String) : Prop :=
  ∃ step ∈ steps, ∃ object ∈ step.2.objectBundle, ∃ id,
    identifierOf lookups object = .ok id ∧ id.objectKind = kind ∧ id.apiGroup = group

theorem declared_involved {lookups : Lookups} {steps : List (Context × Phase)} {n : String}
    {replicas : Nat} (h : declared lookups steps n i = some replicas) :
    Involved lookups steps i.objectKind i.apiGroup := by
  induction steps using List.reverseRecOn with
  | nil => cases h
  | append_singleton steps step ih =>
    rw [declared_append] at h
    by_cases ht : Touches lookups step n i
    · obtain ⟨_, object, ho, named⟩ := ht
      exact ⟨step, by simp, object, ho, i, named, rfl, rfl⟩
    · rw [if_neg ht] at h
      obtain ⟨step', hs, hinvolved⟩ := ih h
      exact ⟨step', List.mem_append_left _ hs, hinvolved⟩

section Sequences
variable {E V : Type} {out : Outside E} {view : E → Address → Option V} {start : E}

/-- The invariant of a sequence of successful phases. The kinds are those of
all phases of the sequence, including those still to come. -/
structure InStep (out : Outside E) (view : E → Address → Option V) (start : E)
    (kinds : String → String → Prop) (steps : List (Context × Phase)) (w : World E) : Prop where
  recorded : ∀ n i replicas, declared out.lookups steps n i = some replicas →
    ∃ instances, w.state.get n i = some instances ∧
      instances.desiredReplicaCount = replicas ∧ instances.currentReplicaCount = replicas
  unrecorded : ∀ n i, declared out.lookups steps n i = none → w.state.get n i = none
  replicas : ∀ n i, kinds i.objectKind i.apiGroup → ∀ k,
    (view w.outside (replicaAddress n i k)).isSome ↔
      k < (declared out.lookups steps n i).getD 0
  others : ∀ a, (∀ n i replicas k, declared out.lookups steps n i = some replicas →
    a ≠ replicaAddress n i k) → view w.outside a = view start a

variable {kinds : String → String → Prop}

theorem inStep_start (fresh : ∀ a : Address, kinds a.kind a.group → view start a = none) :
    InStep out view start kinds [] ⟨.empty, start⟩ where
  recorded _ _ _ h := by cases h
  unrecorded _ _ _ := rfl
  replicas n i hk k := by
    have hnone : view start (replicaAddress n i k) = none := fresh _ hk
    simp [hnone, declared]
  others _ _ := rfl

variable {steps : List (Context × Phase)}

theorem inStep_currentCount {w : World E} (h : InStep out view start kinds steps w) (n : String)
    (i : InstancesIdentifier) :
    currentCount w.state n i = (declared out.lookups steps n i).getD 0 := by
  cases hd : declared out.lookups steps n i with
  | none => simp [currentCount, h.unrecorded n i hd]
  | some replicas =>
    obtain ⟨instances, hget, _, hcurrent⟩ := h.recorded n i replicas hd
    simp [currentCount, hget, hcurrent]

theorem inStep_phase
    {w w' : World E} {step : Context × Phase} (h : InStep out view start kinds steps w)
    (effect : PhaseEffect out view step w w') :
    InStep out view start kinds (steps ++ [step]) w' := by
  have hcases : ∀ n i,
      (Touches out.lookups step n i ∧ declared out.lookups (steps ++ [step]) n i =
        some step.2.replicasPerNamespace) ∨
      (¬ Touches out.lookups step n i ∧ declared out.lookups (steps ++ [step]) n i =
        declared out.lookups steps n i) := by
    intro n i
    rw [declared_append]
    by_cases ht : Touches out.lookups step n i
    · exact .inl ⟨ht, if_pos ht⟩
    · exact .inr ⟨ht, if_neg ht⟩
  refine ⟨fun n i replicas hd => ?_, fun n i hd => ?_, fun n i hk k => ?_, fun a ha => ?_⟩
  · rcases hcases n i with ⟨ht, heq⟩ | ⟨ht, heq⟩
    · obtain rfl : step.2.replicasPerNamespace = replicas := Option.some.inj (heq.symm.trans hd)
      exact effect.counts n i ht
    · rw [effect.otherCounts n i ht]
      exact h.recorded n i replicas (heq.symm.trans hd)
  · rcases hcases n i with ⟨ht, heq⟩ | ⟨ht, heq⟩
    · cases heq.symm.trans hd
    · rw [effect.otherCounts n i ht]
      exact h.unrecorded n i (heq.symm.trans hd)
  · rcases hcases n i with ⟨ht, heq⟩ | ⟨ht, heq⟩
    · rw [heq]
      apply effect.replicas n i k ht
      rw [inStep_currentCount h]
      exact h.replicas n i hk k
    · have hother : ∀ n' i' k', Touches out.lookups step n' i' →
          replicaAddress n i k ≠ replicaAddress n' i' k' := by
        intro n' i' k' ht' haddress
        obtain ⟨rfl, rfl, _⟩ := replicaAddress_inj haddress
        exact ht ht'
      rw [effect.others _ hother, heq]
      exact h.replicas n i hk k
  · have hstep : ∀ n i k, Touches out.lookups step n i → a ≠ replicaAddress n i k := by
      intro n i k ht
      rcases hcases n i with ⟨_, heq⟩ | ⟨hnot, _⟩
      · exact ha n i _ k heq
      · exact absurd ht hnot
    rw [effect.others a hstep]
    apply h.others
    intro n i replicas k hd
    rcases hcases n i with ⟨ht, _⟩ | ⟨_, heq⟩
    · exact hstep n i k ht
    · exact ha n i replicas k (heq.trans hd)

theorem inStep_succeeds (serves : Serves out view)
    (fresh : ∀ a : Address, kinds a.kind a.group → view start a = none)
    {w : World E}
    (succeeds : Succeeds out ⟨.empty, start⟩ steps w) (ordinary : ∀ step ∈ steps, Ordinary out step)
    (keeps : ∀ step ∈ steps, KeepsKind out step) :
    InStep out view start kinds steps w := by
  induction succeeds with
  | start => exact inStep_start fresh
  | @phase steps before after ctx phase prog result earlier returns runs empty ih =>
    have hlast : (ctx, phase) ∈ steps ++ [(ctx, phase)] := by simp
    have hprev : ∀ step ∈ steps, step ∈ steps ++ [(ctx, phase)] :=
      fun step hs => List.mem_append_left _ hs
    have hbefore := ih (fun step hs => ordinary step (hprev step hs))
      (fun step hs => keeps step (hprev step hs))
    exact inStep_phase hbefore
      (phase_effect serves (ordinary _ hlast) (keeps _ hlast) returns runs empty)

end Sequences

/-- After each phase of a sequence of successful phases, counts and replicas of
every identifier touched so far are those of the last phase that touched it,
and the phase has changed no object of an identifier it did not touch. The
tuning sets, and with them the order of the calls, are arbitrary. -/
theorem replicas_converge {E V : Type} {out : Outside E} {view : E → Address → Option V}
    (serves : Serves out view) {start : E} {steps : List (Context × Phase)} {ctx : Context}
    {phase : Phase} {before after : World E} {prog : Program (Option (List String))}
    {result : Option (List String)}
    (fresh : ∀ a : Address, Involved out.lookups (steps ++ [(ctx, phase)]) a.kind a.group →
      view start a = none)
    (ordinary : ∀ step ∈ steps ++ [(ctx, phase)], Ordinary out step)
    (keeps : ∀ step ∈ steps ++ [(ctx, phase)], KeepsKind out step)
    (earlier : Succeeds out ⟨.empty, start⟩ steps before)
    (returns : executePhase ctx phase = some prog)
    (runs : run (answer out) prog before = (result, after)) (empty : result.getD [] = []) :
    Reconciled out.lookups view start (steps ++ [(ctx, phase)]) after ∧
      ∀ a, (∀ n i k, Touches out.lookups (ctx, phase) n i → a ≠ replicaAddress n i k) →
        view after.outside a = view before.outside a := by
  have hlast : (ctx, phase) ∈ steps ++ [(ctx, phase)] := by simp
  have h := inStep_succeeds serves fresh (.phase earlier returns runs empty) ordinary keeps
  have effect := phase_effect serves (ordinary _ hlast) (keeps _ hlast) returns runs empty
  refine ⟨⟨h.recorded, fun n i replicas hd k => ?_, h.others⟩, effect.others⟩
  rw [h.replicas n i (declared_involved hd) k, hd, Option.getD_some]

section Scaling

/-- One template of a stateful set, whose raw form shows the given kind. -/
def setOutside (rawKind : String) : Outside Cluster where
  lookups :=
    { rawToObject := fun _ => .ok ⟨"apps", "v1", rawKind⟩
      labelSelectorAsSelector := fun _ => .ok ⟨""⟩
      getNumObjectsMatchingSelector := fun _ _ _ _ => .ok 0 }
  operations := clusterOperations fun _ _ => .ok ⟨⟨"apps", "v1", "StatefulSet"⟩, "spec"⟩

def scale (replicas : Nat) : Phase :=
  ⟨none, some ["ns-1"], replicas, "uniform", [⟨"web", "set.yaml", none, none⟩]⟩

theorem scale_ordinary (rawKind : String) (replicas : Nat) :
    Ordinary (setOutside rawKind) (context, scale replicas) where
  rendered _ _ _ _ := by nofun
  unlisted object ho := by
    rw [List.mem_singleton.mp ho]

theorem replicas_converge_scaled_down :
    ∃ before after, Succeeds (setOutside "StatefulSet") ⟨.empty, .empty⟩
        ([] ++ [(context, scale 2)]) before ∧
      Reconciled (setOutside "StatefulSet").lookups Cluster.read .empty
        ([] ++ [(context, scale 2)] ++ [(context, scale 1)]) after := by
  have first : Succeeds (setOutside "StatefulSet") ⟨.empty, .empty⟩
      ([] ++ [(context, scale 2)]) _ := .phase .start rfl rfl rfl
  refine ⟨_, _, first, (replicas_converge (clusterOperations_serves _ _) (fun _ _ => rfl) ?_ ?_
    first rfl rfl rfl).1⟩
  · intro step hs
    rcases List.mem_append.mp hs with hs | hs
    · rw [List.mem_singleton.mp hs]
      exact scale_ordinary _ _
    · rw [List.mem_singleton.mp hs]
      exact scale_ordinary _ _
  · rintro step hs object ho ns i obj gvk hobj hraw
    rw [← Except.ok.inj hobj, ← Except.ok.inj hraw]
    exact ⟨rfl, rfl⟩

/-- The second replica is created. -/
theorem operations_in_range_scaled_up :
    ∃ n i k, Touches (setOutside "StatefulSet").lookups (context, scale 2) n i ∧
      ⟨"ns-1", "StatefulSet", "apps", "web-1"⟩ = replicaAddress n i k ∧
      InRange 2 (currentCount .empty n i) k .createObject := by
  have keeps : KeepsKind (setOutside "StatefulSet") (context, scale 2) := by
    intro object ho ns i obj gvk hobj hraw
    rw [← Except.ok.inj hobj, ← Except.ok.inj hraw]
    exact ⟨rfl, rfl⟩
  exact operations_in_range (w := ⟨.empty, .empty⟩) keeps (scale_ordinary "StatefulSet" 2).unlisted
    rfl (List.mem_of_getElem? (i := 6) rfl) rfl

/-- The raw template shows another kind than the rendered one. After scaling up
and down again the replica is still there, with a recorded count of zero. -/
theorem templated_kind_leaves_replica :
    (∀ replicas, Ordinary (setOutside "Set") (context, scale replicas)) ∧
      Serves (setOutside "Set") Cluster.read ∧
      ∃ after, Succeeds (setOutside "Set") ⟨.empty, .empty⟩
          ([] ++ [(context, scale 1)] ++ [(context, scale 0)]) after ∧
        counts after.state "ns-1" ⟨"web", "Set", "apps"⟩ = some (0, 0) ∧
        after.outside ⟨"ns-1", "StatefulSet", "apps", "web-0"⟩ = some "spec" ∧
        ¬ Reconciled (setOutside "Set").lookups Cluster.read .empty
          ([] ++ [(context, scale 1)] ++ [(context, scale 0)]) after := by
  have first : Succeeds (setOutside "Set") ⟨.empty, .empty⟩
      ([] ++ [(context, scale 1)]) _ := .phase .start rfl rfl rfl
  refine ⟨scale_ordinary "Set", clusterOperations_serves _ _, _, .phase first rfl rfl rfl, rfl,
    rfl, fun reconciled => ?_⟩
  have hleft := reconciled.others ⟨"ns-1", "StatefulSet", "apps", "web-0"⟩ ?_
  · cases hleft
  · rintro n i replicas k hd haddress
    obtain ⟨step, _, object, _, id, named, hkind, _⟩ := declared_involved hd
    have hset : id.objectKind = "Set" := by rw [← Except.ok.inj named]
    have hstateful : "StatefulSet" = i.objectKind := congrArg Address.kind haddress
    rw [← hkind, hset] at hstateful
    exact absurd hstateful (by decide)

end Scaling

end ReplicaConvergence
