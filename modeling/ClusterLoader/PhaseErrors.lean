import ClusterLoader.RejectedPhases

/-!
# Which failures a phase reports

The errors of an action are empty exactly when no call of the action failed.
Before the actions run, a failed template or selector makes the phase give up
with an error. A failed listing of pre-existing objects does neither: it is
answered with zero replicas. The main theorem says that this is the only way
in which a failure stays hidden.
-/

namespace PhaseErrors

open RequestPrograms RequestPrograms.Prog PhaseRequests PhaseExecution PhasePlan RejectedPhases

/-- Raw templates are read as `lookups` has them. -/
def Consistent (lookups : Lookups) (t : List (Event Reply)) : Prop :=
  ∀ path r, (⟨.rawToObject path, r⟩ : Event Reply) ∈ t → r = lookups.rawToObject path

theorem trace_consistent {E : Type} {A : Type} (out : Outside E) (p : Program A)
    (w : World E) : Consistent out.lookups (trace (answer out) p w) := by
  intro path r hmem
  obtain ⟨_, hreply⟩ := trace_reply _ _ _ hmem
  exact hreply

variable {lookups : Lookups} {t₁ t₂ : List (Event Reply)}

theorem consistent_append (h : Consistent lookups (t₁ ++ t₂)) :
    Consistent lookups t₁ ∧ Consistent lookups t₂ :=
  ⟨fun path r hmem => h path r (List.mem_append_left _ hmem),
    fun path r hmem => h path r (List.mem_append_right _ hmem)⟩

/-- The error list of the program is empty exactly when none of its calls failed. -/
def Honest (lookups : Lookups) (p : Program (List String)) : Prop :=
  ∀ t errs, Consistent lookups t → Exec p t errs → (errs = [] ↔ ∀ e ∈ t, ¬ Failed e)

def Readable (lookups : Lookups) (object : Object) : Prop :=
  ∃ gvk, lookups.rawToObject object.objectTemplatePath = .ok gvk

variable {object : Object}

variable {id : InstancesIdentifier}

theorem named_readable (named : identifierOf lookups object = .ok id) :
    Readable lookups object := by
  obtain ⟨gvk, hraw, _⟩ := named_gvk named
  exact ⟨gvk, hraw⟩

theorem callErrors_nil_iff (ns objName purpose : String) (r : Option String) :
    callErrors ns objName purpose r = [] ↔ ¬ ∃ e, r = some e := by
  cases r <;> simp [callErrors]

variable {phase : Phase} {ctx : Context} {bundle : List Object} {ns : String} {object : Object}
  {p : Program (List String)}

section Actions
variable {lookups : Lookups}

theorem honest_done : Honest lookups (.done []) := by
  intro t errs _ he
  obtain ⟨rfl, rfl⟩ := exec_done he
  simp

/-- Rendering a template and sending the object, for a call whose failure
shows in the error list. -/
theorem honest_withTemplate {i : Nat} {send : Unstructured → Program (List String)}
    (hsend : ∀ obj, Honest lookups (send obj)) :
    Honest lookups (withTemplate ctx object ns i send) := by
  intro t errs hc he
  obtain ⟨r, t', rfl, tail⟩ := exec_ask he
  have hc' : Consistent lookups t' := fun path r hmem => hc path r (List.mem_cons_of_mem _ hmem)
  rcases r with (_ | message) | obj
  · obtain ⟨rfl, rfl⟩ := exec_done tail
    simp [Failed]
  · obtain ⟨rfl, rfl⟩ := exec_done tail
    simp [Failed]
  · rw [hsend obj t' errs hc' tail]
    simp [Failed]

theorem honest_call {q : Request} {next : Reply q → Program (List String)}
    (hnext : ∀ r, ∃ errs, next r = .done errs ∧ (errs = [] ↔ ¬ Failed ⟨q, r⟩)) :
    Honest lookups (.ask q next) := by
  intro t errs _ he
  obtain ⟨r, t', rfl, tail⟩ := exec_ask he
  obtain ⟨errs', hdone, hiff⟩ := hnext r
  rw [hdone] at tail
  obtain ⟨rfl, rfl⟩ := exec_done tail
  simpa using hiff

theorem honest_executeObject (readable : Readable lookups object) (ctx : Context) (ns : String)
    (i : Nat) (operation : OperationType) :
    Honest lookups (executeObject ctx object ns i operation) := by
  cases operation with
  | createObject | patchObject =>
    exact honest_withTemplate fun obj => honest_call fun r =>
      ⟨_, rfl, callErrors_nil_iff ns _ _ r⟩
  | deleteObject =>
    intro t errs hc he
    obtain ⟨r, t', rfl, tail⟩ := exec_ask he
    obtain ⟨gvk, hraw⟩ := readable
    obtain rfl : r = .ok gvk := (hc _ r List.mem_cons_self).trans hraw
    have hcall : Honest lookups (deleteObject gvk ns (objectName object.basename i) >>= fun err =>
        pure (callErrors ns (objectName object.basename i) "deletion" err)) :=
      honest_call fun r => ⟨_, rfl, callErrors_nil_iff ns _ _ r⟩
    rw [hcall t' errs (fun path r hmem => hc path r (List.mem_cons_of_mem _ hmem)) tail]
    simp [Failed]

theorem honest_deleteAll {pairs : List (Object × InstancesState)}
    (readable : ∀ pair ∈ pairs, Readable lookups pair.1) (ctx : Context) (ns : String) (i : Nat) :
    Honest lookups (deleteAll ctx ns i pairs) := by
  induction pairs with
  | nil => exact honest_done
  | cons pair rest ih =>
    intro t errs hc he
    have hfirst : Honest lookups (deleteReplica ctx ns i pair.1 pair.2) := by
      unfold deleteReplica
      split
      · exact honest_executeObject (readable pair List.mem_cons_self) ctx ns i .deleteObject
      · exact honest_done
    obtain ⟨t₁, errs₁, t₂, rfl, h₁, h₂⟩ := exec_bind he
    obtain ⟨t₃, errs₂, t₄, rfl, h₃, h₄⟩ := exec_bind h₂
    obtain ⟨rfl, rfl⟩ := exec_done h₄
    rw [List.append_nil] at hc ⊢
    obtain ⟨hc₁, hc₂⟩ := consistent_append hc
    have hrest := ih (fun pair hp => readable pair (List.mem_cons_of_mem _ hp))
    rw [List.append_eq_nil_iff, hfirst t₁ errs₁ hc₁ h₁, hrest t₃ errs₂ hc₂ h₃]
    simp only [List.mem_append, or_imp, forall_and]

theorem honest_applyAll (readable : ∀ object ∈ bundle, Readable lookups object) (ctx : Context)
    (operation : OperationType) (ns : String) (i : Nat) :
    Honest lookups (applyAll ctx operation ns i bundle) := by
  induction bundle with
  | nil => exact honest_done
  | cons object rest ih =>
    intro t errs hc he
    obtain ⟨t₁, errs₁, t₂, rfl, h₁, h₂⟩ := exec_bind he
    obtain ⟨hc₁, hc₂⟩ := consistent_append hc
    have hfirst := honest_executeObject (readable object List.mem_cons_self) ctx ns i operation
      t₁ errs₁ hc₁ h₁
    have hrest := ih (fun object ho => readable object (List.mem_cons_of_mem _ ho))
    cases errs₁ with
    | nil =>
      have hnone := hfirst.mp rfl
      rw [hrest t₂ errs hc₂ h₂]
      simp only [List.mem_append, or_imp, forall_and]
      exact ⟨fun h => ⟨hnone, h⟩, fun h => h.2⟩
    | cons e others =>
      obtain ⟨rfl, rfl⟩ := exec_done h₂
      rw [List.append_nil]
      exact hfirst

theorem honest_namespaceActions (readable : ∀ object ∈ phase.objectBundle, Readable lookups object)
    {current : Nat} {states : List InstancesState}
    (hp : p ∈ namespaceActions ctx phase ns current states) : Honest lookups p := by
  rcases mem_namespaceActions.mp hp with ⟨i, _, _, rfl⟩ | ⟨i, _, _, rfl⟩ | ⟨i, _, _, rfl⟩
  · apply honest_deleteAll
    intro pair hpair
    exact readable pair.1 (List.of_mem_zip (List.mem_reverse.mp hpair)).1
  · exact honest_applyAll readable ctx .patchObject ns i
  · exact honest_applyAll readable ctx .createObject ns i

/-- Whatever the schedule, the collected errors are empty exactly when no call
of any action failed. -/
theorem errors_interleave {actions : List (Program (List String))}
    (honest : ∀ p ∈ actions, Honest lookups p) {schedule : List Nat} {t : List (Event Reply)}
    {errLists : List (List String)} (hc : Consistent lookups t)
    (he : Exec (interleave schedule actions) t errLists) :
    errLists.flatten = [] ↔ ∀ e ∈ t, ¬ Failed e := by
  obtain ⟨runs, hexec, rfl, rfl, hmem⟩ := execs_parts (exec_interleave he)
  have each : ∀ r ∈ runs, r.2.2 = [] ↔ ∀ e ∈ r.2.1, ¬ Failed e := fun r hr =>
    honest r.1 (List.mem_map_of_mem hr) r.2.1 r.2.2
      (fun path reply h => hc path reply ((hmem _).mpr ⟨r, hr, h⟩)) (hexec r hr)
  simp only [List.flatten_eq_nil_iff, List.forall_mem_map, hmem]
  constructor
  · rintro hnil e ⟨r, hr, he⟩
    exact (each r hr).mp (hnil r hr) e he
  · intro hnone r hr
    exact (each r hr).mpr fun e he => hnone e ⟨r, hr, he⟩

end Actions

def AnyFailed (t : List (Event Reply)) : Prop := ∃ e ∈ t, Failed e

theorem anyFailed_nil : ¬ AnyFailed [] := fun ⟨_, he, _⟩ => by cases he

variable {e : Event Reply}

theorem anyFailed_cons {t : List (Event Reply)} :
    AnyFailed (e :: t) ↔ Failed e ∨ AnyFailed t := by
  simp only [AnyFailed, List.mem_cons, exists_eq_or_imp]

theorem anyFailed_append : AnyFailed (t₁ ++ t₂) ↔ AnyFailed t₁ ∨ AnyFailed t₂ := by
  simp only [AnyFailed, List.mem_append, or_and_right, exists_or]

/-- The listing of the pre-existing replicas of an object fails. -/
def ListingFails (lookups : Lookups) (ns : String) (object : Object) : Prop :=
  ∃ options selector gvk err, object.listUnknownObjectOptions = some options ∧
    lookups.labelSelectorAsSelector options.labelSelector = .ok selector ∧
    lookups.rawToObject object.objectTemplatePath = .ok gvk ∧
    lookups.getNumObjectsMatchingSelector ns object gvk selector = .error err

/-- Some object of the bundle has to be listed in the namespace, because it is
the first with its identifier and nothing is recorded for it, and the listing
fails. -/
def Unlisted (lookups : Lookups) (ns : String) (bundle : List Object) (s : NamespacesState) :
    Prop :=
  ∃ before object after id, bundle = before ++ object :: after ∧
    identifierOf lookups object = .ok id ∧
    (∀ o ∈ before, identifierOf lookups o ≠ .ok id) ∧
    s.get ns id = none ∧ ListingFails lookups ns object

variable {s : NamespacesState}

theorem unlisted_cons (named : identifierOf lookups object = .ok id) (instances : InstancesState) :
    Unlisted lookups ns (object :: bundle) s ↔
      (s.get ns id = none ∧ ListingFails lookups ns object) ∨
        Unlisted lookups ns bundle (s.set ns id instances) := by
  have hset : ∀ i, (s.set ns id instances).get ns i = none ↔ i ≠ id ∧ s.get ns i = none := by
    intro i
    by_cases hi : i = id
    · simp [hi]
    · simp [hi, NamespacesState.get_set_other s instances (fun h => hi h.2)]
  constructor
  · rintro ⟨before, o, after, i, hsplit, hi, hfirst, hnone, hfail⟩
    cases before with
    | nil =>
      obtain ⟨rfl, rfl⟩ := List.cons.inj hsplit
      obtain rfl : i = id := Except.ok.inj (hi.symm.trans named)
      exact .inl ⟨hnone, hfail⟩
    | cons first before =>
      obtain ⟨rfl, rfl⟩ := List.cons.inj hsplit
      have hne : i ≠ id := fun heq => hfirst object List.mem_cons_self (heq ▸ named)
      exact .inr ⟨before, o, after, i, rfl, hi,
        fun o' ho' => hfirst o' (List.mem_cons_of_mem _ ho'), (hset i).mpr ⟨hne, hnone⟩, hfail⟩
  · rintro (⟨hnone, hfail⟩ | ⟨before, o, after, i, rfl, hi, hfirst, hnone, hfail⟩)
    · exact ⟨[], object, bundle, id, rfl, named, by simp, hnone, hfail⟩
    · obtain ⟨hne, hnone⟩ := (hset i).mp hnone
      refine ⟨object :: before, o, after, i, rfl, hi, fun o' ho' => ?_, hnone, hfail⟩
      rcases List.mem_cons.mp ho' with rfl | ho'
      · exact fun heq => hne (Except.ok.inj (heq.symm.trans named))
      · exact hfirst o' ho'

variable {nsList : List String}

section Lookups
variable {E : Type} {out : Outside E}
variable {ns : String} {object : Object}

theorem failed_getReplicaCountOfNewObject {n : Nat}
    (h : newReplicaCount out.lookups ns object = .ok n) (w : World E) :
    AnyFailed (trace (answer out) (getReplicaCountOfNewObject ns object) w) ↔
      ListingFails out.lookups ns object := by
  unfold newReplicaCount at h
  unfold getReplicaCountOfNewObject ListingFails
  cases ho : object.listUnknownObjectOptions with
  | none => simp [trace, anyFailed_nil]
  | some options =>
    cases hs : out.lookups.labelSelectorAsSelector options.labelSelector with
    | error e => simp [ho, hs] at h
    | ok selector =>
      cases hr : out.lookups.rawToObject object.objectTemplatePath with
      | error e => simp [ho, hs, hr] at h
      | ok gvk =>
        cases hl : out.lookups.getNumObjectsMatchingSelector ns object gvk selector with
        | error e => simp [trace, answer, hs, hr, hl, anyFailed_cons, Failed]
        | ok n => simp [trace, answer, hs, hr, hl, anyFailed_cons, anyFailed_nil, Failed]

theorem failed_findInstances {instances : InstancesState} {w : World E}
    (h : currentInstances out.lookups ns id w.state object = .ok instances) :
    AnyFailed (trace (answer out) (findInstances ns id object) w) ↔
      w.state.get ns id = none ∧ ListingFails out.lookups ns object := by
  rw [findInstances]
  rcases currentInstances_ok h with hs | ⟨hs, n, hn, _⟩
  · simp [trace, answer, hs, anyFailed_cons, anyFailed_nil, Failed]
  · have hlist := failed_getReplicaCountOfNewObject hn w
    simp [trace, answer, hs, trace_bind, anyFailed_cons, Failed, hlist]

variable {replicas : Nat}

theorem failed_updateDesiredCount {w : World E} {entry : Entry out.lookups replicas}
    (h : prepareObject out.lookups replicas ns w.state object = .ok entry) :
    AnyFailed (trace (answer out) (updateDesiredCount replicas ns object) w) ↔
      w.state.get ns entry.id = none ∧ ListingFails out.lookups ns object := by
  obtain ⟨rfl, instances, hc, _⟩ := prepareObject_ok h
  obtain ⟨gvk, hraw⟩ := named_readable entry.named
  have hfind := failed_findInstances hc
  simp only [updateDesiredCount, trace_bind, run_getIdentifier, entry.named, run_findInstances,
    hc, anyFailed_append, hfind]
  simp [getIdentifier, request, trace, answer, hraw, anyFailed_cons, anyFailed_nil, Failed]

/-- If the loop over the bundle comes to its end, a failed listing is the only
failure there can have been. -/
theorem failed_updateDesiredCounts {w : World E}
    (h : (planBundle out.lookups replicas ns bundle w.state).2 = none) :
    AnyFailed (trace (answer out) (updateDesiredCounts replicas ns bundle) w) ↔
      Unlisted out.lookups ns bundle w.state := by
  induction bundle generalizing w with
  | nil =>
    refine iff_of_false anyFailed_nil ?_
    rintro ⟨before, object, after, _, hsplit, _⟩
    cases before <;> cases hsplit
  | cons object bundle ih =>
    cases hp : prepareObject out.lookups replicas ns w.state object with
    | error e => simp [planBundle, hp] at h
    | ok entry =>
      obtain ⟨rfl, _⟩ := prepareObject_ok hp
      simp only [planBundle, hp] at h
      have hrest := ih (w := { w with state := w.state.set ns entry.id entry.instances }) h
      rw [unlisted_cons entry.named entry.instances, ← failed_updateDesiredCount hp, ← hrest]
      simp only [updateDesiredCounts, trace_bind, run_updateDesiredCount, hp, anyFailed_append,
        pure_eq, trace, anyFailed_nil, or_false]

/-- The calls of the loop over the namespaces. -/
def planTrace (out : Outside E) (phase : Phase) : List String → World E → List (Event Reply)
  | [], _ => []
  | ns :: rest, w =>
    trace (answer out) (updateDesiredCounts phase.replicasPerNamespace ns phase.objectBundle) w ++
      match checkNamespace out.lookups phase ns w.state with
      | .inl _ => []
      | .inr a => planTrace out phase rest { w with state := a.record w.state }

/-- The calls of the function deferred for a namespace. -/
def commitTrace {lookups : Lookups} {phase : Phase} (a : Accepted lookups phase) :
    List (Event Reply) :=
  a.entries.flatMap fun e =>
    [⟨.rawToObject e.object.objectTemplatePath,
        lookups.rawToObject e.object.objectTemplatePath⟩,
      ⟨.setInstances a.ns e.id e.committed, ()⟩]

theorem trace_updateCurrentCounts (ns : String)
    (entries : List (Entry out.lookups replicas)) (w : World E) :
    trace (answer out) (updateCurrentCounts ns (entries.map fun e => (e.object, e.instances))) w =
      entries.flatMap fun e =>
        [⟨.rawToObject e.object.objectTemplatePath,
            out.lookups.rawToObject e.object.objectTemplatePath⟩,
          ⟨.setInstances ns e.id e.committed, ()⟩] := by
  induction entries generalizing w with
  | nil => rfl
  | cons e rest ih =>
    rw [List.map_cons, updateCurrentCounts, trace_bind, run_getIdentifier, e.named]
    simp only [request_bind, trace, ih]
    rfl

/-- The calls of a phase: those of its loop, then those of its actions unless
the loop gave up, then those of the deferred functions. -/
theorem trace_executeNamespaces (ctx : Context) (phase : Phase) (tuningSet : TuningSet)
    (nsList : List String) (actions : List (Program (List String))) (w : World E) :
    trace (answer out) (executeNamespaces ctx phase tuningSet nsList actions) w =
      let plan := planNamespaces out.lookups phase nsList w.state
      planTrace out phase nsList w ++
        (match plan.stopped with
          | some _ => []
          | none => trace (answer out)
              (interleave tuningSet.schedule (actions ++ plan.actions ctx))
              { w with state := plan.record w.state }) ++
        plan.accepted.reverse.flatMap commitTrace := by
  induction nsList generalizing actions w with
  | nil =>
    simp only [executeNamespaces, trace_bind, planNamespaces, Plan.actions,
      List.flatMap_nil, List.append_nil, List.reverse_nil]
    exact List.append_nil _
  | cons ns rest ih =>
    rw [executeNamespaces, trace_bind, run_updateDesiredCounts, planNamespaces, planTrace]
    cases hcheck : checkNamespace out.lookups phase ns w.state with
    | inl stop => simp [afterBundle_stop hcheck, trace]
    | inr a =>
      obtain ⟨rfl, _⟩ := checkNamespace_accept hcheck
      simp only [afterBundle_accept hcheck, writeAll_of_accept hcheck, trace_bind, ih,
        trace_updateCurrentCounts, List.append_assoc, List.reverse_cons, List.flatMap_append,
        pure_eq, trace]
      rfl

theorem unlisted_record {rest : List String} (a : Accepted out.lookups phase)
    (s : NamespacesState) :
    (Unlisted out.lookups a.ns bundle s ∨
        ∃ ns ∈ rest, Unlisted out.lookups ns bundle (a.record s)) ↔
      ∃ ns ∈ a.ns :: rest, Unlisted out.lookups ns bundle s := by
  have hother : ∀ ns, ns ≠ a.ns → ∀ i, (a.record s).get ns i = s.get ns i :=
    fun ns hne i => get_writeAll_other _ s (fun _ _ h => hne h.1)
  have hfewer : ∀ ns i, (a.record s).get ns i = none → s.get ns i = none := by
    intro ns i hnone
    by_cases hin : ns = a.ns ∧ ∃ e ∈ a.entries, e.id = i
    · obtain ⟨rfl, hmem⟩ := hin
      obtain ⟨_, _, _, hget⟩ := get_writeAll_mem a.ns Entry.instances s hmem
      rw [Accepted.record, hget] at hnone
      cases hnone
    · rw [← hnone]
      exact (get_writeAll_other _ s
        (fun e he h => hin ⟨h.1, e, he, h.2.symm⟩)).symm
  constructor
  · rintro (h | ⟨ns, hns, before, object, after, id, h₁, h₂, h₃, hnone, hfail⟩)
    · exact ⟨a.ns, List.mem_cons_self, h⟩
    · exact ⟨ns, List.mem_cons_of_mem _ hns, before, object, after, id, h₁, h₂, h₃,
        hfewer ns id hnone, hfail⟩
  · rintro ⟨ns, hns, h⟩
    by_cases heq : ns = a.ns
    · exact .inl (heq ▸ h)
    · obtain ⟨before, object, after, id, h₁, h₂, h₃, hnone, hfail⟩ := h
      exact .inr ⟨ns, (List.mem_cons.mp hns).resolve_left heq, before, object, after, id, h₁, h₂,
        h₃, (hother ns heq id).trans hnone, hfail⟩

/-- In a phase that reaches its actions, the loop has made a failing call if
and only if it has made a failing listing. -/
theorem failed_planTrace {w : World E}
    (h : (planNamespaces out.lookups phase nsList w.state).stopped = none) :
    AnyFailed (planTrace out phase nsList w) ↔
      ∃ ns ∈ nsList, Unlisted out.lookups ns phase.objectBundle w.state := by
  induction nsList generalizing w with
  | nil => simp [planTrace, anyFailed_nil]
  | cons ns rest ih =>
    cases hcheck : checkNamespace out.lookups phase ns w.state with
    | inl stop => simp [planNamespaces, hcheck] at h
    | inr a =>
      obtain ⟨rfl, hplan⟩ := checkNamespace_accept hcheck
      simp only [planNamespaces, hcheck] at h
      have hrest := ih (w := { w with state := a.record w.state }) h
      rw [← unlisted_record a w.state, ← hrest,
        ← failed_updateDesiredCounts (congrArg Prod.snd hplan)]
      simp only [planTrace, hcheck, anyFailed_append]

theorem failed_commitTrace (accepted : List (Accepted out.lookups phase)) :
    ¬ AnyFailed (accepted.flatMap commitTrace) := by
  rintro ⟨e, he, hfail⟩
  obtain ⟨a, _, he⟩ := List.mem_flatMap.mp he
  obtain ⟨entry, _, he⟩ := List.mem_flatMap.mp he
  obtain ⟨gvk, hraw⟩ := named_readable entry.named
  simp only [hraw, List.mem_cons, List.not_mem_nil, or_false] at he
  rcases he with rfl | rfl
  · simp [Failed] at hfail
  · exact hfail

end Lookups

/-- The calls that change objects of the cluster. -/
def IsOperation : Request → Prop
  | .createObject _ _ _ => True
  | .patchObject _ _ _ => True
  | .deleteObject _ _ _ => True
  | _ => False

/-- A create, patch or delete of some replica of an object. -/
def OperatesOn (ns : String) (object : Object) : Request → Prop
  | .createObject n name _ => n = ns ∧ ∃ i, name = objectName object.basename i
  | .patchObject n name _ => n = ns ∧ ∃ i, name = objectName object.basename i
  | .deleteObject _ n name => n = ns ∧ ∃ i, name = objectName object.basename i
  | _ => False

theorem operatesOn_isOperation {q : Request} (h : OperatesOn ns object q) : IsOperation q := by
  cases q <;> trivial

/-- The calls an action may make when its templates can be read. -/
def ActionCall (lookups : Lookups) : Request → Prop
  | .rawToObject path => ∃ gvk, lookups.rawToObject path = .ok gvk
  | .templateToObject _ _ => True
  | q => IsOperation q

variable {tuningSet : TuningSet}

section Phases
variable {E : Type} {out : Outside E}
variable {e : Event Reply}

theorem planTrace_no_operation {w : World E} (he : e ∈ planTrace out phase nsList w) :
    ¬ IsOperation e.1 := by
  induction nsList generalizing w with
  | nil => cases he
  | cons ns rest ih =>
    rcases List.mem_append.mp he with he | he
    · have allows : ∀ object ∈ phase.objectBundle,
          AllowsObject (fun _ _ => True) (fun q => ¬ IsOperation q) ns object :=
        fun object _ => ⟨id, fun _ _ => id, fun _ _ _ _ => id, fun _ _ => id, fun _ _ _ => id⟩
      exact uses_trace (fun _ _ => trivial) (uses_updateDesiredCounts allows) w he
    · cases hcheck : checkNamespace out.lookups phase ns w.state with
      | inl stop => rw [hcheck] at he; cases he
      | inr a => rw [hcheck] at he; exact ih he

theorem commitTrace_no_operation {accepted : List (Accepted out.lookups phase)}
    (he : e ∈ accepted.flatMap commitTrace) : ¬ IsOperation e.1 := by
  obtain ⟨a, _, he⟩ := List.mem_flatMap.mp he
  obtain ⟨entry, _, he⟩ := List.mem_flatMap.mp he
  simp only [List.mem_cons, List.not_mem_nil, or_false] at he
  rcases he with rfl | rfl <;> exact id

theorem accepted_readable (a : Accepted out.lookups phase) :
    ∀ object ∈ phase.objectBundle, Readable out.lookups object := by
  intro object ho
  rw [← a.covers] at ho
  obtain ⟨entry, _, rfl⟩ := List.mem_map.mp ho
  exact named_readable entry.named

/-- The actions of a plan report every failure, and make no listing. -/
theorem plan_actions (plan : Plan out.lookups phase) (hp : p ∈ plan.actions ctx) :
    Honest out.lookups p ∧ p.Uses (fun _ _ => True) (ActionCall out.lookups) := by
  obtain ⟨a, _, hp⟩ := List.mem_flatMap.mp hp
  refine ⟨honest_namespaceActions (accepted_readable a) hp, uses_namespaceActions ?_ hp⟩
  intro object ho i operation _
  cases operation with
  | createObject | patchObject => exact ⟨trivial, fun _ _ => trivial⟩
  | deleteObject => exact ⟨accepted_readable a object ho, fun _ _ => trivial⟩

/-- Nothing is called for an empty bundle. -/
theorem planTrace_empty (h : phase.objectBundle = []) (nsList : List String) (w : World E) :
    planTrace out phase nsList w = [] := by
  cases nsList with
  | nil => rfl
  | cons ns rest =>
    cases hcheck : checkNamespace out.lookups phase ns w.state with
    | inl stop => simp [planTrace, hcheck, h, updateDesiredCounts, trace]
    | inr a =>
      have hnone : a.entries = [] := List.map_eq_nil_iff.mp (a.covers.trans h)
      exact absurd hnone a.nonempty

variable {stop : Stop out.lookups phase}

theorem stop_result (h : (planNamespaces out.lookups phase nsList s).stopped = some stop) :
    (∃ e, stop.result = some [e]) ∨ phase.objectBundle = [] := by
  induction nsList generalizing s with
  | nil => cases h
  | cons ns rest ih =>
    cases hcheck : checkNamespace out.lookups phase ns s with
    | inl stop' =>
      simp only [planNamespaces, hcheck, Option.some.injEq] at h
      exact h ▸ checkNamespace_result hcheck
    | inr a =>
      simp only [planNamespaces, hcheck] at h
      exact ih h

/-- A failure of a phase that gives up is reported. -/
theorem stopped_reports {w : World E}
    (h : (planNamespaces out.lookups phase nsList w.state).stopped = some stop)
    (failed : AnyFailed (trace (answer out) (executeNamespaces ctx phase tuningSet nsList []) w)) :
    ∃ errs, (run (answer out) (executeNamespaces ctx phase tuningSet nsList []) w).1 =
      some errs ∧ errs ≠ [] := by
  simp only [run_executeNamespaces, h]
  rcases stop_result h with ⟨e, he⟩ | hempty
  · exact ⟨[e], he, List.cons_ne_nil _ _⟩
  · simp only [trace_executeNamespaces, h, planTrace_empty hempty] at failed
    exact absurd failed (failed_commitTrace _)

theorem stopped_no_operation {w : World E}
    (h : (planNamespaces out.lookups phase nsList w.state).stopped = some stop)
    (he : e ∈ trace (answer out) (executeNamespaces ctx phase tuningSet nsList []) w) :
    ¬ IsOperation e.1 := by
  simp only [trace_executeNamespaces, h, List.append_nil] at he
  rcases List.mem_append.mp he with he | he
  · exact planTrace_no_operation he
  · exact commitTrace_no_operation he

section Reached
variable {ctx : Context} {phase : Phase} {tuningSet : TuningSet} {nsList : List String}
variable {w : World E}

/-- The calls that the actions of a phase make. -/
def actionTrace (out : Outside E) (ctx : Context) (phase : Phase) (tuningSet : TuningSet)
    (nsList : List String) (w : World E) : List (Event Reply) :=
  let plan := planNamespaces out.lookups phase nsList w.state
  trace (answer out) (interleave tuningSet.schedule (plan.actions ctx))
    { w with state := plan.record w.state }

theorem actionTrace_call (he : e ∈ actionTrace out ctx phase tuningSet nsList w) :
    ActionCall out.lookups e.1 :=
  uses_trace (fun _ _ => trivial)
    (uses_interleave _ fun _ hp => (plan_actions _ hp).2) _ he

section
variable (h : (planNamespaces out.lookups phase nsList w.state).stopped = none)
include h

theorem reached_errors :
    ∃ errs, (run (answer out) (executeNamespaces ctx phase tuningSet nsList []) w).1 =
        some errs ∧
      (errs = [] ↔ ∀ e ∈ actionTrace out ctx phase tuningSet nsList w, ¬ Failed e) := by
  simp only [run_executeNamespaces, h]
  exact ⟨_, rfl, errors_interleave (fun p hp => (plan_actions _ hp).1)
    (trace_consistent out _ _) (run_exec _ _ _)⟩

theorem reached_failed :
    AnyFailed (trace (answer out) (executeNamespaces ctx phase tuningSet nsList []) w) ↔
      (∃ ns ∈ nsList, Unlisted out.lookups ns phase.objectBundle w.state) ∨
        AnyFailed (actionTrace out ctx phase tuningSet nsList w) := by
  have hcommit := failed_commitTrace
    (planNamespaces out.lookups phase nsList w.state).accepted.reverse
  rw [← failed_planTrace h]
  simp only [trace_executeNamespaces, h, List.nil_append, anyFailed_append, hcommit, or_false,
    actionTrace]

/-- When no listing of the loop fails, no failed listing is among the calls. -/
theorem reached_listing
    (listed : ¬ ∃ ns ∈ nsList, Unlisted out.lookups ns phase.objectBundle w.state)
    {gvk : GroupVersionKind} {selector : Selector} {err : String} :
    (⟨.getNumObjectsMatchingSelector ns object gvk selector, .error err⟩ : Event Reply) ∉
      trace (answer out) (executeNamespaces ctx phase tuningSet nsList []) w := by
  intro hlist
  have hfail : Failed ⟨.getNumObjectsMatchingSelector ns object gvk selector, .error err⟩ :=
    ⟨err, rfl⟩
  rw [trace_executeNamespaces] at hlist
  simp only [h, List.mem_append] at hlist
  rcases hlist with (hlist | hlist) | hlist
  · exact listed ((failed_planTrace h).mp ⟨_, hlist, hfail⟩)
  · have hcall := actionTrace_call hlist
    exact hcall
  · exact failed_commitTrace _ ⟨_, hlist, hfail⟩

end

end Reached

end Phases

/-- No failed call of the phase is hidden, whatever the object operations do:
the returned error list is not empty, and nothing is done to an object whose
pre-existing replicas could not be listed. -/
def HidesNothing (lookups : Lookups) (prog : Program (Option (List String)))
    (s : NamespacesState) : Prop :=
  ∀ (E : Type) (operations : Operations E) (start : E),
    let t := trace (answer ⟨lookups, operations⟩) prog ⟨s, start⟩
    (AnyFailed t → ∃ errs,
      (run (answer ⟨lookups, operations⟩) prog ⟨s, start⟩).1 = some errs ∧ errs ≠ []) ∧
    ∀ ns object gvk selector err,
      (⟨.getNumObjectsMatchingSelector ns object gvk selector, .error err⟩ : Event Reply) ∈ t →
        ∀ e ∈ t, ¬ OperatesOn ns object e.1

/-- When the operations never fail, no action does. -/
theorem noOperations_not_failed {w : World Unit}
    (he : e ∈ actionTrace ⟨lookups, noOperations⟩ ctx phase tuningSet nsList w) :
    ¬ Failed e := by
  have hcall := actionTrace_call he
  obtain ⟨w', hreply⟩ := trace_reply _ _ _ he
  obtain ⟨q, r⟩ := e
  cases q with
  | rawToObject path =>
    obtain ⟨gvk, hraw⟩ := hcall
    rintro ⟨e, rfl⟩
    cases hreply.trans hraw
  | templateToObject path mapping => rintro ⟨m, rfl⟩; cases hreply
  | createObject | patchObject | deleteObject => rintro ⟨e, rfl⟩; cases hreply
  | labelSelectorAsSelector | getNumObjectsMatchingSelector | getInstances | setInstances =>
    exact hcall.elim

theorem hidesNothing_reached (h : (planNamespaces lookups phase nsList s).stopped = none) :
    HidesNothing lookups (executeNamespaces ctx phase tuningSet nsList []) s ↔
      ∀ ns ∈ nsList, ¬ Unlisted lookups ns phase.objectBundle s := by
  constructor
  · -- with operations that never fail, only the listing can have failed
    intro hides ns hns unlisted
    let out : Outside Unit := ⟨lookups, noOperations⟩
    have hreached : (planNamespaces out.lookups phase nsList
        (⟨s, ()⟩ : World Unit).state).stopped = none := h
    obtain ⟨reports, _⟩ := hides Unit noOperations ()
    obtain ⟨errs, hrun, hne⟩ :=
      reports ((reached_failed hreached).mpr (.inl ⟨ns, hns, unlisted⟩))
    obtain ⟨errs', hrun', hnil⟩ := reached_errors hreached
    obtain rfl : errs' = errs := Option.some.inj (hrun'.symm.trans hrun)
    exact hne (hnil.mpr fun e he => noOperations_not_failed he)
  · intro listed E operations start
    let out : Outside E := ⟨lookups, operations⟩
    have hreached : (planNamespaces out.lookups phase nsList
        (⟨s, start⟩ : World E).state).stopped = none := h
    have hlisted : ¬ ∃ ns ∈ nsList, Unlisted out.lookups ns phase.objectBundle s :=
      fun ⟨ns, hns, hu⟩ => listed ns hns hu
    constructor
    · intro failed
      obtain ⟨e, he, hfail⟩ := ((reached_failed hreached).mp failed).resolve_left hlisted
      obtain ⟨errs, hrun, hnil⟩ := reached_errors hreached
      exact ⟨errs, hrun, fun heq => hnil.mp heq e he hfail⟩
    · intro ns object gvk selector err hlist
      exact absurd hlist (reached_listing hreached hlisted)

/-- A phase hides no failure if and only if it gives up before its actions run,
or no object that it finds unrecorded has a failing listing. -/
theorem hides_no_failure_iff {ctx : Context} {phase : Phase}
    {prog : Program (Option (List String))} (hprog : executePhase ctx phase = some prog)
    (lookups : Lookups) (s : NamespacesState) :
    HidesNothing lookups prog s ↔
      (∃ passed ns handled, GivesUpAt lookups ctx phase s passed ns handled) ∨
        ∀ nsList, namespacesOf ctx phase = some nsList →
          ∀ ns ∈ nsList, ¬ Unlisted lookups ns phase.objectBundle s := by
  cases created : ctx.createTuningSet phase.tuningSet with
  | error e =>
    obtain rfl := executePhase_refused hprog created
    refine iff_of_true (fun E operations start => ?_) (.inl ⟨[], "", [], .tuningSet "" created⟩)
    exact ⟨fun failed => absurd failed anyFailed_nil, fun _ _ _ _ _ hlist => by cases hlist⟩
  | ok tuningSet =>
    obtain ⟨nsList, namespaces⟩ := executePhase_namespaces hprog
    obtain rfl := executePhase_created hprog created namespaces
    cases h : (planNamespaces lookups phase nsList s).stopped with
    | some stop =>
      refine iff_of_true (fun E operations start => ?_)
        (.inl ⟨_, _, _, .bundle created namespaces h⟩)
      have hstop := h
      exact ⟨stopped_reports hstop, fun _ _ _ _ _ _ e he hon =>
        stopped_no_operation hstop he (operatesOn_isOperation hon)⟩
    | none =>
      rw [hidesNothing_reached h]
      constructor
      · intro listed
        refine .inr fun nsList' hlist => ?_
        obtain rfl : nsList = nsList' := Option.some.inj (namespaces.symm.trans hlist)
        exact listed
      · rintro (⟨passed, ns, handled, rejected⟩ | listed)
        · cases rejected with
          | tuningSet _ refused => cases created.symm.trans refused
          | bundle _ namespaces' stopped =>
            obtain rfl := Option.some.inj (namespaces.symm.trans namespaces')
            cases h.symm.trans stopped
        · exact listed nsList namespaces

section FailedListing

def forbidden : Lookups where
  rawToObject := templates.rawToObject
  labelSelectorAsSelector _ := .ok ⟨"app=web"⟩
  getNumObjectsMatchingSelector _ _ _ _ := .error "deployments is forbidden"

def existingWeb : Object := ⟨"web", "deployment.yaml", none, some ⟨none⟩⟩

def oneReplica : Phase := ⟨none, some ["ns-1"], 1, "uniform", [existingWeb]⟩

def deployment : Unstructured := ⟨⟨"apps", "v1", "Deployment"⟩, "spec"⟩

def rendering : Operations Unit where
  templateToObject _ _ := .ok deployment
  createObject _ _ _ _ := (none, ())
  patchObject _ _ _ _ := (none, ())
  deleteObject _ _ _ _ := (none, ())

/-- The listing fails, a replica is created all the same, and no error is
returned. -/
theorem failed_listing_is_hidden :
    ∃ prog, executePhase context oneReplica = some prog ∧
      (⟨.getNumObjectsMatchingSelector "ns-1" existingWeb ⟨"apps", "v1", "Deployment"⟩
        ⟨"app=web"⟩, .error "deployments is forbidden"⟩ : Event Reply) ∈
          trace (answer ⟨forbidden, rendering⟩) prog ⟨.empty, ()⟩ ∧
      (⟨.createObject "ns-1" "web-0" deployment, none⟩ : Event Reply) ∈
          trace (answer ⟨forbidden, rendering⟩) prog ⟨.empty, ()⟩ ∧
      (run (answer ⟨forbidden, rendering⟩) prog ⟨.empty, ()⟩).1 = some [] := by
  refine ⟨_, rfl, ?_, ?_, rfl⟩
  · exact .tail _ (.tail _ (.tail _ (.tail _ (.head _))))
  · exact .tail _ (.tail _ (.tail _ (.tail _ (.tail _ (.tail _ (.tail _ (.head _)))))))

theorem hides_no_failure_iff_forbidden :
    ∃ prog, executePhase context oneReplica = some prog ∧
      (HidesNothing forbidden prog .empty ↔
        (∃ passed ns handled, GivesUpAt forbidden context oneReplica .empty passed ns handled) ∨
          ∀ nsList, namespacesOf context oneReplica = some nsList →
            ∀ ns ∈ nsList, ¬ Unlisted forbidden ns [existingWeb] .empty) :=
  ⟨_, rfl, hides_no_failure_iff rfl forbidden .empty⟩

end FailedListing

end PhaseErrors
