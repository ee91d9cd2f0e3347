import ClusterLoader.PhaseExecution

/-!
# What a phase decides

Templates, selectors and listings answer the same way throughout a phase, so
the recorded state determines at which bundle object the loop of ExecutePhase
gives up, if it does, and which actions it collects otherwise. The plan is this
decision. Its parts carry what later proofs need: an entry its identifier and
desired count, an accepted namespace that it covers the bundle and that the
bundle agrees on one current count. The last theorem says that a run records,
executes and commits exactly its plan.
-/

namespace PhasePlan

open RequestPrograms RequestPrograms.Prog PhaseRequests PhaseExecution

def identifierOf (lookups : Lookups) (object : Object) : Except String InstancesIdentifier :=
  identifier object (lookups.rawToObject object.objectTemplatePath)

variable {object : Object} {id : InstancesIdentifier}

variable {lookups : Lookups}

theorem named_gvk (named : identifierOf lookups object = .ok id) :
    ∃ gvk, lookups.rawToObject object.objectTemplatePath = .ok gvk ∧
      id = ⟨object.basename, gvk.kind, gvk.group⟩ := by
  unfold identifierOf at named
  cases hraw : lookups.rawToObject object.objectTemplatePath with
  | error e => rw [hraw] at named; cases named
  | ok gvk =>
    rw [hraw] at named
    exact ⟨gvk, rfl, (Except.ok.inj named).symm⟩

def newReplicaCount (lookups : Lookups) (ns : String) (object : Object) : Except String Nat :=
  match object.listUnknownObjectOptions with
  | none => .ok 0
  | some options =>
    match lookups.labelSelectorAsSelector options.labelSelector with
    | .error e => .error e
    | .ok selector =>
      match lookups.rawToObject object.objectTemplatePath with
      | .error e => .error e.text
      | .ok gvk =>
        match lookups.getNumObjectsMatchingSelector ns object gvk selector with
        | .error _ => .ok 0
        | .ok replicaCount => .ok replicaCount

def currentInstances (lookups : Lookups) (ns : String) (id : InstancesIdentifier)
    (s : NamespacesState) (object : Object) : Except String InstancesState :=
  match s.get ns id with
  | some instances => .ok instances
  | none => (newReplicaCount lookups ns object).map fun currentReplicaCount =>
    ⟨0, currentReplicaCount, object⟩

variable {s : NamespacesState} {ns : String}

/-- The state was recorded before, or is that of a new object. -/
theorem currentInstances_ok {instances : InstancesState}
    (h : currentInstances lookups ns id s object = .ok instances) :
    s.get ns id = some instances ∨
      s.get ns id = none ∧ ∃ n, newReplicaCount lookups ns object = .ok n ∧
        instances = ⟨0, n, object⟩ := by
  rw [currentInstances] at h
  cases hs : s.get ns id with
  | some known =>
    rw [hs] at h
    exact .inl (congrArg some (Except.ok.inj h))
  | none =>
    rw [hs] at h
    cases hn : newReplicaCount lookups ns object with
    | error e => rw [hn] at h; cases h
    | ok n =>
      rw [hn] at h
      exact .inr ⟨rfl, n, rfl, (Except.ok.inj h).symm⟩

/-- A bundle object whose desired count has been set. -/
structure Entry (lookups : Lookups) (replicas : Nat) where
  object : Object
  id : InstancesIdentifier
  instances : InstancesState
  named : identifierOf lookups object = .ok id
  desired : instances.desiredReplicaCount = replicas

def prepareObject (lookups : Lookups) (replicas : Nat) (ns : String) (s : NamespacesState)
    (object : Object) : Except String (Entry lookups replicas) :=
  match named : identifierOf lookups object with
  | .error e => .error e
  | .ok id =>
    (currentInstances lookups ns id s object).map fun instances =>
      ⟨object, id, { instances with desiredReplicaCount := replicas }, named, rfl⟩

section Entries
variable {lookups : Lookups} {replicas : Nat}

def Entry.committed (e : Entry lookups replicas) : InstancesState :=
  { e.instances with currentReplicaCount := e.instances.desiredReplicaCount }

/-- Store a value for every entry, in order. -/
def writeAll (ns : String) (value : Entry lookups replicas → InstancesState)
    (entries : List (Entry lookups replicas)) (s : NamespacesState) : NamespacesState :=
  entries.foldl (fun s e => s.set ns e.id (value e)) s

variable {entries : List (Entry lookups replicas)}

theorem get_writeAll_other {ns n : String} {i : InstancesIdentifier}
    (value : Entry lookups replicas → InstancesState) (s : NamespacesState)
    (h : ∀ e ∈ entries, ¬ (n = ns ∧ i = e.id)) :
    (writeAll ns value entries s).get n i = s.get n i := by
  induction entries generalizing s with
  | nil => rfl
  | cons e rest ih =>
    have hrest := ih (s.set ns e.id (value e)) (fun e' he' => h e' (List.mem_cons_of_mem _ he'))
    exact hrest.trans (s.get_set_other (value e) (h e List.mem_cons_self))

theorem get_writeAll_mem (ns : String) (value : Entry lookups replicas → InstancesState)
    (s : NamespacesState) {i : InstancesIdentifier} (h : ∃ e ∈ entries, e.id = i) :
    ∃ e ∈ entries, e.id = i ∧ (writeAll ns value entries s).get ns i = some (value e) := by
  induction entries generalizing s with
  | nil => obtain ⟨e, he, _⟩ := h; cases he
  | cons e rest ih =>
    by_cases hrest : ∃ e' ∈ rest, e'.id = i
    · obtain ⟨e', he', hid, hget⟩ := ih (s.set ns e.id (value e)) hrest
      exact ⟨e', List.mem_cons_of_mem _ he', hid, hget⟩
    · have hhead : e.id = i := by
        obtain ⟨e', he', hid⟩ := h
        rcases List.mem_cons.mp he' with rfl | he'
        · exact hid
        · exact absurd ⟨e', he', hid⟩ hrest
      have hkeep := get_writeAll_other value (s.set ns e.id (value e))
        (fun e' he' (h' : ns = ns ∧ i = e'.id) => hrest ⟨e', he', h'.2.symm⟩)
      refine ⟨e, List.mem_cons_self, hhead, hkeep.trans ?_⟩
      rw [← hhead, NamespacesState.get_set_self]

end Entries

/-- The loop over the bundle: the objects handled, and why it ended early. -/
def planBundle (lookups : Lookups) (replicas : Nat) (ns : String) :
    List Object → NamespacesState → List (Entry lookups replicas) × Option String
  | [], _ => ([], none)
  | object :: bundle, s =>
    match prepareObject lookups replicas ns s object with
    | .error e => ([], some e)
    | .ok entry =>
      let rest := planBundle lookups replicas ns bundle (s.set ns entry.id entry.instances)
      (entry :: rest.1, rest.2)

/-- What the loop over the bundle returns. -/
def bundleResult {lookups : Lookups} {replicas : Nat}
    (plan : List (Entry lookups replicas) × Option String) :
    Except String (List InstancesState) :=
  match plan.2 with
  | some e => .error e
  | none => .ok (plan.1.map Entry.instances)

theorem prepareObject_unnamed {e : String} (h : identifierOf lookups object = .error e)
    (replicas : Nat) (ns : String) (s : NamespacesState) :
    prepareObject lookups replicas ns s object = .error e := by
  unfold prepareObject
  split
  · rename_i e' he'
    rw [Except.error.inj (h.symm.trans he')]
  · rename_i id named
    rw [h] at named
    cases named

theorem prepareObject_named (h : identifierOf lookups object = .ok id) (replicas : Nat)
    (ns : String) (s : NamespacesState) :
    prepareObject lookups replicas ns s object =
      (currentInstances lookups ns id s object).map fun instances =>
        ⟨object, id, { instances with desiredReplicaCount := replicas }, h, rfl⟩ := by
  unfold prepareObject
  split
  · rename_i e he
    rw [h] at he
    cases he
  · rename_i id' named
    obtain rfl : id = id' := Except.ok.inj (h.symm.trans named)
    rfl

variable {replicas : Nat} {entry : Entry lookups replicas}

theorem prepareObject_ok (h : prepareObject lookups replicas ns s object = .ok entry) :
    entry.object = object ∧ ∃ instances,
      currentInstances lookups ns entry.id s object = .ok instances ∧
      entry.instances = { instances with desiredReplicaCount := replicas } := by
  cases named : identifierOf lookups object with
  | error e => rw [prepareObject_unnamed named] at h; cases h
  | ok id =>
    rw [prepareObject_named named] at h
    cases hc : currentInstances lookups ns id s object with
    | error e => rw [hc] at h; cases h
    | ok instances =>
      rw [hc] at h
      obtain rfl := Except.ok.inj h
      exact ⟨rfl, instances, hc, rfl⟩

theorem planBundle_covers {bundle : List Object}
    (h : (planBundle lookups replicas ns bundle s).2 = none) :
    (planBundle lookups replicas ns bundle s).1.map Entry.object = bundle := by
  induction bundle generalizing s with
  | nil => rfl
  | cons object bundle ih =>
    cases hp : prepareObject lookups replicas ns s object with
    | error e => simp [planBundle, hp] at h
    | ok entry =>
      simp only [planBundle, hp] at h ⊢
      rw [List.map_cons, ih h, (prepareObject_ok hp).1]

theorem prepareObject_current {c : Nat} (h : prepareObject lookups replicas ns s object = .ok entry)
    (recorded : ∀ instances, s.get ns entry.id = some instances → instances.currentReplicaCount = c)
    (new : s.get ns entry.id = none → ∀ n, newReplicaCount lookups ns object = .ok n → n = c) :
    entry.instances.currentReplicaCount = c := by
  obtain ⟨_, instances, hc, hinst⟩ := prepareObject_ok h
  have hcurrent : entry.instances.currentReplicaCount = instances.currentReplicaCount := by
    rw [hinst]
  rw [hcurrent]
  rcases currentInstances_ok hc with hs | ⟨hs, n, hn, rfl⟩
  · exact recorded instances hs
  · exact new hs n hn

/-- The loop over the bundle finds the current count that was recorded before
it, also when two objects of the bundle share an identifier. -/
theorem planBundle_current {bundle : List Object} {e : Entry lookups replicas} {c : Nat}
    (he : e ∈ (planBundle lookups replicas ns bundle s).1)
    (recorded : ∀ instances, s.get ns e.id = some instances → instances.currentReplicaCount = c)
    (new : s.get ns e.id = none →
      ∀ object ∈ bundle, ∀ n, newReplicaCount lookups ns object = .ok n → n = c) :
    e.instances.currentReplicaCount = c := by
  induction bundle generalizing s with
  | nil => cases he
  | cons object bundle ih =>
    cases hp : prepareObject lookups replicas ns s object with
    | error err => simp [planBundle, hp] at he
    | ok entry =>
      have hfirst : entry.id = e.id → entry.instances.currentReplicaCount = c := by
        intro hid
        refine prepareObject_current hp (hid ▸ recorded) (fun hs => ?_)
        exact new (hid ▸ hs) object List.mem_cons_self
      simp only [planBundle, hp, List.mem_cons] at he
      rcases he with rfl | he
      · exact hfirst rfl
      · apply ih he
        · intro instances hget
          by_cases hid : e.id = entry.id
          · rw [hid, NamespacesState.get_set_self] at hget
            rw [← Option.some.inj hget]
            exact hfirst hid.symm
          · rw [NamespacesState.get_set_other _ _ (fun h => hid h.2)] at hget
            exact recorded instances hget
        · intro hget
          by_cases hid : e.id = entry.id
          · rw [hid, NamespacesState.get_set_self] at hget
            cases hget
          · rw [NamespacesState.get_set_other _ _ (fun h => hid h.2)] at hget
            exact fun o ho => new hget o (List.mem_cons_of_mem _ ho)

theorem verifyBundleCorrectness_agree {first : InstancesState} {states : List InstancesState}
    (h : verifyBundleCorrectness (first :: states) = none) :
    ∀ st ∈ first :: states, st.currentReplicaCount = first.currentReplicaCount := by
  induction states generalizing first with
  | nil => intro st hst; rw [List.mem_singleton.mp hst]
  | cons next rest ih =>
    rw [verifyBundleCorrectness] at h
    split at h
    · cases h
    · rename_i hsame
      intro st hst
      rcases List.mem_cons.mp hst with rfl | hst
      · rfl
      · rw [ih h st hst]
        exact not_not.mp hsame

/-- A namespace whose bundle passed the checks. -/
structure Accepted (lookups : Lookups) (phase : Phase) where
  ns : String
  current : Nat
  entries : List (Entry lookups phase.replicasPerNamespace)
  covers : entries.map Entry.object = phase.objectBundle
  agree : ∀ e ∈ entries, e.instances.currentReplicaCount = current
  nonempty : entries ≠ []

/-- A namespace at which the phase gives up, with the objects handled there. -/
structure Stop (lookups : Lookups) (phase : Phase) where
  ns : String
  handled : List (Entry lookups phase.replicasPerNamespace)
  result : Option (List String)

structure Plan (lookups : Lookups) (phase : Phase) where
  accepted : List (Accepted lookups phase)
  stopped : Option (Stop lookups phase)

def checkNamespace (lookups : Lookups) (phase : Phase) (ns : String) (s : NamespacesState) :
    Stop lookups phase ⊕ Accepted lookups phase :=
  match plan : planBundle lookups phase.replicasPerNamespace ns phase.objectBundle s with
  | (handled, some e) => .inl ⟨ns, handled, some [e]⟩
  | ([], none) => .inl ⟨ns, [], none⟩
  | (first :: rest, none) =>
    match verified : verifyBundleCorrectness ((first :: rest).map Entry.instances) with
    | some e => .inl ⟨ns, first :: rest, some [e]⟩
    | none => .inr ⟨ns, first.instances.currentReplicaCount, first :: rest,
        by
          have hc := planBundle_covers (congrArg Prod.snd plan)
          rwa [plan] at hc,
        fun e he => verifyBundleCorrectness_agree verified _ (List.mem_map_of_mem he),
        List.cons_ne_nil _ _⟩

section CheckNamespace
variable {lookups : Lookups} {phase : Phase} {ns : String} {s : NamespacesState}
variable {stop : Stop lookups phase}

/-- The three places at which an iteration gives up: an object's error, an
empty bundle, and states that disagree. -/
theorem checkNamespace_inl (h : checkNamespace lookups phase ns s = .inl stop) :
    (∃ handled e, planBundle lookups phase.replicasPerNamespace ns phase.objectBundle s =
        (handled, some e) ∧ stop = ⟨ns, handled, some [e]⟩) ∨
      (planBundle lookups phase.replicasPerNamespace ns phase.objectBundle s = ([], none) ∧
        stop = ⟨ns, [], none⟩) ∨
      ∃ first rest e, planBundle lookups phase.replicasPerNamespace ns phase.objectBundle s =
          (first :: rest, none) ∧
        verifyBundleCorrectness ((first :: rest).map Entry.instances) = some e ∧
        stop = ⟨ns, first :: rest, some [e]⟩ := by
  rw [checkNamespace] at h
  split at h
  · rename_i handled e plan
    exact .inl ⟨handled, e, plan, (Sum.inl.inj h).symm⟩
  · rename_i plan
    exact .inr (.inl ⟨plan, (Sum.inl.inj h).symm⟩)
  · rename_i first rest plan
    split at h
    · rename_i e verified
      exact .inr (.inr ⟨first, rest, e, plan, verified, (Sum.inl.inj h).symm⟩)
    · cases h

theorem checkNamespace_inr {a : Accepted lookups phase}
    (h : checkNamespace lookups phase ns s = .inr a) :
    a.ns = ns ∧ ∃ first rest, a.entries = first :: rest ∧
      a.current = first.instances.currentReplicaCount ∧
      planBundle lookups phase.replicasPerNamespace ns phase.objectBundle s =
        (first :: rest, none) ∧
      verifyBundleCorrectness ((first :: rest).map Entry.instances) = none := by
  rw [checkNamespace] at h
  split at h
  · cases h
  · cases h
  · rename_i first rest plan
    split at h
    · cases h
    · rename_i verified
      obtain rfl := Sum.inr.inj h
      exact ⟨rfl, first, rest, rfl, rfl, plan, verified⟩

theorem checkNamespace_stop (h : checkNamespace lookups phase ns s = .inl stop) :
    stop.ns = ns ∧ stop.handled =
      (planBundle lookups phase.replicasPerNamespace ns phase.objectBundle s).1 := by
  rcases checkNamespace_inl h with ⟨_, _, plan, rfl⟩ | ⟨plan, rfl⟩ | ⟨_, _, _, plan, _, rfl⟩
  · exact ⟨rfl, (congrArg Prod.fst plan).symm⟩
  · exact ⟨rfl, (congrArg Prod.fst plan).symm⟩
  · exact ⟨rfl, (congrArg Prod.fst plan).symm⟩

/-- A phase gives up with an error, unless its bundle is empty. -/
theorem checkNamespace_result (h : checkNamespace lookups phase ns s = .inl stop) :
    (∃ e, stop.result = some [e]) ∨ phase.objectBundle = [] := by
  rcases checkNamespace_inl h with ⟨_, e, _, rfl⟩ | ⟨plan, rfl⟩ | ⟨_, _, e, _, _, rfl⟩
  · exact .inl ⟨e, rfl⟩
  · have hc := planBundle_covers (congrArg Prod.snd plan)
    rw [plan] at hc
    exact .inr hc.symm
  · exact .inl ⟨e, rfl⟩

theorem checkNamespace_accept {a : Accepted lookups phase}
    (h : checkNamespace lookups phase ns s = .inr a) :
    a.ns = ns ∧ planBundle lookups phase.replicasPerNamespace ns phase.objectBundle s =
      (a.entries, none) := by
  obtain ⟨hns, first, rest, hentries, _, plan, _⟩ := checkNamespace_inr h
  exact ⟨hns, hentries ▸ plan⟩

end CheckNamespace

namespace Accepted
variable {lookups : Lookups} {phase : Phase}

def record (a : Accepted lookups phase) (s : NamespacesState) : NamespacesState :=
  writeAll a.ns Entry.instances a.entries s

def commit (a : Accepted lookups phase) (s : NamespacesState) : NamespacesState :=
  writeAll a.ns Entry.committed a.entries s

def actions (a : Accepted lookups phase) (ctx : Context) : List (Program (List String)) :=
  namespaceActions ctx phase a.ns a.current (a.entries.map Entry.instances)

/-- The bundle paired with its states, as the actions see it. -/
theorem zip_states (a : Accepted lookups phase) :
    phase.objectBundle.zip (a.entries.map Entry.instances) =
      a.entries.map fun e => (e.object, e.instances) := by
  rw [← a.covers, List.zip_map']

end Accepted

section Iteration
variable {lookups : Lookups} {phase : Phase} {ns : String} {s : NamespacesState}

/-- The rest of an iteration gives up where the check of the namespace does. -/
theorem afterBundle_stop {stop : Stop lookups phase}
    (h : checkNamespace lookups phase ns s = .inl stop) (ctx : Context)
    (actions : List (Program (List String)))
    (loop : List (Program (List String)) → Program (Option (List String))) :
    afterBundle ctx phase ns actions loop (bundleResult
        (planBundle lookups phase.replicasPerNamespace ns phase.objectBundle s)) =
      .done stop.result := by
  rcases checkNamespace_inl h with ⟨_, _, plan, rfl⟩ | ⟨plan, rfl⟩ | ⟨_, _, e, plan, verified, rfl⟩
  · rw [plan]
    rfl
  · rw [plan]
    rfl
  · simp only [plan, bundleResult, afterBundle, verified]
    rfl

/-- Otherwise it goes on with the actions of the namespace and defers its commit. -/
theorem writeAll_of_accept {a : Accepted lookups phase}
    (h : checkNamespace lookups phase ns s = .inr a) :
    writeAll ns Entry.instances (planBundle lookups phase.replicasPerNamespace ns
      phase.objectBundle s).1 s = a.record s := by
  obtain ⟨rfl, hentries⟩ := checkNamespace_accept h
  rw [Accepted.record, hentries]

theorem afterBundle_accept {a : Accepted lookups phase}
    (h : checkNamespace lookups phase ns s = .inr a) (ctx : Context)
    (actions : List (Program (List String)))
    (loop : List (Program (List String)) → Program (Option (List String))) :
    afterBundle ctx phase ns actions loop (bundleResult
        (planBundle lookups phase.replicasPerNamespace ns phase.objectBundle s)) = do
      let result ← loop (actions ++ a.actions ctx)
      updateCurrentCounts a.ns (a.entries.map fun e => (e.object, e.instances))
      return result := by
  obtain ⟨hns, first, rest, hentries, hcurrent, plan, verified⟩ := checkNamespace_inr h
  rw [List.map_cons] at verified
  rw [← a.zip_states]
  simp only [plan, bundleResult, afterBundle, List.map_cons, verified, Accepted.actions, hns,
    hentries, hcurrent]

end Iteration

/-- The loop over the namespaces. -/
def planNamespaces (lookups : Lookups) (phase : Phase) :
    List String → NamespacesState → Plan lookups phase
  | [], _ => ⟨[], none⟩
  | ns :: rest, s =>
    match checkNamespace lookups phase ns s with
    | .inl stop => ⟨[], some stop⟩
    | .inr a =>
      let plan := planNamespaces lookups phase rest (a.record s)
      ⟨a :: plan.accepted, plan.stopped⟩

namespace Plan
variable {lookups : Lookups} {phase : Phase}

/-- The state when the loop is left. -/
def record (plan : Plan lookups phase) (s : NamespacesState) : NamespacesState :=
  let recorded := plan.accepted.foldl (fun s a => a.record s) s
  match plan.stopped with
  | none => recorded
  | some stop => writeAll stop.ns Entry.instances stop.handled recorded

/-- What is deferred runs last in, first out. -/
def commit (plan : Plan lookups phase) (s : NamespacesState) : NamespacesState :=
  plan.accepted.foldr (fun a s => a.commit s) s

def actions (plan : Plan lookups phase) (ctx : Context) : List (Program (List String)) :=
  plan.accepted.flatMap fun a => a.actions ctx

end Plan

section Tables
variable {lookups : Lookups} {phase : Phase}

/-- The entries that the accepted namespaces write. -/
def Touched (accepted : List (Accepted lookups phase)) (n : String) (i : InstancesIdentifier) :
    Prop :=
  ∃ a ∈ accepted, a.ns = n ∧ ∃ e ∈ a.entries, e.id = i

variable {n : String} {i : InstancesIdentifier}

theorem touched_cons {a : Accepted lookups phase} {rest : List (Accepted lookups phase)} :
    Touched (a :: rest) n i ↔ (a.ns = n ∧ ∃ e ∈ a.entries, e.id = i) ∨ Touched rest n i := by
  simp only [Touched, List.mem_cons, exists_eq_or_imp]

variable {accepted : List (Accepted lookups phase)}

theorem touched_iff : Touched accepted n i ↔ n ∈ accepted.map Accepted.ns ∧
      ∃ object ∈ phase.objectBundle, identifierOf lookups object = .ok i := by
  constructor
  · rintro ⟨a, ha, rfl, e, he, rfl⟩
    refine ⟨List.mem_map_of_mem ha, e.object, ?_, e.named⟩
    rw [← a.covers]
    exact List.mem_map_of_mem he
  · rintro ⟨hn, object, ho, hid⟩
    obtain ⟨a, ha, rfl⟩ := List.mem_map.mp hn
    rw [← a.covers] at ho
    obtain ⟨e, he, rfl⟩ := List.mem_map.mp ho
    exact ⟨a, ha, rfl, e, he, Except.ok.inj (e.named.symm.trans hid)⟩

theorem get_recordAll_other (h : ¬ Touched accepted n i) (s : NamespacesState) :
    (accepted.foldl (fun s a => a.record s) s).get n i = s.get n i := by
  induction accepted generalizing s with
  | nil => rfl
  | cons a rest ih =>
    rw [touched_cons, not_or] at h
    rw [List.foldl_cons, ih h.2]
    exact get_writeAll_other _ s (fun e he heq => h.1 ⟨heq.1.symm, e, he, heq.2.symm⟩)

theorem get_commitAll_other (h : ¬ Touched accepted n i) (s : NamespacesState) :
    (accepted.foldr (fun a s => a.commit s) s).get n i = s.get n i := by
  induction accepted with
  | nil => rfl
  | cons a rest ih =>
    rw [touched_cons, not_or] at h
    rw [← ih h.2]
    exact get_writeAll_other _ _ (fun e he heq => h.1 ⟨heq.1.symm, e, he, heq.2.symm⟩)

theorem get_commitAll_touched (h : Touched accepted n i) (s : NamespacesState) :
    ∃ e : Entry lookups phase.replicasPerNamespace, e.id = i ∧
      (accepted.foldr (fun a s => a.commit s) s).get n i = some e.committed := by
  induction accepted with
  | nil => obtain ⟨a, ha, _⟩ := h; cases ha
  | cons a rest ih =>
    by_cases hhead : a.ns = n ∧ ∃ e ∈ a.entries, e.id = i
    · obtain ⟨rfl, hmem⟩ := hhead
      obtain ⟨e, _, hid, hget⟩ := get_writeAll_mem a.ns Entry.committed
        (rest.foldr (fun a s => a.commit s) s) hmem
      exact ⟨e, hid, hget⟩
    · obtain ⟨e, hid, hget⟩ := ih ((touched_cons.mp h).resolve_left hhead)
      refine ⟨e, hid, Eq.trans ?_ hget⟩
      exact get_writeAll_other _ _
        (fun e' he' heq => hhead ⟨heq.1.symm, e', he', heq.2.symm⟩)

end Tables

/-- Where the loop gives up, it has handled part of the bundle in the state
left by the namespaces before. -/
theorem planNamespaces_stopped {phase : Phase} {nsList : List String} {stop : Stop lookups phase}
    (h : (planNamespaces lookups phase nsList s).stopped = some stop) :
    stop.handled = (planBundle lookups phase.replicasPerNamespace stop.ns phase.objectBundle
      ((planNamespaces lookups phase nsList s).accepted.foldl (fun s a => a.record s) s)).1 := by
  induction nsList generalizing s with
  | nil => cases h
  | cons ns rest ih =>
    cases hcheck : checkNamespace lookups phase ns s with
    | inl stop' =>
      simp only [planNamespaces, hcheck, Option.some.injEq, List.foldl_nil] at h ⊢
      obtain ⟨hns, hhandled⟩ := checkNamespace_stop hcheck
      rw [← h, hhandled, hns]
    | inr a =>
      simp only [planNamespaces, hcheck] at h ⊢
      exact ih h

section Runs
variable {E : Type} (out : Outside E)

theorem run_getIdentifier (object : Object) (w : World E) :
    run (answer out) (getIdentifier object) w = (identifierOf out.lookups object, w) := rfl

theorem run_getReplicaCountOfNewObject (ns : String) (object : Object) (w : World E) :
    run (answer out) (getReplicaCountOfNewObject ns object) w =
      (newReplicaCount out.lookups ns object, w) := by
  unfold getReplicaCountOfNewObject newReplicaCount
  cases object.listUnknownObjectOptions with
  | none => rfl
  | some options =>
    simp only [request_bind, run_ask, answer]
    cases out.lookups.labelSelectorAsSelector options.labelSelector with
    | error e => rfl
    | ok selector =>
      simp only [run_ask, answer]
      cases out.lookups.rawToObject object.objectTemplatePath with
      | error e => rfl
      | ok gvk =>
        simp only [run_ask, answer]
        cases out.lookups.getNumObjectsMatchingSelector ns object gvk selector <;> rfl

theorem run_findInstances (ns : String) (id : InstancesIdentifier) (object : Object)
    (w : World E) :
    run (answer out) (findInstances ns id object) w =
      (currentInstances out.lookups ns id w.state object, w) := by
  unfold findInstances currentInstances
  simp only [request_bind, run_ask, answer]
  cases w.state.get ns id with
  | some instances => rfl
  | none =>
    simp only [run_bind, run_getReplicaCountOfNewObject]
    rfl

theorem run_updateDesiredCount (replicas : Nat) (ns : String) (object : Object) (w : World E) :
    run (answer out) (updateDesiredCount replicas ns object) w =
      match prepareObject out.lookups replicas ns w.state object with
      | .error e => (.error e, w)
      | .ok entry =>
        (.ok entry.instances, { w with state := w.state.set ns entry.id entry.instances }) := by
  rw [updateDesiredCount, run_bind, run_getIdentifier]
  cases named : identifierOf out.lookups object with
  | error e => rw [prepareObject_unnamed named]; rfl
  | ok id =>
    simp only [prepareObject_named named, run_bind, run_findInstances]
    cases currentInstances out.lookups ns id w.state object <;> rfl

theorem run_updateDesiredCounts (replicas : Nat) (ns : String) (bundle : List Object)
    (w : World E) :
    run (answer out) (updateDesiredCounts replicas ns bundle) w =
      let plan := planBundle out.lookups replicas ns bundle w.state
      (bundleResult plan, { w with state := writeAll ns Entry.instances plan.1 w.state }) := by
  induction bundle generalizing w with
  | nil => rfl
  | cons object bundle ih =>
    rw [updateDesiredCounts, run_bind, run_updateDesiredCount, planBundle]
    cases prepareObject out.lookups replicas ns w.state object with
    | error e => rfl
    | ok entry =>
      simp only [run_bind, ih]
      rcases planBundle out.lookups replicas ns bundle
        (w.state.set ns entry.id entry.instances) with ⟨handled, _ | e⟩ <;> rfl

theorem run_updateCurrentCounts (ns : String) (entries : List (Entry out.lookups replicas))
    (w : World E) :
    run (answer out) (updateCurrentCounts ns (entries.map fun e => (e.object, e.instances))) w =
      ((), { w with state := writeAll ns Entry.committed entries w.state }) := by
  induction entries generalizing w with
  | nil => rfl
  | cons e rest ih =>
    rw [List.map_cons, updateCurrentCounts, run_bind, run_getIdentifier, e.named]
    exact ih _

/-- A run carries out its plan: it records the desired counts, gives up with
the result of the stop or runs the actions, and commits what it deferred. -/
theorem run_executeNamespaces (ctx : Context) (phase : Phase) (tuningSet : TuningSet)
    (nsList : List String) (actions : List (Program (List String))) (w : World E) :
    run (answer out) (executeNamespaces ctx phase tuningSet nsList actions) w =
      let plan := planNamespaces out.lookups phase nsList w.state
      match plan.stopped with
      | some stop => (stop.result, { w with state := plan.commit (plan.record w.state) })
      | none =>
        let r := run (answer out) (interleave tuningSet.schedule (actions ++ plan.actions ctx))
          { w with state := plan.record w.state }
        (some r.1.flatten, { r.2 with state := plan.commit r.2.state }) := by
  induction nsList generalizing actions w with
  | nil =>
    simp only [executeNamespaces, run_bind, planNamespaces, Plan.actions, List.flatMap_nil,
      List.append_nil]
    rfl
  | cons ns rest ih =>
    rw [executeNamespaces, run_bind, run_updateDesiredCounts, planNamespaces]
    cases hcheck : checkNamespace out.lookups phase ns w.state with
    | inl stop =>
      obtain ⟨rfl, hhandled⟩ := checkNamespace_stop hcheck
      simp only [afterBundle_stop hcheck, Plan.record, hhandled]
      rfl
    | inr a =>
      simp only [afterBundle_accept hcheck, writeAll_of_accept hcheck, run_bind, ih,
        List.append_assoc]
      cases hstop : (planNamespaces out.lookups phase rest (a.record w.state)).stopped <;>
        simp only [run_updateCurrentCounts, Plan.record, hstop] <;>
        rfl

end Runs

end PhasePlan
