import ClusterLoader.DisjointPools
import ClusterLoader.ReplicaConvergence

/-!
# Phases of one step running in parallel

ExecuteStep starts the phases of a step together; they share the table of
counts and the cluster. Here every object has a state of its own, and a call
on an object reads and changes only that. Phases that touch disjoint sets of
identifiers then have disjoint footprints, and the interleaving of their calls
is invisible: counts, objects and errors are those of a serial execution.

The footprint of a phase is what its identifiers name, which again needs that
rendering keeps kind and group. Listings would observe the whole cluster, so
objects with listing options are excluded. Measurements of the step are not
modelled.
-/

namespace ParallelPhases

open RequestPrograms RequestPrograms.Prog PhaseRequests PhaseExecution PhasePlan
open RejectedPhases ClusterObjects ReplicaConvergence DisjointPools

/-- What the calls do with the state `S` of the one object they address. -/
structure ObjectApi (S : Type) where
  create : Address → Unstructured → S → Option String × S
  patch : Address → Unstructured → S → Option String × S
  delete : Address → GroupVersionKind → S → Option String × S

/-- A call on the object at `a`. -/
def callAt {S : Type} (a : Address) (call : S → Option String × S) (c : Address → S) :
    Option String × (Address → S) :=
  ((call (c a)).1, Function.update c a (call (c a)).2)

theorem callAt_frame {S : Type} {a b : Address} (h : b ≠ a) (call : S → Option String × S)
    (c : Address → S) : (callAt a call c).2 b = c b :=
  Function.update_of_ne h _ _

theorem callAt_same {S : Type} {a : Address} (call : S → Option String × S) {c c' : Address → S}
    (h : c a = c' a) :
    (callAt a call c).1 = (callAt a call c').1 ∧
      (callAt a call c).2 a = (callAt a call c').2 a := by
  simp only [callAt, Function.update_self, h, and_self]

def localOperations {S : Type} (render : String → Mapping → Except TemplateError Unstructured)
    (api : ObjectApi S) : Operations (Address → S) where
  templateToObject := render
  createObject ns name obj :=
    let a := objectAddress ns name obj.gvk
    callAt a (api.create a obj)
  patchObject ns name obj :=
    let a := objectAddress ns name obj.gvk
    callAt a (api.patch a obj)
  deleteObject gvk ns name :=
    let a := objectAddress ns name gvk
    callAt a (api.delete a gvk)

/-- The places two phases can share: entries of the table, and objects. -/
inductive Place where
  | entry (n : String) (i : InstancesIdentifier)
  | object (a : Address)

def Content (S : Type) : Place → Type
  | .entry _ _ => Option InstancesState
  | .object _ => S

def content {S : Type} (w : World (Address → S)) : (k : Place) → Content S k
  | .entry n i => w.state.get n i
  | .object a => w.outside a

/-- The places a call depends on. A listing depends on all of them. -/
def touches : Request → Place → Prop
  | .getInstances n i, k => k = .entry n i
  | .setInstances n i _, k => k = .entry n i
  | .createObject ns name obj, k => k = .object (objectAddress ns name obj.gvk)
  | .patchObject ns name obj, k => k = .object (objectAddress ns name obj.gvk)
  | .deleteObject gvk ns name, k => k = .object (objectAddress ns name gvk)
  | .getNumObjectsMatchingSelector _ _ _ _, _ => True
  | _, _ => False

section Locality
variable {S : Type} (lookups : Lookups)
variable (render : String → Mapping → Except TemplateError Unstructured) (api : ObjectApi S)

theorem answer_local :
    Local (answer ⟨lookups, localOperations render api⟩) content touches where
  frame q w k hk := by
    cases q with
    | setInstances n i instances =>
      cases k with
      | entry n' i' =>
        refine NamespacesState.get_set_other w.state instances fun heq => hk ?_
        rw [heq.1, heq.2]
        rfl
      | object a => rfl
    | createObject | patchObject | deleteObject =>
      cases k with
      | entry n i => rfl
      | object a => exact callAt_frame (fun heq => hk (congrArg Place.object heq)) _ _
    | _ => cases k <;> rfl
  reply q w w' same := by
    cases q with
    | getInstances n i => exact same (.entry n i) rfl
    | createObject | patchObject | deleteObject => exact (callAt_same _ (same (.object _) rfl)).1
    | _ => rfl
  effect q w w' same k hk := by
    cases q with
    | setInstances n i instances =>
      obtain rfl : k = .entry n i := hk
      exact (NamespacesState.get_set_self _ _ _ _).trans
        (NamespacesState.get_set_self _ _ _ _).symm
    | createObject ns name obj | patchObject ns name obj =>
      obtain rfl : k = .object (objectAddress ns name obj.gvk) := hk
      exact (callAt_same _ (same (.object _) rfl)).2
    | deleteObject gvk ns name =>
      obtain rfl : k = .object (objectAddress ns name gvk) := hk
      exact (callAt_same _ (same (.object _) rfl)).2
    | _ => exact same k hk

end Locality

/-- The entries a phase touches, and the replicas they name. -/
def footprint (lookups : Lookups) (step : Context × Phase) : Set Place
  | .entry n i => Touches lookups step n i
  | .object a => ∃ n i k, Touches lookups step n i ∧ a = replicaAddress n i k

theorem footprint_disjoint {lookups : Lookups} {step step' : Context × Phase}
    (h : ∀ n i, Touches lookups step n i → ¬ Touches lookups step' n i) :
    ∀ k, k ∈ footprint lookups step → k ∉ footprint lookups step' := by
  rintro (⟨n, i⟩ | a) hk hk'
  · exact h n i hk hk'
  · obtain ⟨n, i, k, ht, rfl⟩ := hk
    obtain ⟨n', i', k', ht', haddress⟩ := hk'
    obtain ⟨rfl, rfl, _⟩ := replicaAddress_inj haddress
    exact h n i ht ht'

/-- The call keeps to the footprint. -/
def Inside (lookups : Lookups) (step : Context × Phase) (q : Request) : Prop :=
  ∀ k, touches q k → k ∈ footprint lookups step

section Footprint
variable {E : Type} {out : Outside E} {ctx : Context} {phase : Phase}
variable {n : String} {object : Object}

theorem touches_of_gvk (hn : n ∈ (namespacesOf ctx phase).getD [])
    (ho : object ∈ phase.objectBundle) {gvk : GroupVersionKind}
    (hraw : out.lookups.rawToObject object.objectTemplatePath = .ok gvk) :
    Touches out.lookups (ctx, phase) n ⟨object.basename, gvk.kind, gvk.group⟩ := by
  refine ⟨hn, object, ho, ?_⟩
  rw [identifierOf, hraw]
  rfl

theorem inside_object (hn : n ∈ (namespacesOf ctx phase).getD [])
    (ho : object ∈ phase.objectBundle) (unlisted : object.listUnknownObjectOptions = none) :
    AllowsObject (Answered out) (Inside out.lookups (ctx, phase)) n object where
  raw k hk := hk.elim
  selector options hsome := by cases unlisted.symm.trans hsome
  listing options _ _ hsome := by cases unlisted.symm.trans hsome
  get gvk := by
    rintro ⟨w, hraw⟩ k rfl
    exact touches_of_gvk hn ho hraw.symm
  set gvk := by
    rintro ⟨w, hraw⟩ instances k rfl
    exact touches_of_gvk hn ho hraw.symm

theorem inside_operation (keeps : KeepsKind out (ctx, phase))
    (hn : n ∈ (namespacesOf ctx phase).getD [])
    (ho : object ∈ phase.objectBundle) {gvk : GroupVersionKind}
    (hraw : out.lookups.rawToObject object.objectTemplatePath = .ok gvk) (i : Nat)
    (operation : OperationType) :
    AllowsOperation (Answered out) (Inside out.lookups (ctx, phase)) ctx n object i operation := by
  have hreplica : .object (replicaAddress n ⟨object.basename, gvk.kind, gvk.group⟩ i) ∈
      footprint out.lookups (ctx, phase) :=
    ⟨n, _, i, touches_of_gvk hn ho hraw, rfl⟩
  cases operation with
  | createObject | patchObject =>
    refine ⟨fun k hk => hk.elim, fun obj answered k hk => ?_⟩
    obtain ⟨w, hobj⟩ := answered
    obtain ⟨hkind, hgroup⟩ := keeps object ho n i obj gvk hobj.symm hraw
    obtain rfl : k = .object _ := hk
    simpa only [objectAddress, replicaAddress, hkind, hgroup] using hreplica
  | deleteObject =>
    refine ⟨fun k hk => hk.elim, fun gvk' answered k hk => ?_⟩
    obtain ⟨w, hgvk⟩ := answered
    obtain rfl : gvk' = gvk := Except.ok.inj (hgvk.trans hraw)
    obtain rfl : k = .object _ := hk
    exact hreplica

theorem updateDesiredCount_read {replicas : Nat}
    {t : List (Event Reply)} {instances : InstancesState}
    (he : Exec (updateDesiredCount replicas n object) t (.ok instances))
    (answered : ∀ e ∈ t, Answered out e.1 e.2) :
    ∃ gvk, out.lookups.rawToObject object.objectTemplatePath = .ok gvk := by
  obtain ⟨r, t', rfl, tail⟩ := exec_ask he
  obtain ⟨w, hr⟩ := answered _ List.mem_cons_self
  cases r with
  | error e => cases (exec_done tail).2
  | ok gvk => exact ⟨gvk, hr.symm⟩

/-- When the loop over the bundle comes to its end, it has read every template. -/
theorem updateDesiredCounts_read {replicas : Nat} {bundle : List Object}
    {t : List (Event Reply)} {states : List InstancesState}
    (he : Exec (updateDesiredCounts replicas n bundle) t (.ok states))
    (answered : ∀ e ∈ t, Answered out e.1 e.2) :
    ∀ object ∈ bundle, ∃ gvk, out.lookups.rawToObject object.objectTemplatePath = .ok gvk := by
  induction bundle generalizing t states with
  | nil => simp
  | cons first rest ih =>
    obtain ⟨t₁, found, t₂, rfl, h₁, h₂⟩ := exec_bind he
    cases found with
    | error e => cases (exec_done h₂).2
    | ok instances =>
      obtain ⟨t₃, others, t₄, rfl, h₃, h₄⟩ := exec_bind h₂
      cases others with
      | error e => cases (exec_done h₄).2
      | ok states' =>
        intro object ho
        rcases List.mem_cons.mp ho with rfl | ho
        · exact updateDesiredCount_read h₁ fun e he => answered e (List.mem_append_left _ he)
        · exact ih h₃ (fun e he => answered e
            (List.mem_append_right _ (List.mem_append_left _ he))) object ho

theorem inside_updateCurrentCounts (hn : n ∈ (namespacesOf ctx phase).getD [])
    {pairs : List (Object × InstancesState)}
    (read : ∀ pair ∈ pairs, pair.1 ∈ phase.objectBundle ∧
      ∃ gvk, out.lookups.rawToObject pair.1.objectTemplatePath = .ok gvk) :
    (updateCurrentCounts n pairs).Uses (Answered out) (Inside out.lookups (ctx, phase)) := by
  induction pairs with
  | nil => trivial
  | cons pair rest ih =>
    obtain ⟨ho, gvk, hraw⟩ := read pair List.mem_cons_self
    refine ⟨fun k hk => hk.elim, fun r answered => ?_⟩
    obtain ⟨w, hr⟩ := answered
    obtain rfl : r = .ok gvk := hr.trans hraw
    refine ⟨?_, fun _ _ => ih fun pair hp => read pair (List.mem_cons_of_mem _ hp)⟩
    rintro k rfl
    exact touches_of_gvk hn ho hraw

/-- A phase keeps to its footprint. -/
theorem inside_executeNamespaces (keeps : KeepsKind out (ctx, phase))
    (unlisted : ∀ object ∈ phase.objectBundle, object.listUnknownObjectOptions = none)
    (tuningSet : TuningSet) {nsList : List String}
    (hns : ∀ n ∈ nsList, n ∈ (namespacesOf ctx phase).getD [])
    {actions : List (Program (List String))}
    (hactions : ∀ p ∈ actions, p.Uses (Answered out) (Inside out.lookups (ctx, phase))) :
    (executeNamespaces ctx phase tuningSet nsList actions).Uses (Answered out)
      (Inside out.lookups (ctx, phase)) := by
  induction nsList generalizing actions with
  | nil => exact uses_bind (uses_interleave _ hactions) (fun _ => trivial)
  | cons n rest ih =>
    have hn := hns n List.mem_cons_self
    refine uses_bind_exec (uses_updateDesiredCounts fun object ho =>
      inside_object hn ho (unlisted object ho)) (fun found t he answered => ?_)
    cases found with
    | error e => trivial
    | ok states =>
      have read := updateDesiredCounts_read he answered
      simp only [afterBundle]
      split
      · trivial
      · trivial
      · refine uses_bind (ih (fun n hn => hns n (List.mem_cons_of_mem _ hn)) fun p hp => ?_)
          fun result => uses_bind (inside_updateCurrentCounts hn fun pair hpair => ?_) fun _ => ?_
        · rcases List.mem_append.mp hp with hp | hp
          · exact hactions p hp
          · refine uses_namespaceActions (fun object ho i operation _ => ?_) hp
            obtain ⟨gvk, hraw⟩ := read object ho
            exact inside_operation keeps hn ho hraw i operation
        · have ho := (List.of_mem_zip hpair).1
          exact ⟨ho, read pair.1 ho⟩
        · trivial

theorem inside_executePhase (keeps : KeepsKind out (ctx, phase))
    (unlisted : ∀ object ∈ phase.objectBundle, object.listUnknownObjectOptions = none)
    {prog : Program (Option (List String))} (returns : executePhase ctx phase = some prog) :
    Within touches (Answered out) (footprint out.lookups (ctx, phase)) prog := by
  obtain ⟨nsList, namespaces⟩ := executePhase_namespaces returns
  cases created : ctx.createTuningSet phase.tuningSet with
  | error e =>
    obtain rfl := executePhase_refused returns created
    trivial
  | ok tuningSet =>
    obtain rfl := executePhase_created returns created namespaces
    refine inside_executeNamespaces keeps unlisted tuningSet (fun n hn => ?_) (by simp)
    rwa [namespaces]

end Footprint

/-- A phase changes nothing outside its footprint, and what it returns and leaves
there depends on nothing else, whatever its calls return. -/
theorem phase_confined {S : Type} {lookups : Lookups} {api : ObjectApi S}
    {render : String → Mapping → Except TemplateError Unstructured} {ctx : Context} {phase : Phase}
    (keeps : KeepsKind ⟨lookups, localOperations render api⟩ (ctx, phase))
    (unlisted : ∀ object ∈ phase.objectBundle, object.listUnknownObjectOptions = none)
    {prog : Program (Option (List String))} (returns : executePhase ctx phase = some prog)
    (w w' : World (Address → S)) :
    let after := run (answer ⟨lookups, localOperations render api⟩) prog
    (∀ k ∉ footprint lookups (ctx, phase), content (after w).2 k = content w k) ∧
      (Agree content (footprint lookups (ctx, phase)) w w' → (after w).1 = (after w').1 ∧
        Agree content (footprint lookups (ctx, phase)) (after w).2 (after w').2) := by
  have within := inside_executePhase keeps unlisted returns
  have hlocal := answer_local lookups render api
  exact ⟨fun k hk => run_frame hlocal (fun q w => ⟨w, rfl⟩) within w hk,
    run_agree hlocal (fun q w => ⟨w, rfl⟩) within⟩

/-- The errors of the phases of a step, in some order. -/
def stepErrors (results : List (Option (List String))) : List String :=
  results.flatMap fun errs => errs.getD []

/-- However the calls of phases with disjoint identifiers are interleaved, the
table of counts, the cluster and the collected errors are those of executing
the phases one after another, in whatever order. -/
theorem parallel_phases_eq_serial {S : Type} (lookups : Lookups)
    (render : String → Mapping → Except TemplateError Unstructured) (api : ObjectApi S)
    (ctx : Context) {n : Nat} (phases : Fin n → Phase)
    (pool : Fin n → Program (Option (List String)))
    (returns : ∀ i, executePhase ctx (phases i) = some (pool i))
    (unlisted : ∀ i, ∀ object ∈ (phases i).objectBundle, object.listUnknownObjectOptions = none)
    (keeps : ∀ i, KeepsKind ⟨lookups, localOperations render api⟩ (ctx, phases i))
    (disjoint : ∀ i j, i ≠ j → ∀ ns id, Touches lookups (ctx, phases i) ns id →
      ¬ Touches lookups (ctx, phases j) ns id)
    (start : World (Address → S)) (schedule : List (Fin n)) {result : Fin n → Option (List String)}
    (finished : Finished
      (runPool (answer ⟨lookups, localOperations render api⟩) schedule (pool, start)) result)
    {order : List (Fin n)} (nodup : order.Nodup) (all : ∀ i, i ∈ order) :
    let parallel := (runPool (answer ⟨lookups, localOperations render api⟩) schedule
      (pool, start)).2
    let serial := runSerial (answer ⟨lookups, localOperations render api⟩) pool order start
    (∀ ns id, parallel.state.get ns id = serial.2.state.get ns id) ∧
      (∀ a, parallel.outside a = serial.2.outside a) ∧
      (stepErrors ((List.finRange n).map result)).Perm (stepErrors serial.1) := by
  obtain ⟨hresults, hworld⟩ := interleaving_eq_serial (answer_local lookups render api)
    (fun q w => ⟨w, rfl⟩)
    (fun i j hij => footprint_disjoint (disjoint i j hij))
    (fun i => inside_executePhase (keeps i) (unlisted i) (returns i)) start schedule finished
    nodup all
  have horder := (List.perm_ext_iff_of_nodup (List.nodup_finRange n) nodup).mpr (by simp [all])
  refine ⟨fun ns id => hworld (.entry ns id), fun a => hworld (.object a), ?_⟩
  rw [hresults]
  exact (horder.map result).flatMap_right _

section TwoPhases

/-- One template per phase, all of them rendered as stateful sets. -/
def twoSets (rawKind : String → String) : Lookups where
  rawToObject path := .ok ⟨"apps", "v1", rawKind path⟩
  labelSelectorAsSelector _ := .ok ⟨""⟩
  getNumObjectsMatchingSelector _ _ _ _ := .ok 0

def renderSet (path : String) (_ : Mapping) : Except TemplateError Unstructured :=
  .ok ⟨⟨"apps", "v1", "StatefulSet"⟩, path⟩

/-- The first creation of an object counts; later ones succeed without effect. -/
def firstCreate : ObjectApi (Option String) where
  create _ obj s := (none, s.or (some obj.body))
  patch _ obj s := (none, s.map fun _ => obj.body)
  delete _ _ _ := (none, none)

def createOne (basename path : String) : Phase :=
  ⟨none, some ["ns-1"], 1, "uniform", [⟨basename, path, none, none⟩]⟩

theorem createOne_touches {rawKind : String → String} {basename path ns : String}
    {id : InstancesIdentifier}
    (h : Touches (twoSets rawKind) (context, createOne basename path) ns id) :
    id = ⟨basename, rawKind path, "apps"⟩ := by
  obtain ⟨_, object, ho, named⟩ := h
  rw [List.mem_singleton.mp ho] at named
  exact (Except.ok.inj named).symm

def paths (i : Fin 2) : String := if i = 0 then "a.yaml" else "b.yaml"

/-- A schedule that lets the two phases take turns. -/
def turns : List (Fin 2) := (List.replicate 8 [0, 1]).flatten

def poolOf (phases : Fin 2 → Phase) (i : Fin 2) : Program (Option (List String)) :=
  (executePhase context (phases i)).getD (.done none)

def noObjects : World (Address → Option String) := ⟨.empty, fun _ => none⟩

/-- The handler for templates with the given raw kinds. -/
def setHandler (rawKind : String → String) :
    Handler Request Reply (World (Address → Option String)) :=
  answer ⟨twoSets rawKind, localOperations renderSet firstCreate⟩

def ownNames (i : Fin 2) : Phase := createOne (paths i) (paths i)

/-- A phase of stateful sets leaves pods alone. -/
theorem phase_confined_ownNames :
    (run (setHandler fun _ => "StatefulSet") (poolOf ownNames 0) noObjects).2.outside
      ⟨"ns-1", "Pod", "", "a-0"⟩ = none := by
  have keeps : KeepsKind ⟨twoSets fun _ => "StatefulSet", localOperations renderSet firstCreate⟩
      (context, ownNames 0) := by
    intro object _ ns k obj gvk hobj hraw
    rw [← Except.ok.inj hobj, ← Except.ok.inj hraw]
    exact ⟨rfl, rfl⟩
  refine (phase_confined keeps (fun object ho => ?_) rfl noObjects noObjects).1 (.object _) ?_
  · rw [List.mem_singleton.mp ho]
  · rintro ⟨n, i, k, touches, same⟩
    rw [createOne_touches touches] at same
    have kinds : "Pod" = "StatefulSet" := congrArg Address.kind same
    exact absurd kinds (by decide)

theorem ownNames_finished : Finished
    (runPool (setHandler fun _ => "StatefulSet") turns (poolOf ownNames, noObjects))
    (fun _ => some []) := by
  have done : ∀ i, ((runPool (setHandler fun _ => "StatefulSet") turns
      (poolOf ownNames, noObjects)).1 i).value = some (some []) := by
    decide +kernel
  exact fun i => value_eq_some.mp (done i)

theorem parallel_phases_eq_serial_turns :
    Finished (runPool (setHandler fun _ => "StatefulSet") turns (poolOf ownNames, noObjects))
        (fun _ => some []) ∧
      ∀ a, (runPool (setHandler fun _ => "StatefulSet") turns
          (poolOf ownNames, noObjects)).2.outside a =
        (runSerial (setHandler fun _ => "StatefulSet") (poolOf ownNames) [1, 0]
          noObjects).2.outside a := by
  have distinct : ∀ i j, paths i = paths j → i = j := by decide
  refine ⟨ownNames_finished, (parallel_phases_eq_serial (twoSets fun _ => "StatefulSet") renderSet
    firstCreate context ownNames (poolOf ownNames) (fun _ => rfl) ?_ ?_ ?_ noObjects turns
    ownNames_finished (by decide) (by decide)).2.1⟩
  · intro i object ho
    rw [List.mem_singleton.mp ho]
  · intro i object _ ns k obj gvk hobj hraw
    rw [← Except.ok.inj hobj, ← Except.ok.inj hraw]
    exact ⟨rfl, rfl⟩
  · intro i j hij ns id hi hj
    have hid := (createOne_touches hi).symm.trans (createOne_touches hj)
    exact hij (distinct i j (congrArg InstancesIdentifier.basename hid))

def templatedKind (path : String) : String := if path = "a.yaml" then "ASet" else "BSet"

def sharedName (i : Fin 2) : Phase := createOne "web" (paths i)

/-- Two templates whose raw kinds differ and which are rendered as the same
kind: the identifiers are disjoint, and the phases race for one object. -/
theorem templated_kinds_race :
    (∀ i j, i ≠ j → ∀ ns id, Touches (twoSets templatedKind) (context, sharedName i) ns id →
      ¬ Touches (twoSets templatedKind) (context, sharedName j) ns id) ∧
    (∀ i, ((runPool (setHandler templatedKind) turns (poolOf sharedName, noObjects)).1 i).value =
      some (some [])) ∧
    (runPool (setHandler templatedKind) turns (poolOf sharedName, noObjects)).2.outside
      ⟨"ns-1", "StatefulSet", "apps", "web-0"⟩ = some "a.yaml" ∧
    (runSerial (setHandler templatedKind) (poolOf sharedName) [1, 0] noObjects).2.outside
      ⟨"ns-1", "StatefulSet", "apps", "web-0"⟩ = some "b.yaml" := by
  have distinct : ∀ i j, templatedKind (paths i) = templatedKind (paths j) → i = j := by decide
  refine ⟨fun i j hij ns id hi hj => ?_, by decide +kernel, by decide +kernel, by decide +kernel⟩
  have hid := (createOne_touches hi).symm.trans (createOne_touches hj)
  exact hij (distinct i j (congrArg InstancesIdentifier.objectKind hid))

end TwoPhases

end ParallelPhases
