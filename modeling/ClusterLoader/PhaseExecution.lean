import ClusterLoader.PhaseRequests
import Mathlib.Data.List.Range

/-!
# Executing one phase

ExecutePhase walks the namespaces of a phase. In each it sets the desired
replica count of every bundle object, checks that the objects of the bundle
agree on their current count, and collects one action per replica. The actions
run under the tuning set. The functions deferred in the loop set every current
count to the desired one; they run last, also when the loop returns early.

A tuning set starts every action once and waits for all of them; when an action
makes its next call is left to an arbitrary schedule. The errors of the actions
are listed in the order of the actions, not of their completion.
-/

namespace PhaseExecution

open RequestPrograms RequestPrograms.Prog PhaseRequests

inductive OperationType where
  | createObject
  | patchObject
  | deleteObject

structure TuningSet where
  schedule : List Nat

structure Context where
  templateMapping : Mapping
  automanagedNamespacePrefix : String
  createTuningSet : String → Except String TuningSet

def maxInt32 : Int := 2147483647

/-- `none` means that the loop over the range never ends: its `int32` counter
cannot exceed the largest `int32`. -/
def createNamespacesList (ctx : Context) : Option NamespaceRange → Option (List String)
  | none => some [""]
  | some range =>
    let nsBasename := range.basename.getD ctx.automanagedNamespacePrefix
    if range.min ≤ range.max ∧ range.max = maxInt32 then none
    else some ((List.range (range.max + 1 - range.min).toNat).map fun i =>
      nsBasename ++ "-" ++ toString (range.min + i))

def objectMapping (ctx : Context) (object : Object) (ns : String) (replicaIndex : Nat) :
    Mapping :=
  let mapping := match object.templateFillMap with
    | some fill => copyMap fill ctx.templateMapping
    | none => ctx.templateMapping
  (((mapping.put "BaseName" (.str object.basename)).put "Index" (.int32 replicaIndex)).put
    "Name" (.str (objectName object.basename replicaIndex))).put "Namespace" (.str ns)

/-- The error list after a call, given what the call was for. -/
def callErrors (ns objName purpose : String) : Option String → List String
  | none => []
  | some e =>
    ["namespace " ++ ns ++ " object " ++ objName ++ " " ++ purpose ++ " error: " ++ e]

/-- Render the template and hand the object over; an empty template is skipped. -/
def withTemplate (ctx : Context) (object : Object) (ns : String) (replicaIndex : Nat)
    (send : Unstructured → Program (List String)) : Program (List String) := do
  match ← templateToObject object.objectTemplatePath
      (objectMapping ctx object ns replicaIndex) with
  | .ok obj => send obj
  | .error .emptyFile => return []
  | .error (.failed message) =>
    return ["reading template (" ++ object.objectTemplatePath ++ ") error: " ++ message]

def executeObject (ctx : Context) (object : Object) (ns : String) (replicaIndex : Nat)
    (operation : OperationType) : Program (List String) :=
  let objName := objectName object.basename replicaIndex
  match operation with
  | .createObject => withTemplate ctx object ns replicaIndex fun obj => do
    let err ← createObject ns objName obj
    return callErrors ns objName "creation" err
  | .patchObject => withTemplate ctx object ns replicaIndex fun obj => do
    let err ← patchObject ns objName obj
    return callErrors ns objName "updating" err
  | .deleteObject => do
    match ← rawToObject object.objectTemplatePath with
    | .ok gvk =>
      let err ← deleteObject gvk ns objName
      return callErrors ns objName "deletion" err
    | .error .emptyFile => return []
    | .error (.failed message) =>
      return ["reading template (" ++ object.objectTemplatePath ++ ") for deletion error: "
        ++ message]

/-- What getIdentifier makes of the object read from the template. -/
def identifier (object : Object) : Except TemplateError GroupVersionKind →
    Except String InstancesIdentifier
  | .ok gvk => .ok ⟨object.basename, gvk.kind, gvk.group⟩
  | .error e => .error ("reading template (" ++ object.objectTemplatePath ++
      ") for identifier error: " ++ e.text)

def getIdentifier (object : Object) : Program (Except String InstancesIdentifier) := do
  let raw ← rawToObject object.objectTemplatePath
  return identifier object raw

/-- A failed listing is answered with zero replicas, as in the source. -/
def getReplicaCountOfNewObject (ns : String) (object : Object) :
    Program (Except String Nat) := do
  match object.listUnknownObjectOptions with
  | none => return .ok 0
  | some options =>
    match ← labelSelectorAsSelector options.labelSelector with
    | .error e => return .error e
    | .ok selector =>
      match ← rawToObject object.objectTemplatePath with
      | .error e => return .error e.text
      | .ok gvk =>
        match ← getNumObjectsMatchingSelector ns object gvk selector with
        | .error _ => return .ok 0
        | .ok replicaCount => return .ok replicaCount

/-- The recorded instances of an object, or new ones. -/
def findInstances (ns : String) (id : InstancesIdentifier) (object : Object) :
    Program (Except String InstancesState) := do
  match ← getInstances ns id with
  | some instances => return .ok instances
  | none =>
    let count ← getReplicaCountOfNewObject ns object
    return count.map fun currentReplicaCount => ⟨0, currentReplicaCount, object⟩

/-- The body of the loop over the bundle. -/
def updateDesiredCount (replicas : Nat) (ns : String) (object : Object) :
    Program (Except String InstancesState) := do
  match ← getIdentifier object with
  | .error e => return .error e
  | .ok id =>
    match ← findInstances ns id object with
    | .error e => return .error e
    | .ok instances =>
      let instances := { instances with desiredReplicaCount := replicas }
      setInstances ns id instances
      return .ok instances

def updateDesiredCounts (replicas : Nat) (ns : String) :
    List Object → Program (Except String (List InstancesState))
  | [] => return .ok []
  | object :: bundle => do
    match ← updateDesiredCount replicas ns object with
    | .error e => return .error e
    | .ok instances =>
      let rest ← updateDesiredCounts replicas ns bundle
      return rest.map (instances :: ·)

/-- Neighbours in the bundle must agree on their current count. -/
def verifyBundleCorrectness : List InstancesState → Option String
  | previous :: next :: rest =>
    if next.currentReplicaCount ≠ previous.currentReplicaCount then
      some ("bundle error: " ++ next.object.basename ++ " has " ++
        toString next.currentReplicaCount ++ " replicas while " ++
        previous.object.basename ++ " has " ++ toString previous.currentReplicaCount)
    else verifyBundleCorrectness (next :: rest)
  | _ => none

def deleteReplica (ctx : Context) (ns : String) (replicaIndex : Nat) (object : Object)
    (instances : InstancesState) : Program (List String) :=
  if replicaIndex < instances.currentReplicaCount then
    executeObject ctx object ns replicaIndex .deleteObject
  else pure []

/-- Delete the replica of every object that has it. Errors do not end the loop. -/
def deleteAll (ctx : Context) (ns : String) (replicaIndex : Nat) :
    List (Object × InstancesState) → Program (List String)
  | [] => return []
  | (object, instances) :: rest => do
    let errs ← deleteReplica ctx ns replicaIndex object instances
    let others ← deleteAll ctx ns replicaIndex rest
    return errs ++ others

/-- Create or patch the replica of every object; an error skips the rest. -/
def applyAll (ctx : Context) (operation : OperationType) (ns : String) (replicaIndex : Nat) :
    List Object → Program (List String)
  | [] => return []
  | object :: rest => do
    let errs ← executeObject ctx object ns replicaIndex operation
    if errs.isEmpty then applyAll ctx operation ns replicaIndex rest else return errs

/-- One action per replica. Deletion goes through the bundle backwards. -/
def namespaceActions (ctx : Context) (phase : Phase) (ns : String) (current : Nat)
    (states : List InstancesState) : List (Program (List String)) :=
  (List.range' phase.replicasPerNamespace (current - phase.replicasPerNamespace)).map
      (fun i => deleteAll ctx ns i (phase.objectBundle.zip states).reverse) ++
    (if current = phase.replicasPerNamespace then
      (List.range phase.replicasPerNamespace).map
        (fun i => applyAll ctx .patchObject ns i phase.objectBundle)
    else []) ++
    (List.range' current (phase.replicasPerNamespace - current)).map
      (fun i => applyAll ctx .createObject ns i phase.objectBundle)

/-- The deferred function of one namespace. A failed identifier is ignored. -/
def updateCurrentCounts (ns : String) : List (Object × InstancesState) → Program Unit
  | [] => return ()
  | (object, instances) :: rest => do
    let id ← getIdentifier object
    let instances := { instances with currentReplicaCount := instances.desiredReplicaCount }
    setInstances ns (id.toOption.getD default) instances
    updateCurrentCounts ns rest

/-- The rest of an iteration once the bundle is handled; `loop` stands for the
iterations that follow. What is deferred here runs after all of them. The
source returns a nil error list for an empty bundle, here `none`. -/
def afterBundle (ctx : Context) (phase : Phase) (ns : String)
    (actions : List (Program (List String)))
    (loop : List (Program (List String)) → Program (Option (List String))) :
    Except String (List InstancesState) → Program (Option (List String))
  | .error e => return some [e]
  | .ok states =>
    match verifyBundleCorrectness states, states with
    | some e, _ => return some [e]
    | none, [] => return none
    | none, first :: _ => do
      let result ← loop
        (actions ++ namespaceActions ctx phase ns first.currentReplicaCount states)
      updateCurrentCounts ns (phase.objectBundle.zip states)
      return result

/-- The loop over the namespaces, then the tuning set. -/
def executeNamespaces (ctx : Context) (phase : Phase) (tuningSet : TuningSet) :
    List String → List (Program (List String)) → Program (Option (List String))
  | [], actions => do
    let errLists ← interleave tuningSet.schedule actions
    return some errLists.flatten
  | ns :: rest, actions => do
    let states ← updateDesiredCounts phase.replicasPerNamespace ns phase.objectBundle
    afterBundle ctx phase ns actions (executeNamespaces ctx phase tuningSet rest) states

def namespacesOf (ctx : Context) (phase : Phase) : Option (List String) :=
  match phase.namespaceList with
  | some nsList => some nsList
  | none => createNamespacesList ctx phase.namespaceRange

/-- `none` means that the call never returns. -/
def executePhase (ctx : Context) (phase : Phase) : Option (Program (Option (List String))) :=
  (namespacesOf ctx phase).map fun nsList =>
    match ctx.createTuningSet phase.tuningSet with
    | .error e => return some ["tuning set creation error: " ++ e]
    | .ok tuningSet => executeNamespaces ctx phase tuningSet nsList []

section Uses
variable {ok : (q : Request) → Reply q → Prop} {allowed : Request → Prop}

/-- Every call that an operation on a replica may make is allowed. -/
def AllowsOperation (ok : (q : Request) → Reply q → Prop) (allowed : Request → Prop)
    (ctx : Context) (ns : String) (object : Object) (replicaIndex : Nat) : OperationType → Prop
  | .createObject =>
    allowed (.templateToObject object.objectTemplatePath
        (objectMapping ctx object ns replicaIndex)) ∧
      ∀ obj, ok (.templateToObject object.objectTemplatePath
          (objectMapping ctx object ns replicaIndex)) (.ok obj) →
        allowed (.createObject ns (objectName object.basename replicaIndex) obj)
  | .patchObject =>
    allowed (.templateToObject object.objectTemplatePath
        (objectMapping ctx object ns replicaIndex)) ∧
      ∀ obj, ok (.templateToObject object.objectTemplatePath
          (objectMapping ctx object ns replicaIndex)) (.ok obj) →
        allowed (.patchObject ns (objectName object.basename replicaIndex) obj)
  | .deleteObject =>
    allowed (.rawToObject object.objectTemplatePath) ∧
      ∀ gvk, ok (.rawToObject object.objectTemplatePath) (.ok gvk) →
        allowed (.deleteObject gvk ns (objectName object.basename replicaIndex))

variable {ctx : Context} {ns : String} {object : Object} {i : Nat}

variable {operation : OperationType}

theorem uses_executeObject (h : AllowsOperation ok allowed ctx ns object i operation) :
    (executeObject ctx object ns i operation).Uses ok allowed := by
  cases operation with
  | createObject | patchObject =>
    refine ⟨h.1, fun r hr => ?_⟩
    rcases r with (_ | message) | obj
    · trivial
    · trivial
    · exact ⟨h.2 obj hr, fun _ _ => trivial⟩
  | deleteObject =>
    refine ⟨h.1, fun r hr => ?_⟩
    rcases r with (_ | message) | gvk
    · trivial
    · trivial
    · exact ⟨h.2 gvk hr, fun _ _ => trivial⟩

theorem uses_deleteAll {pairs : List (Object × InstancesState)}
    (h : ∀ pair ∈ pairs, AllowsOperation ok allowed ctx ns pair.1 i .deleteObject) :
    (deleteAll ctx ns i pairs).Uses ok allowed := by
  induction pairs with
  | nil => trivial
  | cons pair rest ih =>
    have hrest := ih (fun pair hp => h pair (List.mem_cons_of_mem _ hp))
    refine uses_bind ?_ (fun errs => ?_)
    · unfold deleteReplica
      split
      · exact uses_executeObject (h pair List.mem_cons_self)
      · trivial
    · exact uses_bind hrest (fun _ => trivial)

theorem uses_applyAll {bundle : List Object}
    (h : ∀ object ∈ bundle, AllowsOperation ok allowed ctx ns object i operation) :
    (applyAll ctx operation ns i bundle).Uses ok allowed := by
  induction bundle with
  | nil => trivial
  | cons object rest ih =>
    refine uses_bind (uses_executeObject (h object List.mem_cons_self)) (fun errs => ?_)
    split
    · exact ih (fun object ho => h object (List.mem_cons_of_mem _ ho))
    · trivial

variable {states : List InstancesState} {p : Program (List String)}

/-- The actions of a namespace: which of them there are, in terms of the
replica they are about. -/
theorem mem_namespaceActions {phase : Phase} {current : Nat} :
    p ∈ namespaceActions ctx phase ns current states ↔
      (∃ i, phase.replicasPerNamespace ≤ i ∧ i < current ∧
        p = deleteAll ctx ns i (phase.objectBundle.zip states).reverse) ∨
      (∃ i, current = phase.replicasPerNamespace ∧ i < current ∧
        p = applyAll ctx .patchObject ns i phase.objectBundle) ∨
      (∃ i, current ≤ i ∧ i < phase.replicasPerNamespace ∧
        p = applyAll ctx .createObject ns i phase.objectBundle) := by
  simp only [namespaceActions, List.mem_append, List.mem_map, List.mem_range'_1, or_assoc]
  refine or_congr (exists_congr fun i => ?_) (or_congr ?_ (exists_congr fun i => ?_))
  · constructor
    · rintro ⟨⟨h₁, h₂⟩, rfl⟩
      exact ⟨h₁, by omega, rfl⟩
    · rintro ⟨h₁, h₂, rfl⟩
      exact ⟨⟨h₁, by omega⟩, rfl⟩
  · by_cases hc : current = phase.replicasPerNamespace
    · simp [hc, eq_comm]
    · simp [hc]
  · constructor
    · rintro ⟨⟨h₁, h₂⟩, rfl⟩
      exact ⟨h₁, by omega, rfl⟩
    · rintro ⟨h₁, h₂, rfl⟩
      exact ⟨⟨h₁, by omega⟩, rfl⟩

/-- The replicas that the actions of a namespace operate on, by operation. -/
def InRange (replicas current i : Nat) : OperationType → Prop
  | .createObject => current ≤ i ∧ i < replicas
  | .patchObject => current = replicas ∧ i < current
  | .deleteObject => replicas ≤ i ∧ i < current

theorem uses_namespaceActions {phase : Phase} {current : Nat}
    (h : ∀ object ∈ phase.objectBundle, ∀ i operation,
      InRange phase.replicasPerNamespace current i operation →
        AllowsOperation ok allowed ctx ns object i operation)
    (hp : p ∈ namespaceActions ctx phase ns current states) :
    p.Uses ok allowed := by
  rcases mem_namespaceActions.mp hp with ⟨i, h₁, h₂, rfl⟩ | ⟨i, h₁, h₂, rfl⟩ | ⟨i, h₁, h₂, rfl⟩
  · apply uses_deleteAll
    intro pair hpair
    have ho := (List.of_mem_zip (List.mem_reverse.mp hpair)).1
    exact h pair.1 ho i .deleteObject ⟨h₁, h₂⟩
  · exact uses_applyAll fun object ho => h object ho i .patchObject ⟨h₁, h₂⟩
  · exact uses_applyAll fun object ho => h object ho i .createObject ⟨h₁, h₂⟩

/-- Every call that the loop over the bundle may make for an object is allowed. -/
structure AllowsObject (ok : (q : Request) → Reply q → Prop) (allowed : Request → Prop)
    (ns : String) (object : Object) : Prop where
  raw : allowed (.rawToObject object.objectTemplatePath)
  selector : ∀ options, object.listUnknownObjectOptions = some options →
    allowed (.labelSelectorAsSelector options.labelSelector)
  listing : ∀ options gvk selector, object.listUnknownObjectOptions = some options →
    allowed (.getNumObjectsMatchingSelector ns object gvk selector)
  get : ∀ gvk, ok (.rawToObject object.objectTemplatePath) (.ok gvk) →
    allowed (.getInstances ns ⟨object.basename, gvk.kind, gvk.group⟩)
  set : ∀ gvk, ok (.rawToObject object.objectTemplatePath) (.ok gvk) →
    ∀ instances, allowed (.setInstances ns ⟨object.basename, gvk.kind, gvk.group⟩ instances)

section
variable (h : AllowsObject ok allowed ns object)
include h

theorem uses_getReplicaCountOfNewObject :
    (getReplicaCountOfNewObject ns object).Uses ok allowed := by
  unfold getReplicaCountOfNewObject
  cases ho : object.listUnknownObjectOptions with
  | none => trivial
  | some options =>
    refine ⟨h.selector options ho, fun r _ => ?_⟩
    rcases r with e | selector
    · trivial
    · refine ⟨h.raw, fun r _ => ?_⟩
      rcases r with e | gvk
      · trivial
      · refine ⟨h.listing options gvk selector ho, fun r _ => ?_⟩
        rcases r with e | n <;> trivial

theorem uses_findInstances {id : InstancesIdentifier} (hget : allowed (.getInstances ns id)) :
    (findInstances ns id object).Uses ok allowed := by
  rw [findInstances, request_bind]
  refine ⟨hget, fun r _ => ?_⟩
  rcases r with _ | instances
  · exact uses_bind (uses_getReplicaCountOfNewObject h) (fun _ => trivial)
  · trivial

theorem uses_updateDesiredCount {replicas : Nat} :
    (updateDesiredCount replicas ns object).Uses ok allowed := by
  simp only [updateDesiredCount, getIdentifier, request_bind, ask_bind, pure_eq, done_bind]
  refine ⟨h.raw, fun raw hraw => ?_⟩
  rcases raw with e | gvk
  · trivial
  · refine uses_bind (uses_findInstances h (h.get gvk hraw)) (fun found => ?_)
    rcases found with e | instances
    · trivial
    · exact ⟨h.set gvk hraw _, fun _ _ => trivial⟩

end

theorem uses_updateDesiredCounts {replicas : Nat} {bundle : List Object}
    (h : ∀ object ∈ bundle, AllowsObject ok allowed ns object) :
    (updateDesiredCounts replicas ns bundle).Uses ok allowed := by
  induction bundle with
  | nil => trivial
  | cons object bundle ih =>
    have hrest := ih (fun object ho => h object (List.mem_cons_of_mem _ ho))
    refine uses_bind (uses_updateDesiredCount (h object List.mem_cons_self)) (fun found => ?_)
    rcases found with e | instances
    · trivial
    · exact uses_bind hrest (fun _ => trivial)

end Uses

end PhaseExecution
