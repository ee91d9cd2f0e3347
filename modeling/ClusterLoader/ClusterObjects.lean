import ClusterLoader.PhaseExecution

/-!
# Objects of the cluster and what the calls do to them

An object is addressed by namespace, kind, group and name. A successful create
makes the addressed object exist, a successful delete makes it absent, a
successful patch does neither, and no call affects other objects. This is all
that is assumed of the API server here; a failing call may do anything.
-/

namespace ClusterObjects

open RequestPrograms RequestPrograms.Prog PhaseRequests PhaseExecution

structure Address where
  ns : String
  kind : String
  group : String
  name : String
  deriving DecidableEq

def objectAddress (ns name : String) (gvk : GroupVersionKind) : Address :=
  ⟨ns, gvk.kind, gvk.group, name⟩

/-- Where replica `i` of an identifier lives. -/
def replicaAddress (ns : String) (id : InstancesIdentifier) (i : Nat) : Address :=
  ⟨ns, id.objectKind, id.apiGroup, objectName id.basename i⟩

theorem replicaAddress_inj {n n' : String} {i i' : InstancesIdentifier} {k k' : Nat}
    (h : replicaAddress n i k = replicaAddress n' i' k') : n = n' ∧ i = i' ∧ k = k' := by
  obtain ⟨b', kind', group'⟩ := i'
  simp only [replicaAddress, Address.mk.injEq] at h
  obtain ⟨rfl, rfl, rfl, hname⟩ := h
  obtain ⟨rfl, rfl⟩ := objectName_inj hname
  exact ⟨rfl, rfl, rfl⟩

/-- The operation a call performs, and on which object. -/
def target : Request → Option (OperationType × Address)
  | .createObject ns name obj => some (.createObject, objectAddress ns name obj.gvk)
  | .patchObject ns name obj => some (.patchObject, objectAddress ns name obj.gvk)
  | .deleteObject gvk ns name => some (.deleteObject, objectAddress ns name gvk)
  | _ => none

/-- Whether an object exists after a successful operation on it. -/
def existsAfter : OperationType → Bool → Bool
  | .createObject, _ => true
  | .patchObject, before => before
  | .deleteObject, _ => false

/-- The API server as far as it is relied upon: `view` reads the objects. -/
structure Serves {E V : Type} (out : Outside E) (view : E → Address → Option V) : Prop where
  frame : ∀ q w a, ¬ Failed ⟨q, (answer out q w).1⟩ →
    (∀ operation, target q ≠ some (operation, a)) →
      view (answer out q w).2.outside a = view w.outside a
  effect : ∀ q w a operation, ¬ Failed ⟨q, (answer out q w).1⟩ →
    target q = some (operation, a) →
      (view (answer out q w).2.outside a).isSome = existsAfter operation (view w.outside a).isSome

section Replay
variable {E V : Type} {out : Outside E} {view : E → Address → Option V}
variable {t : List (Event Reply)} {w : World E} {a : Address}

/-- Objects that no call addresses are not changed. -/
theorem replay_unaddressed (hs : Serves out view)
    (hr : Replays (answer out) t w) (success : ∀ e ∈ t, ¬ Failed e)
    (unaddressed : ∀ e ∈ t, ∀ operation, target e.1 ≠ some (operation, a)) :
    view (replay (answer out) t w).outside a = view w.outside a := by
  refine replay_keeps (fun w => view w.outside a) hr (fun q w' he => ?_)
  exact hs.frame q w' a (success _ he) (unaddressed _ he)

/-- One call, seen from an object it may or may not address. -/
theorem exists_step (hs : Serves out view) {q : Request}
    (success : ¬ Failed ⟨q, (answer out q w).1⟩) (a : Address) :
    (∃ operation, target q = some (operation, a) ∧
      (view (answer out q w).2.outside a).isSome =
        existsAfter operation (view w.outside a).isSome) ∨
    ((∀ operation, target q ≠ some (operation, a)) ∧
      view (answer out q w).2.outside a = view w.outside a) := by
  by_cases h : ∃ operation, target q = some (operation, a)
  · obtain ⟨operation, htarget⟩ := h
    exact .inl ⟨operation, htarget, hs.effect q w a operation success htarget⟩
  · have hnone : ∀ operation, target q ≠ some (operation, a) :=
      fun operation ht => h ⟨operation, ht⟩
    exact .inr ⟨hnone, hs.frame q w a success hnone⟩

/-- The operation after which an object exists, or does not. -/
def settling (present : Bool) : OperationType := if present then .createObject else .deleteObject

/-- Where the opposite operation is never carried out, an object is present (or
absent) in the end if it was so before or the operation was carried out. -/
theorem replay_settled (hs : Serves out view) (hr : Replays (answer out) t w)
    (success : ∀ e ∈ t, ¬ Failed e) (present : Bool)
    (never : ∀ e ∈ t, target e.1 ≠ some (settling !present, a)) :
    (view (replay (answer out) t w).outside a).isSome = present ↔
      (view w.outside a).isSome = present ∨ ∃ e ∈ t, target e.1 = some (settling present, a) := by
  induction t generalizing w with
  | nil => simp [replay]
  | cons e t ih =>
    obtain ⟨q, r⟩ := e
    obtain ⟨rfl, hr⟩ := hr
    have hrest := ih hr (fun e he => success e (List.mem_cons_of_mem _ he))
      (fun e he => never e (List.mem_cons_of_mem _ he))
    have hnot := never _ List.mem_cons_self
    rw [replay, List.foldl_cons]
    rw [replay] at hrest
    rw [hrest]
    rcases exists_step hs (success _ List.mem_cons_self) a with
      ⟨operation, htarget, heffect⟩ | ⟨hnone, hframe⟩
    · cases operation <;> cases present <;>
        simp_all [existsAfter, settling]
    · simp [hframe, hnone]

end Replay

/-- A cluster that keeps what it is sent. -/
abbrev Cluster := Address → Option String

def Cluster.empty : Cluster := fun _ => none

def Cluster.read (c : Cluster) (a : Address) : Option String := c a

def Cluster.put (c : Cluster) (a : Address) (content : Option String) : Cluster :=
  fun b => if b = a then content else c b

/-- Creating an existing object and deleting a missing one succeed; patching a
missing one does not. -/
def clusterOperations (render : String → Mapping → Except TemplateError Unstructured) :
    Operations Cluster where
  templateToObject := render
  createObject ns name obj c :=
    let a := objectAddress ns name obj.gvk
    (none, if (c a).isSome then c else c.put a (some obj.body))
  patchObject ns name obj c :=
    let a := objectAddress ns name obj.gvk
    if (c a).isSome then (none, c.put a (some obj.body)) else (some "not found", c)
  deleteObject gvk ns name c := (none, c.put (objectAddress ns name gvk) none)

theorem clusterOperations_serves (lookups : Lookups)
    (render : String → Mapping → Except TemplateError Unstructured) :
    Serves ⟨lookups, clusterOperations render⟩ Cluster.read where
  frame q w a success hnot := by
    cases q with
    | createObject ns name obj | patchObject ns name obj =>
      have hne : a ≠ objectAddress ns name obj.gvk := by
        rintro rfl
        exact hnot _ rfl
      simp only [answer, clusterOperations]
      split <;> simp [Cluster.read, Cluster.put, hne]
    | deleteObject gvk ns name =>
      have hne : a ≠ objectAddress ns name gvk := by
        rintro rfl
        exact hnot _ rfl
      simp [answer, clusterOperations, Cluster.read, Cluster.put, hne]
    | _ => rfl
  effect q w a operation success ht := by
    cases q with
    | createObject ns name obj =>
      obtain ⟨rfl, rfl⟩ := Prod.mk.inj (Option.some.inj ht)
      simp only [answer, clusterOperations]
      split
      · assumption
      · simp [Cluster.read, Cluster.put, existsAfter]
    | patchObject ns name obj =>
      obtain ⟨rfl, rfl⟩ := Prod.mk.inj (Option.some.inj ht)
      simp only [answer, clusterOperations]
      split
      · rename_i hsome
        simp [Cluster.read, Cluster.put, existsAfter, hsome]
      · rfl
    | deleteObject gvk ns name =>
      obtain ⟨rfl, rfl⟩ := Prod.mk.inj (Option.some.inj ht)
      simp [answer, clusterOperations, Cluster.read, Cluster.put, existsAfter]
    | _ => cases ht

end ClusterObjects
