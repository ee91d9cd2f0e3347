import ClusterLoader.RequestPrograms
import ClusterLoader.SeparatedNames

/-!
# The data of a test phase and what it asks of the outside

The executor of a phase reads and writes one table, NamespacesState, and calls
out for everything else: object templates, label selectors, the listing of
pre-existing objects, and the three object operations. Each of these calls is
a request here, so that a phase can be run, interleaved and observed without
fixing what the outside answers.

Only the fields that the phase executor uses are kept. Rendering, decoding and
the API server are not modelled: they are the parameters of `Outside`.
-/

namespace PhaseRequests

open RequestPrograms RequestPrograms.Prog SeparatedNames

structure GroupVersionKind where
  group : String
  version : String
  kind : String

/-- A decoded object. Its name is set by the call that sends it. -/
structure Unstructured where
  gvk : GroupVersionKind
  body : String

inductive TemplateError where
  | emptyFile
  | failed (message : String)

def TemplateError.text : TemplateError → String
  | .emptyFile => "emptyfile"
  | .failed message => message

inductive Value where
  | str (s : String)
  | int32 (i : Int)
  | yaml (text : String)

abbrev Mapping := String → Option Value

/-- CopyMap: entries of `src` override those of `dest`. -/
def copyMap (src dest : Mapping) : Mapping := fun key => (src key).or (dest key)

def Mapping.put (m : Mapping) (key : String) (value : Value) : Mapping :=
  fun k => if k = key then some value else m k

structure LabelSelector where
  requirements : String

structure Selector where
  text : String

structure ListUnknownObjectOptions where
  labelSelector : Option LabelSelector

structure Object where
  basename : String
  objectTemplatePath : String
  templateFillMap : Option Mapping
  listUnknownObjectOptions : Option ListUnknownObjectOptions

/-- `min` and `max` are `int32` in the source. -/
structure NamespaceRange where
  min : Int
  max : Int
  basename : Option String

/-- `replicasPerNamespace` is an `int32` that the validator has found to be
non-negative before a phase is executed. -/
structure Phase where
  namespaceRange : Option NamespaceRange
  namespaceList : Option (List String)
  replicasPerNamespace : Nat
  tuningSet : String
  objectBundle : List Object

structure InstancesIdentifier where
  basename : String
  objectKind : String
  apiGroup : String
  deriving DecidableEq, Inhabited

structure InstancesState where
  desiredReplicaCount : Nat
  currentReplicaCount : Nat
  object : Object

/-- The nested maps of NamespacesState; a namespace without a map reads like
one with an empty map. The source stores pointers. A pointer is only ever
stored under the key it was read from or created for, so that writing through
it is writing the entry of that key. -/
def NamespacesState : Type := String → InstancesIdentifier → Option InstancesState

namespace NamespacesState

def empty : NamespacesState := fun _ _ => none

def get (s : NamespacesState) (ns : String) (id : InstancesIdentifier) :
    Option InstancesState := s ns id

theorem ext {s t : NamespacesState} (h : ∀ ns id, s.get ns id = t.get ns id) : s = t :=
  funext fun ns => funext fun id => h ns id

def set (s : NamespacesState) (ns : String) (id : InstancesIdentifier)
    (instances : InstancesState) : NamespacesState :=
  fun n i => if n = ns ∧ i = id then some instances else s n i

@[simp] theorem get_set_self (s : NamespacesState) (ns : String) (id : InstancesIdentifier)
    (instances : InstancesState) : (s.set ns id instances).get ns id = some instances := by
  simp [get, set]

theorem get_set_other (s : NamespacesState) {ns n : String} {id i : InstancesIdentifier}
    (instances : InstancesState) (h : ¬ (n = ns ∧ i = id)) :
    (s.set ns id instances).get n i = s.get n i := by
  simp only [get, set, if_neg h]

end NamespacesState

/-- The calls a phase makes. Template and selector calls are kept among them
so that a failed one is visible in the trace of a run. A listing also records
the object it is made for. -/
inductive Request where
  | rawToObject (path : String)
  | templateToObject (path : String) (mapping : Mapping)
  | labelSelectorAsSelector (selector : Option LabelSelector)
  | getNumObjectsMatchingSelector (ns : String) (object : Object)
      (gvk : GroupVersionKind) (selector : Selector)
  | getInstances (ns : String) (id : InstancesIdentifier)
  | setInstances (ns : String) (id : InstancesIdentifier) (instances : InstancesState)
  | createObject (ns name : String) (obj : Unstructured)
  | patchObject (ns name : String) (obj : Unstructured)
  | deleteObject (gvk : GroupVersionKind) (ns name : String)

/-- The object operations answer with an error or nothing. Of a raw template
the executor only uses group, version and kind. -/
abbrev Reply : Request → Type
  | .rawToObject _ => Except TemplateError GroupVersionKind
  | .templateToObject _ _ => Except TemplateError Unstructured
  | .labelSelectorAsSelector _ => Except String Selector
  | .getNumObjectsMatchingSelector _ _ _ _ => Except String Nat
  | .getInstances _ _ => Option InstancesState
  | .setInstances _ _ _ => Unit
  | .createObject _ _ _ => Option String
  | .patchObject _ _ _ => Option String
  | .deleteObject _ _ _ => Option String

abbrev Program (A : Type) := Prog Request Reply A

abbrev rawToObject (path : String) : Program (Except TemplateError GroupVersionKind) :=
  request (Request.rawToObject path)

abbrev templateToObject (path : String) (mapping : Mapping) :
    Program (Except TemplateError Unstructured) :=
  request (Request.templateToObject path mapping)

abbrev labelSelectorAsSelector (selector : Option LabelSelector) :
    Program (Except String Selector) :=
  request (Request.labelSelectorAsSelector selector)

abbrev getNumObjectsMatchingSelector (ns : String) (object : Object) (gvk : GroupVersionKind)
    (selector : Selector) : Program (Except String Nat) :=
  request (Request.getNumObjectsMatchingSelector ns object gvk selector)

abbrev getInstances (ns : String) (id : InstancesIdentifier) : Program (Option InstancesState) :=
  request (Request.getInstances ns id)

abbrev setInstances (ns : String) (id : InstancesIdentifier) (instances : InstancesState) :
    Program Unit :=
  request (Request.setInstances ns id instances)

abbrev createObject (ns name : String) (obj : Unstructured) : Program (Option String) :=
  request (Request.createObject ns name obj)

abbrev patchObject (ns name : String) (obj : Unstructured) : Program (Option String) :=
  request (Request.patchObject ns name obj)

abbrev deleteObject (gvk : GroupVersionKind) (ns name : String) : Program (Option String) :=
  request (Request.deleteObject gvk ns name)

/-- The calls a phase makes while it decides what to do. Templates are read
through a cache that keeps the first successful read, and decoding is a
function, so a template answers the same way throughout a phase. An object is
listed at most once in a namespace; two objects may be answered differently
even if they are listed alike. -/
structure Lookups where
  rawToObject : String → Except TemplateError GroupVersionKind
  labelSelectorAsSelector : Option LabelSelector → Except String Selector
  getNumObjectsMatchingSelector :
    String → Object → GroupVersionKind → Selector → Except String Nat

/-- The calls a phase makes while it carries its decision out. The state `E`
of the outside is arbitrary, so that every pattern of failures is covered. -/
structure Operations (E : Type) where
  templateToObject : String → Mapping → Except TemplateError Unstructured
  createObject : String → String → Unstructured → E → Option String × E
  patchObject : String → String → Unstructured → E → Option String × E
  deleteObject : GroupVersionKind → String → String → E → Option String × E

/-- Every template is empty and every call succeeds. -/
def noOperations : Operations Unit where
  templateToObject _ _ := .error .emptyFile
  createObject _ _ _ _ := (none, ())
  patchObject _ _ _ _ := (none, ())
  deleteObject _ _ _ _ := (none, ())

structure Outside (E : Type) where
  lookups : Lookups
  operations : Operations E

structure World (E : Type) where
  state : NamespacesState
  outside : E

def answer {E : Type} (out : Outside E) : Handler Request Reply (World E)
  | .rawToObject path, w => (out.lookups.rawToObject path, w)
  | .templateToObject path mapping, w => (out.operations.templateToObject path mapping, w)
  | .labelSelectorAsSelector selector, w => (out.lookups.labelSelectorAsSelector selector, w)
  | .getNumObjectsMatchingSelector ns object gvk selector, w =>
    (out.lookups.getNumObjectsMatchingSelector ns object gvk selector, w)
  | .getInstances ns id, w => (w.state.get ns id, w)
  | .setInstances ns id instances, w => ((), { w with state := w.state.set ns id instances })
  | .createObject ns name obj, w =>
    let r := out.operations.createObject ns name obj w.outside
    (r.1, { w with outside := r.2 })
  | .patchObject ns name obj, w =>
    let r := out.operations.patchObject ns name obj w.outside
    (r.1, { w with outside := r.2 })
  | .deleteObject gvk ns name, w =>
    let r := out.operations.deleteObject gvk ns name w.outside
    (r.1, { w with outside := r.2 })

/-- An outside call that reported an error. An empty template file is an error
to whoever needs the kind of the object, and a request to skip the object to
whoever renders it. -/
def Failed : Event Reply → Prop
  | ⟨.rawToObject _, r⟩ => ∃ e, r = .error e
  | ⟨.templateToObject _ _, r⟩ => ∃ m, r = .error (.failed m)
  | ⟨.labelSelectorAsSelector _, r⟩ => ∃ e, r = .error e
  | ⟨.getNumObjectsMatchingSelector _ _ _ _, r⟩ => ∃ e, r = .error e
  | ⟨.getInstances _ _, _⟩ => False
  | ⟨.setInstances _ _ _, _⟩ => False
  | ⟨.createObject _ _ _, r⟩ => ∃ e, r = some e
  | ⟨.patchObject _ _ _, r⟩ => ∃ e, r = some e
  | ⟨.deleteObject _ _ _, r⟩ => ∃ e, r = some e

/-- The name given to replica `replicaIndex` of an object. -/
def objectName (basename : String) (replicaIndex : Nat) : String :=
  basename ++ "-" ++ toString replicaIndex

/-- The index has no dash, so a name determines its basename and index. -/
theorem objectName_inj {b c : String} {m n : Nat}
    (h : objectName b m = objectName c n) : b = c ∧ m = n := by
  have hdash : Char.isDigit '-' = false := by decide
  obtain ⟨hbase, hindex⟩ := separated_inj (notMem_repr hdash m) (notMem_repr hdash n) h
  exact ⟨hbase, repr_inj hindex⟩

end PhaseRequests
