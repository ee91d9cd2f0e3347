import ClusterLoader.KeyedStore

/-!
# What a client-go informer delivers

An informer keeps a store of the objects it has seen and tells its handlers of
each change after making it. A delete the watch has missed is delivered as
`DeletedFinalStateUnknown`, which wraps the last state known and is not itself
an object. `Deliverable` is the informer's side of the contract: adds are for
keys the store lacks, updates and deletes for the object it holds.
-/

namespace Informers

open KeyedStore

universe u v

inductive Deleted (α : Type u) where
  | known (obj : α)
  | finalStateUnknown (obj : α)
  deriving DecidableEq

inductive Notification (α : Type u) where
  | add (obj : α)
  | update (oldObj newObj : α)
  | delete (obj : Deleted α)
  deriving DecidableEq

variable {α : Type u} {κ : Type v} {key : α → κ}

namespace Deleted

def last : Deleted α → α
  | known obj => obj
  | finalStateUnknown obj => obj

/-- `meta.Accessor` on what a delete handler is given. -/
def accessor : Deleted α → Option α
  | known obj => some obj
  | finalStateUnknown _ => none

end Deleted

namespace Notification

variable [DecidableEq κ]

/-- The informer's store once it has made the change. -/
def applyTo (store : Store key) : Notification α → Store key
  | add obj => store.insert obj
  | update _ newObj => store.insert newObj
  | delete obj => store.erase (key obj.last)

def Deliverable (store : Store key) : Notification α → Prop
  | add obj => store.lookup (key obj) = none
  | update oldObj newObj => oldObj ∈ store ∧ key newObj = key oldObj
  | delete obj => obj.last ∈ store

instance [DecidableEq α] (store : Store key) (n : Notification α) :
    Decidable (n.Deliverable store) := by
  cases n with
  | add obj => exact inferInstanceAs (Decidable (_ = _))
  | update oldObj newObj => exact inferInstanceAs (Decidable (_ ∧ _))
  | delete obj => exact inferInstanceAs (Decidable (_ ∈ _))

/-- The object a change puts into the store. -/
def stored : Notification α → Option α
  | add obj => some obj
  | update _ newObj => some newObj
  | delete _ => none

theorem mem_applyTo {store : Store key} {n : Notification α} {x : α}
    (h : x ∈ n.applyTo store) : x ∈ store ∨ n.stored = some x := by
  cases n with
  | add | update =>
    rcases Store.mem_insert.mp h with rfl | ⟨hx, _⟩
    · exact .inr rfl
    · exact .inl hx
  | delete obj => exact .inl (Store.mem_erase.mp h).1

end Notification

end Informers
