import Mathlib.Data.List.Induction

/-!
# The last value that a list supplies

Some entries of a list supply a value and others do not. A loop that keeps the
value it has seen last ends with the value of the last entry that supplies one.
-/

namespace LastValues

universe u v

variable {α : Type u} {β : Type v}

def lastSome (f : α → Option β) (xs : List α) : Option β := xs.reverse.findSome? f

theorem lastSome_concat (f : α → Option β) (xs : List α) (x : α) :
    lastSome f (xs ++ [x]) = (f x).or (lastSome f xs) := by
  rw [lastSome, List.reverse_append, List.reverse_singleton, List.singleton_append,
    List.findSome?_cons]
  cases f x <;> rfl

theorem lastSome_eq_none {f : α → Option β} {xs : List α} :
    lastSome f xs = none ↔ ∀ x ∈ xs, f x = none := by
  rw [lastSome, List.findSome?_eq_none_iff]
  simp only [List.mem_reverse]

end LastValues
