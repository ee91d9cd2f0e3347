import Mathlib.Algebra.BigOperators.Group.Finset.Basic
import Mathlib.Data.Fintype.Basic

/-!
# Parties that move one at a time

The parties of a system each have a state of their own; a step changes the state
of one of them. What the parties add up to changes by what that one does.
-/

namespace Parties

universe u v w

variable {ι : Type u} {P : Type v} [Fintype ι] [DecidableEq ι]

theorem sum_update {M : Type w} [AddCommMonoid M] (f : ι → P → M) (parties : ι → P) (i : ι)
    (p : P) : ∑ j, f j (Function.update parties i p j) + f i (parties i) =
      ∑ j, f j (parties j) + f i p := by
  have others : ∑ j ∈ Finset.univ.erase i, f j (Function.update parties i p j) =
      ∑ j ∈ Finset.univ.erase i, f j (parties j) := by
    refine Finset.sum_congr rfl fun j hj => ?_
    rw [Function.update_of_ne (Finset.ne_of_mem_erase hj)]
  rw [← Finset.add_sum_erase _ _ (Finset.mem_univ i), others, Function.update_self,
    ← Finset.add_sum_erase Finset.univ (fun j => f j (parties j)) (Finset.mem_univ i)]
  ac_rfl

/-- Steps that lower one party's rank lower the sum. -/
theorem sum_update_lt (rank : P → Nat) (parties : ι → P) (i : ι) (p : P)
    (lower : rank p < rank (parties i)) :
    ∑ j, rank (Function.update parties i p j) < ∑ j, rank (parties j) := by
  have moved := sum_update (fun _ => rank) parties i p
  omega

end Parties
