import Mathlib.Algebra.Order.BigOperators.Group.Multiset
import Mathlib.Algebra.Order.Ring.Nat
import Mathlib.Order.Lattice.Nat

/-!
# Pairs across groups

Members of different groups are paired, always of the two largest groups that
are left. The number of pairs is then half of all members, or the number of
those outside the largest group where these are fewer.
-/

namespace GroupPairs

def pairs (sizes : Multiset ℕ) : ℕ := min (sizes.sum / 2) (sizes.sum - sizes.sup)

/-- What is left of a group that has lost a member. -/
def lowered (n : ℕ) : Multiset ℕ := if 1 < n then {n - 1} else 0

@[simp] theorem sum_lowered (n : ℕ) : (lowered n).sum = n - 1 := by
  unfold lowered
  split
  · exact Multiset.sum_singleton _
  · rw [Multiset.sum_zero]
    omega

@[simp] theorem sup_lowered (n : ℕ) : (lowered n).sup = n - 1 := by
  unfold lowered
  split
  · exact Multiset.sup_singleton
  · rw [Multiset.sup_zero, bot_eq_zero]
    omega

theorem pairs_of_card_le_one {sizes : Multiset ℕ} (h : sizes.card ≤ 1) : pairs sizes = 0 := by
  rw [pairs]
  rcases Nat.le_one_iff_eq_zero_or_eq_one.mp h with h | h
  · rw [Multiset.card_eq_zero.mp h]
    rfl
  · obtain ⟨n, rfl⟩ := Multiset.card_eq_one.mp h
    rw [Multiset.sum_singleton, Multiset.sup_singleton]
    omega

theorem sup_le_sum (sizes : Multiset ℕ) : sizes.sup ≤ sizes.sum :=
  Multiset.sup_le.mpr fun _ hn => Multiset.le_sum_of_mem hn

/-- The two largest groups give one pair. -/
theorem pairs_cons_cons {a b : ℕ} {rest : Multiset ℕ} (hb : 0 < b) (hab : b ≤ a)
    (hrest : ∀ n ∈ rest, n ≤ b) :
    pairs (a ::ₘ b ::ₘ rest) = pairs (lowered a + lowered b + rest) + 1 := by
  have hsup : rest.sup ≤ b := Multiset.sup_le.mpr hrest
  have hsum := sup_le_sum rest
  -- the first group is the largest; once lowered, it or one of the rest is
  have hbefore : (a ::ₘ b ::ₘ rest).sup = a := by
    rw [Multiset.sup_cons, Multiset.sup_cons, sup_eq_left]
    exact sup_le hab (Nat.le_trans hsup hab)
  have hafter : (lowered a + lowered b + rest).sup = max (a - 1) rest.sup := by
    rw [Multiset.sup_add, Multiset.sup_add, sup_lowered, sup_lowered,
      sup_eq_left.mpr (Nat.sub_le_sub_right hab 1)]
  rw [pairs, pairs]
  simp only [Multiset.sum_cons, Multiset.sum_add, sum_lowered]
  omega

/-! ## No pairing is larger -/

section Pairing

variable {α : Type*}

def members (pairing : List (α × α)) : List α := pairing.flatMap fun pair => [pair.1, pair.2]

theorem length_members (pairing : List (α × α)) :
    (members pairing).length = 2 * pairing.length := by
  induction pairing with
  | nil => rfl
  | cons pair rest ih =>
    change (members rest).length + 2 = _
    rw [List.length_cons]
    omega

theorem members_map {β : Type*} (f : α → β) (pairing : List (α × α)) :
    members (pairing.map (Prod.map f f)) = (members pairing).map f := by
  rw [members, members, List.flatMap_map, List.map_flatMap]
  rfl

variable {pairing : List (α × α)}

/-- One member of every pair. -/
theorem map_sublist_members {choose : α × α → α}
    (h : ∀ pair ∈ pairing, choose pair = pair.1 ∨ choose pair = pair.2) :
    (pairing.map choose).Sublist (members pairing) := by
  induction pairing with
  | nil => exact .slnil
  | cons pair rest ih =>
    have hrest := ih fun pair' hpair' => h pair' (List.mem_cons_of_mem _ hpair')
    change (choose pair :: rest.map choose).Sublist (pair.1 :: pair.2 :: members rest)
    rcases h pair List.mem_cons_self with hchoose | hchoose
    · rw [hchoose]
      exact (hrest.cons pair.2).cons_cons pair.1
    · rw [hchoose]
      exact (hrest.cons_cons pair.2).cons pair.1

variable [DecidableEq α]

/-- Of every pair a member is outside a given group. -/
theorem length_le_of_group {groups : List (List α)}
    (inside : ∀ x ∈ members pairing, x ∈ groups.flatten)
    (across : ∀ pair ∈ pairing, ∀ group ∈ groups, ¬ (pair.1 ∈ group ∧ pair.2 ∈ group))
    (once : (members pairing).Nodup) {group : List α} (hgroup : group ∈ groups) :
    pairing.length + group.length ≤ groups.flatten.length := by
  let outside : α × α → α := fun pair => if pair.1 ∈ group then pair.2 else pair.1
  have hsub : (pairing.map outside).Sublist (members pairing) := by
    refine map_sublist_members fun pair _ => ?_
    by_cases hfirst : pair.1 ∈ group
    · exact .inr (if_pos hfirst)
    · exact .inl (if_neg hfirst)
  have hsplit := (List.perm_cons_erase hgroup).flatten
  have hothers : pairing.map outside ⊆ (groups.erase group).flatten := by
    intro x hx
    have hmem := hsplit.mem_iff.mp (inside x (hsub.subset hx))
    refine (List.mem_append.mp hmem).resolve_left ?_
    obtain ⟨pair, hpair, rfl⟩ := List.mem_map.mp hx
    by_cases hfirst : pair.1 ∈ group
    · rw [show outside pair = pair.2 from if_pos hfirst]
      exact fun hsecond => across pair hpair group hgroup ⟨hfirst, hsecond⟩
    · rw [show outside pair = pair.1 from if_neg hfirst]
      exact hfirst
  have hlen := (List.subperm_of_subset (once.sublist hsub) hothers).length_le
  have htotal := hsplit.length_eq
  rw [List.length_map] at hlen
  rw [List.flatten_cons, List.length_append] at htotal
  omega

/-- Pairs of members of different groups, no member twice, are at most as many. -/
theorem length_le_pairs {groups : List (List α)}
    (inside : ∀ x ∈ members pairing, x ∈ groups.flatten)
    (across : ∀ pair ∈ pairing, ∀ group ∈ groups, ¬ (pair.1 ∈ group ∧ pair.2 ∈ group))
    (once : (members pairing).Nodup) :
    pairing.length ≤ pairs (groups.map List.length : List ℕ) := by
  have hall := (List.subperm_of_subset once inside).length_le
  rw [length_members] at hall
  have hsup : Multiset.sup (groups.map List.length : List ℕ) ≤
      groups.flatten.length - pairing.length := by
    refine Multiset.sup_le.mpr fun n hn => ?_
    obtain ⟨group, hgroup, rfl⟩ := List.mem_map.mp hn
    have := length_le_of_group inside across once hgroup
    omega
  rw [pairs, Multiset.sum_coe, ← List.length_flatten]
  omega

end Pairing

end GroupPairs
