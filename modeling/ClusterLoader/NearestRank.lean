import Mathlib.Data.Multiset.Sort
import Mathlib.Data.Rat.Floor

/-!
# Nearest-rank percentiles

The `p`-th percentile of some values is the least of them that at least `p`
hundredths of the values do not exceed. In a sorted list it stands at the first
position whose rank covers `p` hundredths of the length.
-/

namespace NearestRank

universe u

variable {α : Type u} [LinearOrder α]

structure IsPercentile (p : Nat) (xs : List α) (v : α) : Prop where
  mem : v ∈ xs
  enough : p * xs.length ≤ 100 * xs.countP (· ≤ v)
  least : ∀ w ∈ xs, p * xs.length ≤ 100 * xs.countP (· ≤ w) → v ≤ w

variable {p : Nat} {v : α}

theorem IsPercentile.perm {xs ys : List α} (h : IsPercentile p xs v)
    (perm : xs.Perm ys) : IsPercentile p ys v := by
  refine ⟨perm.mem_iff.mp h.mem, ?_, ?_⟩
  · rw [← perm.length_eq, ← perm.countP_eq]
    exact h.enough
  · intro w hw enough
    rw [← perm.length_eq, ← perm.countP_eq] at enough
    exact h.least w (perm.mem_iff.mpr hw) enough

variable {xs : List α}

/-- More of the values do not exceed a higher percentile. -/
theorem IsPercentile.le {q : Nat} {w : α} (hv : IsPercentile p xs v) (hpq : p ≤ q)
    (hw : IsPercentile q xs w) : v ≤ w := by
  apply hv.least w hw.mem
  exact Nat.le_trans (Nat.mul_le_mul_right _ hpq) hw.enough

/-- A bound that enough of the values of each of two parts do not exceed, enough
of all values do not exceed. -/
theorem enough_append {xs ys : List α} (hxs : p * xs.length ≤ 100 * xs.countP (· ≤ v))
    (hys : p * ys.length ≤ 100 * ys.countP (· ≤ v)) :
    p * (xs ++ ys).length ≤ 100 * (xs ++ ys).countP (· ≤ v) := by
  rw [List.length_append, List.countP_append, Nat.mul_add]
  omega

theorem IsPercentile.enough_of_le {w : α} (h : IsPercentile p xs v) (hle : v ≤ w) :
    p * xs.length ≤ 100 * xs.countP (· ≤ w) := by
  have hcount : xs.countP (· ≤ v) ≤ xs.countP (· ≤ w) := by
    apply List.countP_mono_left
    intro x _ hx
    rw [decide_eq_true_iff] at hx ⊢
    exact le_trans hx hle
  have := h.enough
  omega

/-- A percentile of two lists together lies below that of one of them. -/
theorem IsPercentile.le_max {xs ys : List α} {u w : α}
    (h : IsPercentile p (xs ++ ys) v) (hu : IsPercentile p xs u) (hw : IsPercentile p ys w) :
    v ≤ max u w := by
  have enough := enough_append (hu.enough_of_le (le_max_left u w))
    (hw.enough_of_le (le_max_right u w))
  refine h.least (max u w) ?_ enough
  rw [List.mem_append]
  rcases max_choice u w with hmax | hmax
  · rw [hmax]
    exact .inl hu.mem
  · rw [hmax]
    exact .inr hw.mem

section Sorted
variable {xs : List α} (sorted : xs.Pairwise (· ≤ ·)) {i : Nat} (hi : i < xs.length)
include sorted

/-- The values up to a position do not exceed the one there. -/
theorem lt_countP_le : i < xs.countP (· ≤ xs[i]) := by
  have hall : (xs.take (i + 1)).countP (· ≤ xs[i]) = (xs.take (i + 1)).length := by
    rw [List.countP_eq_length]
    intro w hw
    obtain ⟨j, hj, rfl⟩ := List.mem_take_iff_getElem.mp hw
    rw [decide_eq_true_iff]
    rcases Nat.lt_or_ge j i with hlt | hge
    · exact List.pairwise_iff_getElem.mp sorted j i (by omega) hi hlt
    · have hsame : j = i := by omega
      subst hsame
      exact le_refl _
  have hle : (xs.take (i + 1)).countP (· ≤ xs[i]) ≤ xs.countP (· ≤ xs[i]) :=
    (List.take_sublist (i + 1) xs).countP_le
  rw [hall, List.length_take] at hle
  omega

/-- A smaller value is exceeded by all from there on. -/
theorem countP_le_of_lt {w : α} (hlt : w < xs[i]) : xs.countP (· ≤ w) ≤ i := by
  have hnone : (xs.drop i).countP (· ≤ w) = 0 := by
    rw [List.countP_eq_zero]
    intro v hv
    obtain ⟨j, hj, rfl⟩ := List.mem_drop_iff_getElem.mp hv
    rw [decide_eq_true_iff, not_le]
    refine lt_of_lt_of_le hlt ?_
    rcases Nat.eq_zero_or_pos j with rfl | hpos
    · exact le_refl _
    · exact List.pairwise_iff_getElem.mp sorted i (i + j) hi (by omega) (by omega)
  have hsplit := congrArg (List.countP (· ≤ w)) (List.take_append_drop i xs)
  rw [List.countP_append, hnone] at hsplit
  calc xs.countP (· ≤ w) = (xs.take i).countP (· ≤ w) := hsplit.symm
    _ ≤ (xs.take i).length := List.countP_le_length
    _ ≤ i := List.length_take_le i xs

theorem sorted_isPercentile {p : Nat} (before : 100 * i < p * xs.length)
    (covers : p * xs.length ≤ 100 * (i + 1)) : IsPercentile p xs xs[i] := by
  refine ⟨List.getElem_mem hi, ?_, ?_⟩
  · have hcount := lt_countP_le sorted hi
    omega
  · intro w _ enough
    by_contra hlt
    have hcount := countP_le_of_lt sorted hi (not_le.mp hlt)
    omega

end Sorted

/-! ## Ranks -/

/-- The least rank that covers `p` hundredths of `n` values. -/
def nearestRank (n p : Nat) : Int := ⌈((n * p : Nat) : ℚ) / 100⌉

theorem nearestRank_eq (n p : Nat) : nearestRank n p = ((n * p + 99) / 100 : Nat) := by
  have hceil := Rat.ceil_natCast_div_natCast (n * p) 100
  rw [Nat.cast_ofNat] at hceil
  rw [nearestRank]
  omega

/-- Where there are values, the rank is one of theirs. -/
theorem exists_nearestRank {n p : Nat} (pos : 0 < n) (hp : 0 < p) (valid : p ≤ 100) :
    ∃ i, i < n ∧ nearestRank n p = i + 1 ∧ 100 * i < p * n ∧ p * n ≤ 100 * (i + 1) := by
  have hlow : n ≤ n * p := Nat.le_mul_of_pos_right n hp
  have hhigh : n * p ≤ n * 100 := Nat.mul_le_mul_left n valid
  rw [nearestRank_eq, Nat.mul_comm p n]
  refine ⟨(n * p + 99) / 100 - 1, ?_, ?_, ?_, ?_⟩
  all_goals omega

/-- Values have one order only. -/
theorem eq_sort {s : Multiset α} (sorted : xs.Pairwise (· ≤ ·)) (h : (xs : Multiset α) = s) :
    xs = s.sort (· ≤ ·) := by
  have hperm : xs.Perm (s.sort (· ≤ ·)) := by
    rw [← Multiset.coe_eq_coe, Multiset.sort_eq, h]
  exact hperm.eq_of_pairwise' sorted (s.pairwise_sort (· ≤ ·))

/-- The value of a rank, counted from one, among the values in their order. -/
structure AtRank (s : Multiset α) (rank : Int) (v : α) : Prop where
  pos : 1 ≤ rank
  le_card : rank ≤ s.card
  value : (s.sort (· ≤ ·))[(rank - 1).toNat]? = some v

/-- The value of the nearest rank is the percentile, in whatever order the values stand. -/
theorem AtRank.isPercentile {s : Multiset α} (h : AtRank s (nearestRank s.card p) v) (hp : 0 < p)
    (valid : p ≤ 100) (hxs : (xs : Multiset α) = s) : IsPercentile p xs v := by
  have hpos : 0 < s.card := by
    have := h.pos
    have := h.le_card
    omega
  obtain ⟨i, hi, hrank, before, covers⟩ := exists_nearestRank hpos hp valid
  have hvalue := h.value
  have hindex : (nearestRank s.card p - 1).toNat = i := by omega
  have hlength := s.length_sort (· ≤ ·)
  rw [hindex, List.getElem?_eq_getElem (by omega), Option.some_inj] at hvalue
  rw [← hvalue]
  have hpercentile : IsPercentile p (s.sort (· ≤ ·)) (s.sort (· ≤ ·))[i] := by
    apply sorted_isPercentile (s.pairwise_sort (· ≤ ·))
    · rw [hlength]
      exact before
    · rw [hlength]
      exact covers
  refine hpercentile.perm (Multiset.coe_eq_coe.mp ?_)
  rw [hxs, Multiset.sort_eq]

end NearestRank
