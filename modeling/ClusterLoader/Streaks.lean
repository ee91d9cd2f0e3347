import Mathlib.Data.List.DropRight
import Mathlib.Data.List.Infix

/-!
# Longest streaks

A streak is a run of consecutive elements that all satisfy a predicate.
`longest` is the length of the longest streak of a list and `trailing` that of
the streak at its end. Appending one element at a time, both follow from their
values before, which is how a counter keeps them.
-/

namespace Streaks

universe u

variable {α : Type u} (p : α → Bool)

def longest : List α → Nat
  | [] => 0
  | x :: xs => max ((x :: xs).takeWhile p).length (longest xs)

def trailing (xs : List α) : Nat := (xs.rtakeWhile p).length

structure IsLongest (xs : List α) (n : Nat) : Prop where
  attained : ∃ ys, ys <:+: xs ∧ (∀ y ∈ ys, p y = true) ∧ ys.length = n
  bound : ∀ ys, ys <:+: xs → (∀ y ∈ ys, p y = true) → ys.length ≤ n

theorem length_le_takeWhile {xs ys : List α} (isPrefix : ys <+: xs) (all : ∀ y ∈ ys, p y = true) :
    ys.length ≤ (xs.takeWhile p).length := by
  obtain ⟨zs, rfl⟩ := isPrefix
  rw [List.takeWhile_append_of_pos all, List.length_append]
  exact Nat.le_add_right _ _

theorem isLongest_longest (xs : List α) : IsLongest p xs (longest p xs) := by
  induction xs with
  | nil =>
    refine ⟨⟨[], List.infix_rfl, nofun, rfl⟩, fun ys h _ => ?_⟩
    rw [List.infix_nil.mp h]
    exact Nat.le_refl 0
  | cons x xs ih =>
    constructor
    · rcases Nat.le_total (longest p xs) ((x :: xs).takeWhile p).length with h | h
      · refine ⟨(x :: xs).takeWhile p, ( List.takeWhile_prefix p).isInfix, ?_, ?_⟩
        · exact fun y hy => List.mem_takeWhile_imp hy
        · exact (Nat.max_eq_left h).symm
      · obtain ⟨ys, hpart, hall, hlength⟩ := ih.attained
        refine ⟨ys, hpart.trans (List.suffix_cons x xs).isInfix, hall, ?_⟩
        rw [hlength]
        exact (Nat.max_eq_right h).symm
    · intro ys hpart hall
      rcases List.infix_cons_iff.mp hpart with hstart | hinside
      · exact (length_le_takeWhile p hstart hall).trans (Nat.le_max_left _ _)
      · exact (ih.bound ys hinside hall).trans (Nat.le_max_right _ _)

theorem isLongest_unique {xs : List α} {m n : Nat} (hm : IsLongest p xs m)
    (hn : IsLongest p xs n) : m = n := by
  obtain ⟨ys, hys, allYs, rfl⟩ := hm.attained
  obtain ⟨zs, hzs, allZs, rfl⟩ := hn.attained
  exact Nat.le_antisymm (hn.bound ys hys allYs) (hm.bound zs hzs allZs)

theorem trailing_concat (xs : List α) (x : α) :
    trailing p (xs ++ [x]) = if p x then trailing p xs + 1 else 0 := by
  rw [trailing, List.rtakeWhile_concat]
  split
  · exact List.length_append
  · rfl

theorem length_le_trailing {xs ys : List α} (isSuffix : ys <:+ xs) (all : ∀ y ∈ ys, p y = true) :
    ys.length ≤ trailing p xs := by
  have h := length_le_takeWhile p (List.reverse_prefix.mpr isSuffix)
    fun y hy => all y (List.mem_reverse.mp hy)
  rw [List.length_reverse] at h
  rw [trailing, List.rtakeWhile, List.length_reverse]
  exact h

/-- A streak of the longer list is one of the shorter, or ends it. -/
theorem longest_concat (xs : List α) (x : α) :
    longest p (xs ++ [x]) = max (longest p xs) (trailing p (xs ++ [x])) := by
  refine isLongest_unique p (isLongest_longest p (xs ++ [x])) ⟨?_, ?_⟩
  · rcases Nat.le_total (trailing p (xs ++ [x])) (longest p xs) with h | h
    · obtain ⟨ys, hpart, hall, hlength⟩ := (isLongest_longest p xs).attained
      refine ⟨ys, hpart.trans (List.prefix_append xs [x]).isInfix, hall, ?_⟩
      rw [hlength, Nat.max_eq_left h]
    · refine ⟨(xs ++ [x]).rtakeWhile p, (List.rtakeWhile_suffix p _).isInfix, ?_, ?_⟩
      · exact fun y hy => List.mem_rtakeWhile_imp hy
      · exact (Nat.max_eq_right h).symm
  · intro ys hpart hall
    rcases List.infix_concat_iff.mp hpart with hend | hinside
    · exact (length_le_trailing p hend hall).trans (Nat.le_max_right _ _)
    · exact ((isLongest_longest p xs).bound ys hinside hall).trans (Nat.le_max_left _ _)

end Streaks
