import Mathlib.Data.List.Perm.Basic

/-!
# Binary heaps in an array

The operations of Go's `container/heap`: the entry at `c` lies below the one at
`(c - 1) / 2`. Entries that come first are found at the root; which of several
equal ones is found there depends on the order in which they were entered.
-/

namespace BinaryHeaps

universe u

/-- `less` compares by some rank. -/
structure Ranked {α : Type u} (less : α → α → Bool) : Prop where
  asymm : ∀ {a b}, less a b = true → less b a = false
  trans : ∀ {a b c}, less b a = false → less c b = false → less c a = false

variable {α : Type u} (less : α → α → Bool) {m : Nat}

/-! ## The operations -/

/-- The child of `i` below `n` that comes first. -/
def firstChild (xs : Vector α m) (i n : Nat) (hn : n ≤ m) : Nat :=
  if h : 2 * i + 2 < n then
    if less xs[2 * i + 2] xs[2 * i + 1] then 2 * i + 2 else 2 * i + 1
  else 2 * i + 1

theorem firstChild_cases (xs : Vector α m) (i n : Nat) (hn : n ≤ m) (h : 2 * i + 1 < n) :
    firstChild less xs i n hn < n ∧
      (firstChild less xs i n hn = 2 * i + 1 ∨ firstChild less xs i n hn = 2 * i + 2) := by
  unfold firstChild
  split
  · split
    · omega
    · omega
  · omega

def down (xs : Vector α m) (i n : Nat) (hn : n ≤ m) : Vector α m :=
  if h : 2 * i + 1 < n then
    have hj := firstChild_cases less xs i n hn h
    if less xs[firstChild less xs i n hn] xs[i] then
      down (xs.swap i (firstChild less xs i n hn)) (firstChild less xs i n hn) n hn
    else xs
  else xs
termination_by n - i
decreasing_by omega

def up (xs : Vector α m) (j : Nat) (hj : j < m) : Vector α m :=
  if h : (j - 1) / 2 = j then xs
  else if less xs[j] xs[(j - 1) / 2] then
    up (xs.swap ((j - 1) / 2) j) ((j - 1) / 2) (by omega)
  else xs
termination_by j
decreasing_by omega

/-- The positions below `i` are made to sink, the last of them first. -/
def initLoop (xs : Vector α m) : Nat → Vector α m
  | 0 => xs
  | i + 1 => initLoop (down less xs i m (Nat.le_refl m)) i

def init (xs : Array α) : Array α := (initLoop less xs.toVector (xs.size / 2)).toArray

def push (xs : Array α) (x : α) : Array α :=
  (up less (xs.toVector.push x) xs.size (by omega)).toArray

/-- The root has become the last entry, the others are in order again. -/
def rootLast (xs : Vector α m) (h : 0 < m) : Vector α m :=
  down less (xs.swap 0 (m - 1)) 0 (m - 1) (by omega)

/-- Of an empty heap nothing can be taken. -/
def pop (xs : Array α) : Option (α × Array α) :=
  if h : 0 < xs.size then
    let ys := rootLast less xs.toVector h
    some (ys[xs.size - 1], ys.pop.toArray)
  else none

/-! ## Order -/

/-- Positions whose parents are at `lo` or after it are in order. -/
def OrderedFrom (xs : Vector α m) (lo n : Nat) (hn : n ≤ m) : Prop :=
  ∀ c (hc : c < n), 0 < c → lo ≤ (c - 1) / 2 → less xs[c] xs[(c - 1) / 2] = false

/-- Only the entry at `i` may have to sink. -/
structure Sinks (xs : Vector α m) (lo i n : Nat) (hn : n ≤ m) : Prop where
  others : ∀ c (hc : c < n), 0 < c → lo ≤ (c - 1) / 2 → (c - 1) / 2 ≠ i →
    less xs[c] xs[(c - 1) / 2] = false
  across : ∀ c (hc : c < n), 0 < c → (hp : (c - 1) / 2 = i) → 0 < i → lo ≤ (i - 1) / 2 →
    less xs[c] xs[(i - 1) / 2] = false

/-- Only the entry at `j` may have to rise. -/
structure Rises (xs : Vector α m) (j : Nat) : Prop where
  others : ∀ c (hc : c < m), 0 < c → c ≠ j → less xs[c] xs[(c - 1) / 2] = false
  across : ∀ c (hc : c < m), 0 < c → (hp : (c - 1) / 2 = j) → 0 < j →
    less xs[c] xs[(j - 1) / 2] = false

variable {less}

theorem Ranked.irrefl (ranked : Ranked less) (a : α) : less a a = false := by
  cases h : less a a with
  | false => rfl
  | true => exact absurd (ranked.asymm h) (by simp [h])

theorem firstChild_first (ranked : Ranked less) (xs : Vector α m) (i n : Nat) (hn : n ≤ m)
    (h : 2 * i + 1 < n) (hj : firstChild less xs i n hn < m) (c : Nat) (hc : c < n)
    (child : 0 < c ∧ (c - 1) / 2 = i) : less xs[c] xs[firstChild less xs i n hn] = false := by
  have hsides : c = 2 * i + 1 ∨ c = 2 * i + 2 := by omega
  unfold firstChild at *
  split
  · split
    · rename_i hright
      rcases hsides with rfl | rfl
      · exact ranked.asymm hright
      · exact ranked.irrefl _
    · rename_i hleft
      rcases hsides with rfl | rfl
      · exact ranked.irrefl _
      · exact Bool.eq_false_iff.mpr hleft
  · obtain rfl : c = 2 * i + 1 := by omega
    exact ranked.irrefl _

variable {xs : Vector α m} {i n : Nat}

theorem Sinks.swap (ranked : Ranked less) {lo : Nat} {hn : n ≤ m}
    (sinks : Sinks less xs lo i n hn) (hlo : lo ≤ i) (h : 2 * i + 1 < n)
    (hi : i < m) (hj : firstChild less xs i n hn < m)
    (high : less xs[firstChild less xs i n hn] xs[i] = true) :
    Sinks less (xs.swap i (firstChild less xs i n hn)) lo (firstChild less xs i n hn) n hn := by
  have hcases := firstChild_cases less xs i n hn h
  have hfirst := firstChild_first ranked xs i n hn h hj
  generalize firstChild less xs i n hn = j at *
  constructor
  · intro c hc hpos hfrom hne
    by_cases hparent : (c - 1) / 2 = i
    · -- below the entry that has come up
      simp only [hparent, Vector.getElem_swap_left]
      by_cases hcj : c = j
      · simp only [hcj, Vector.getElem_swap_right]
        exact ranked.asymm high
      · rw [Vector.getElem_swap_of_ne (by omega) hcj]
        exact hfirst c hc ⟨hpos, hparent⟩
    · rw [Vector.getElem_swap_of_ne hparent hne]
      by_cases hci : c = i
      · simp only [hci, Vector.getElem_swap_left]
        subst hci
        exact sinks.across j hcases.1 (by omega) (by omega) hpos hfrom
      · rw [Vector.getElem_swap_of_ne hci (by omega)]
        exact sinks.others c hc hpos hfrom hparent
  · intro c hc hpos hparent _ hfrom
    have hup : (j - 1) / 2 = i := by omega
    simp only [hup, Vector.getElem_swap_left]
    rw [Vector.getElem_swap_of_ne (by omega) (by omega)]
    have hother := sinks.others c hc hpos (by omega) (by omega)
    simpa only [hparent] using hother

/-- An entry that sinks leaves everything in order. -/
theorem Sinks.down (ranked : Ranked less) {lo : Nat} {hn : n ≤ m}
    (sinks : Sinks less xs lo i n hn) (hlo : lo ≤ i) :
    OrderedFrom less (down less xs i n hn) lo n hn := by
  fun_induction BinaryHeaps.down less xs i n hn with
  | case1 xs i h hj high ih =>
    exact ih (sinks.swap ranked hlo h _ _ high) (by omega)
  | case2 xs i h hj low =>
    intro c hc hpos hfrom
    by_cases hparent : (c - 1) / 2 = i
    · have hfirst := firstChild_first ranked xs i n hn h (by omega) c hc ⟨hpos, hparent⟩
      simp only [hparent]
      exact ranked.trans (Bool.eq_false_iff.mpr low) hfirst
    · exact sinks.others c hc hpos hfrom hparent
  | case3 xs i h =>
    intro c hc hpos hfrom
    exact sinks.others c hc hpos hfrom (by omega)

/-- What sinks stays below `n`. -/
theorem getElem_down {hn : n ≤ m} (k : Nat) (hk : k < m)
    (h : n ≤ k) : (down less xs i n hn)[k] = xs[k] := by
  fun_induction down less xs i n hn with
  | case1 xs i _ hj _ ih =>
    rw [ih, Vector.getElem_swap_of_ne (by omega) (by omega)]
  | case2 | case3 => rfl

theorem down_perm (xs : Vector α m) (i n : Nat) (hn : n ≤ m) :
    (down less xs i n hn).Perm xs := by
  fun_induction down less xs i n hn with
  | case1 xs i _ hj _ ih => exact ih.trans (Vector.swap_perm _ _)
  | case2 | case3 => exact .refl _

theorem Rises.swap (ranked : Ranked less) {j : Nat}
    (rises : Rises less xs j) (hp : (j - 1) / 2 = i) (hi : i < m) (hj : j < m) (h : i ≠ j)
    (low : less xs[j] xs[i] = true) : Rises less (xs.swap i j) i := by
  constructor
  · intro c hc hpos hne
    by_cases hcj : c = j
    · subst hcj
      simp only [hp, Vector.getElem_swap_left, Vector.getElem_swap_right]
      exact ranked.asymm low
    · rw [Vector.getElem_swap_of_ne hne hcj]
      by_cases hparent : (c - 1) / 2 = i
      · simp only [hparent, Vector.getElem_swap_left]
        have hother := rises.others c hc hpos hcj
        simp only [hparent] at hother
        exact ranked.trans (ranked.asymm low) hother
      · by_cases hbelow : (c - 1) / 2 = j
        · simp only [hbelow, Vector.getElem_swap_right]
          have hacross := rises.across c hc hpos hbelow (by omega)
          simpa only [hp] using hacross
        · rw [Vector.getElem_swap_of_ne hparent hbelow]
          exact rises.others c hc hpos hcj
  · intro c hc hpos hparent hipos
    have habove := rises.others i hi hipos (by omega)
    rw [Vector.getElem_swap_of_ne (k := (i - 1) / 2) (by omega) (by omega)]
    by_cases hcj : c = j
    · simp only [hcj, Vector.getElem_swap_right]
      exact habove
    · rw [Vector.getElem_swap_of_ne (by omega) hcj]
      have hother := rises.others c hc hpos hcj
      simp only [hparent] at hother
      exact ranked.trans habove hother

theorem Rises.up (ranked : Ranked less) {j : Nat} {hj : j < m} (rises : Rises less xs j) :
    OrderedFrom less (up less xs j hj) 0 m (Nat.le_refl m) := by
  fun_induction BinaryHeaps.up less xs j hj with
  | case1 xs j hj h =>
    intro c hc hpos _
    exact rises.others c hc hpos (by omega)
  | case2 xs j hj h low ih => exact ih (rises.swap ranked rfl _ hj h low)
  | case3 xs j hj h high =>
    intro c hc hpos _
    by_cases hcj : c = j
    · subst hcj
      exact Bool.eq_false_iff.mpr high
    · exact rises.others c hc hpos hcj

theorem up_perm (xs : Vector α m) (j : Nat) (hj : j < m) : (up less xs j hj).Perm xs := by
  fun_induction up less xs j hj with
  | case1 => exact .refl _
  | case2 xs j hj h low ih => exact ih.trans (Vector.swap_perm _ _)
  | case3 => exact .refl _

/-! ## Heaps -/

/-- No entry comes before its parent. -/
def Heaped (less : α → α → Bool) (xs : Array α) : Prop :=
  ∀ c (hc : c < xs.size), 0 < c → less xs[c] xs[(c - 1) / 2] = false

theorem OrderedFrom.heaped
    (ordered : OrderedFrom less xs 0 m (Nat.le_refl m)) : Heaped less xs.toArray := by
  intro c hc hpos
  rw [Vector.size_toArray] at hc
  exact ordered c hc hpos (Nat.zero_le _)

theorem Heaped.first (ranked : Ranked less) {xs : Array α} (heaped : Heaped less xs)
    (k : Nat) (hk : k < xs.size) : less xs[k] xs[0] = false := by
  -- along the path from the root
  induction k using Nat.strongRecOn with
  | ind k ih =>
    by_cases hroot : k = 0
    · subst hroot
      exact ranked.irrefl _
    · have hparent := ih ((k - 1) / 2) (by omega) (by omega)
      exact ranked.trans hparent (heaped k hk (by omega))

theorem OrderedFrom.initLoop (ranked : Ranked less)
    (ordered : OrderedFrom less xs i m (Nat.le_refl m)) :
    OrderedFrom less (initLoop less xs i) 0 m (Nat.le_refl m) := by
  induction i generalizing xs with
  | zero => exact ordered
  | succ i ih =>
    have sinks : Sinks less xs i i m (Nat.le_refl m) := by
      constructor
      · intro c hc hpos hfrom hne
        exact ordered c hc hpos (by omega)
      · omega
    exact ih (sinks.down ranked (Nat.le_refl i))

theorem heaped_init (ranked : Ranked less) (xs : Array α) : Heaped less (init less xs) := by
  apply OrderedFrom.heaped
  apply OrderedFrom.initLoop ranked
  intro c hc hpos hfrom
  omega

theorem initLoop_perm (xs : Vector α m) (i : Nat) : (initLoop less xs i).Perm xs := by
  induction i generalizing xs with
  | zero => exact .refl _
  | succ i ih => exact (ih _).trans (down_perm xs i m (Nat.le_refl m))

theorem init_perm (xs : Array α) : (init less xs).toList.Perm xs.toList :=
  (initLoop_perm xs.toVector (xs.size / 2)).toArray.toList

theorem heaped_push (ranked : Ranked less) {xs : Array α} (heaped : Heaped less xs) (x : α) :
    Heaped less (push less xs x) := by
  apply OrderedFrom.heaped
  apply Rises.up ranked
  constructor
  · intro c hc hpos hne
    rw [Vector.getElem_push, Vector.getElem_push, dif_pos (by omega), dif_pos (by omega)]
    exact heaped c (by omega) hpos
  · omega

theorem push_perm (xs : Array α) (x : α) :
    (push less xs x).toList.Perm (x :: xs.toList) := by
  have hperm : (push less xs x).toList.Perm (xs.toVector.push x).toArray.toList :=
    (up_perm _ _ _).toArray.toList
  refine hperm.trans ?_
  rw [Vector.toArray_push, Array.toList_push]
  exact List.perm_append_singleton x xs.toList

theorem rootLast_ordered (ranked : Ranked less) (h : 0 < m)
    (ordered : OrderedFrom less xs 0 m (Nat.le_refl m)) :
    OrderedFrom less (rootLast less xs h) 0 (m - 1) (by omega) := by
  apply Sinks.down ranked _ (Nat.le_refl 0)
  constructor
  · intro c hc hpos _ hne
    rw [Vector.getElem_swap_of_ne (by omega) (by omega),
      Vector.getElem_swap_of_ne hne (by omega)]
    exact ordered c (by omega) hpos (Nat.zero_le _)
  · omega

theorem rootLast_last (xs : Vector α m) (h : 0 < m) : (rootLast less xs h)[m - 1] = xs[0] := by
  rw [rootLast, getElem_down _ _ (Nat.le_refl _), Vector.getElem_swap_right]

theorem rootLast_perm (xs : Vector α m) (h : 0 < m) : (rootLast less xs h).Perm xs :=
  (down_perm _ _ _ _).trans (Vector.swap_perm _ _)

theorem toList_eq_pop_concat (xs : Vector α m) (h : 0 < m) :
    xs.toList = xs.pop.toList ++ [xs[m - 1]] := by
  have hne : xs.toList ≠ [] := by
    intro hnil
    have hlen := xs.length_toList
    rw [hnil, List.length_nil] at hlen
    omega
  rw [Vector.toList_pop, ← List.dropLast_concat_getLast hne]
  simp [List.getLast_eq_getElem]

theorem exists_pop {xs : Array α} (h : 0 < xs.size) : ∃ x ys, pop less xs = some (x, ys) := by
  rw [pop, dif_pos h]
  exact ⟨_, _, rfl⟩

theorem pop_perm {xs ys : Array α} {x : α} (h : pop less xs = some (x, ys)) :
    xs.toList.Perm (x :: ys.toList) := by
  rw [pop] at h
  split at h
  · rename_i hsize
    obtain ⟨rfl, rfl⟩ := h
    have hperm : (rootLast less xs.toVector hsize).toList.Perm xs.toList :=
      (rootLast_perm _ hsize).toArray.toList
    rw [toList_eq_pop_concat _ hsize] at hperm
    exact hperm.symm.trans (List.perm_append_singleton _ _)
  · cases h

/-- What is taken comes first, and the rest is a heap. -/
theorem pop_heaped (ranked : Ranked less) {xs ys : Array α} {x : α}
    (heaped : Heaped less xs) (h : pop less xs = some (x, ys)) :
    Heaped less ys ∧ ∀ y ∈ xs.toList, less y x = false := by
  rw [pop] at h
  split at h
  · rename_i hsize
    simp only [Option.some.injEq, Prod.mk.injEq] at h
    obtain ⟨hx, rfl⟩ := h
    rw [rootLast_last] at hx
    obtain rfl : xs[0] = x := hx
    constructor
    · have hbefore : OrderedFrom less xs.toVector 0 xs.size (Nat.le_refl _) :=
        fun c hc hpos _ => heaped c hc hpos
      have hordered := rootLast_ordered ranked hsize hbefore
      intro c hc hpos
      rw [Vector.size_toArray] at hc
      rw [Vector.getElem_toArray, Vector.getElem_toArray, Vector.getElem_pop,
        Vector.getElem_pop]
      exact hordered c hc hpos (Nat.zero_le _)
    · intro y hy
      obtain ⟨k, hk, rfl⟩ := List.getElem_of_mem hy
      exact heaped.first ranked k hk
  · cases h

end BinaryHeaps
