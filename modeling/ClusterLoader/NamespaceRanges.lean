import ClusterLoader.ConfigValidation
import ClusterLoader.PhaseExecution
import Mathlib.Data.List.Nodup

/-!
# The names of a range of namespaces

The loop over the range counts with an `int32` and stops when the counter exceeds
the end of the range. The counter wraps around at the largest `int32`, so a range
that ends there has no end. Every other range that the validator accepts gives its
names, each once and in order.
-/

namespace NamespaceRanges

open ConfigValidation PhaseExecution PhaseRequests

def IsInt32 (n : Int) : Prop := -2147483648 ≤ n ∧ n ≤ maxInt32

/-- `i++` of an `int32`. -/
def increment (i : Int) : Int := if i = maxInt32 then -2147483648 else i + 1

def nameAt (nsBasename : String) (i : Int) : String := nsBasename ++ "-" ++ toString i

/-- The loop of `createNamespacesList`, for so many rounds; `none` if it has not
stopped by then. -/
def namespacesLoop (nsBasename : String) (max : Int) : Nat → Int → List String →
    Option (List String)
  | 0, _, _ => none
  | rounds + 1, i, nsList =>
    if i ≤ max then
      namespacesLoop nsBasename max rounds (increment i) (nsList ++ [nameAt nsBasename i])
    else some nsList

def basenameOf (ctx : Context) (range : NamespaceRange) : String :=
  range.basename.getD ctx.automanagedNamespacePrefix

/-- The call returns the names after finitely many rounds. -/
def Returns (ctx : Context) (range : NamespaceRange) (names : List String) : Prop :=
  ∃ rounds, namespacesLoop (basenameOf ctx range) range.max rounds range.min [] = some names

/-- From `min` to `max`. -/
def namesOf (nsBasename : String) (min max : Int) : List String :=
  (List.range (max + 1 - min).toNat).map fun i : Nat => nameAt nsBasename (min + i)

variable {nsBasename : String} {i max : Int}

theorem namesOf_cons (h : i ≤ max) :
    namesOf nsBasename i max = nameAt nsBasename i :: namesOf nsBasename (i + 1) max := by
  obtain ⟨n, hn⟩ : ∃ n : Nat, (max + 1 - i).toNat = n + 1 := ⟨(max - i).toNat, by omega⟩
  have hn' : (max + 1 - (i + 1)).toNat = n := by omega
  rw [namesOf, namesOf, hn, hn', List.range_succ_eq_map, List.map_cons, List.map_map]
  refine congrArg₂ _ (by simp) (List.map_congr_left fun j _ => ?_)
  refine congrArg (nameAt nsBasename) ?_
  omega

theorem namesOf_nil (h : max < i) : namesOf nsBasename i max = [] := by
  rw [namesOf, Int.toNat_of_nonpos (by omega)]
  rfl

/-- The counter never gets past the largest `int32`. -/
theorem namespacesLoop_maxInt32 (nsBasename : String) (rounds : Nat) (hi : IsInt32 i)
    (nsList : List String) : namespacesLoop nsBasename maxInt32 rounds i nsList = none := by
  induction rounds generalizing i nsList with
  | zero => rfl
  | succ rounds ih =>
    rw [namespacesLoop, if_pos hi.2]
    refine ih ?_ _
    unfold IsInt32 increment maxInt32 at *
    split
    · constructor <;> omega
    · constructor <;> omega

/-- So many rounds as there are names, and one to stop. -/
theorem namespacesLoop_of_lt (hmax : max < maxInt32)
    (rounds : Nat) (hrounds : (max + 1 - i).toNat < rounds) (nsList : List String) :
    namespacesLoop nsBasename max rounds i nsList =
      some (nsList ++ namesOf nsBasename i max) := by
  induction rounds generalizing i nsList with
  | zero => omega
  | succ rounds ih =>
    rw [namespacesLoop]
    split
    · have hnext : increment i = i + 1 := if_neg (by omega)
      rw [hnext, ih (by omega), namesOf_cons ‹i ≤ max›, List.append_assoc]
      rfl
    · rw [namesOf_nil (by omega), List.append_nil]

theorem namespacesLoop_mono {rounds rounds' : Nat}
    (hle : rounds ≤ rounds') {nsList names : List String}
    (h : namespacesLoop nsBasename max rounds i nsList = some names) :
    namespacesLoop nsBasename max rounds' i nsList = some names := by
  induction rounds generalizing rounds' i nsList with
  | zero => cases h
  | succ rounds ih =>
    obtain ⟨rounds', rfl⟩ : ∃ n, rounds' = n + 1 := ⟨rounds' - 1, by omega⟩
    rw [namespacesLoop] at h ⊢
    split
    · rw [if_pos ‹i ≤ max›] at h
      exact ih (by omega) h
    · rwa [if_neg ‹¬ i ≤ max›] at h

variable {range : NamespaceRange}

theorem Returns.unique {ctx : Context} {names names' : List String}
    (h : Returns ctx range names) (h' : Returns ctx range names') : names = names' := by
  obtain ⟨rounds, h⟩ := h
  obtain ⟨rounds', h'⟩ := h'
  have hmax := namespacesLoop_mono (Nat.le_max_left rounds rounds') h
  have hmax' := namespacesLoop_mono (Nat.le_max_right rounds rounds') h'
  exact Option.some.inj (hmax.symm.trans hmax')

theorem returns_namesOf (ctx : Context) (hmax : range.max < maxInt32 ∨ range.max < range.min) :
    Returns ctx range (namesOf (basenameOf ctx range) range.min range.max) := by
  rcases hmax with hmax | hmax
  · exact ⟨_, namespacesLoop_of_lt hmax _ (Nat.lt_succ_self _) []⟩
  · refine ⟨1, ?_⟩
    rw [namespacesLoop, if_neg (by omega), namesOf_nil hmax]

theorem map_range_eq_namesOf (nsBasename : String) (min max : Int) :
    (List.map (fun i => nsBasename ++ "-" ++ toString (min + i))
      (List.range (max + 1 - min).toNat) : List String) = namesOf nsBasename min max := by
  simp [namesOf, nameAt, ← List.map_eq_flatMap]

/-- What `createNamespacesList` says of the loop at once. -/
theorem returns_iff (ctx : Context) (hmin : IsInt32 range.min)
    (hmax : IsInt32 range.max) (names : List String) :
    Returns ctx range names ↔ createNamespacesList ctx (some range) = some names := by
  rw [createNamespacesList]
  split
  case isTrue hend =>
    refine iff_of_false ?_ nofun
    rintro ⟨rounds, h⟩
    rw [hend.2, namespacesLoop_maxInt32 _ _ hmin] at h
    cases h
  case isFalse hend =>
    have hreturns : Returns ctx range (namesOf (basenameOf ctx range) range.min range.max) :=
      returns_namesOf ctx (by have := hmax.2; omega)
    rw [Option.some.injEq, map_range_eq_namesOf]
    exact ⟨fun h => hreturns.unique h, fun h => h ▸ hreturns⟩

theorem namesOf_nodup {min : Int} (hmin : 0 ≤ min) (max : Int) :
    (namesOf nsBasename min max).Nodup := by
  refine List.Nodup.map (fun i j h => ?_) List.nodup_range
  have hsame := SeparatedNames.toString_inj_of_nonneg (by omega) (by omega)
    ((String.append_right_inj _).mp h)
  omega

/-- A range that is accepted gives exactly its names if and only if it does not end at
the largest `int32`. -/
theorem accepted_range_exact_iff (ctx : Context) {range : NamespaceRange}
    (hmin : IsInt32 range.min) (hmax : IsInt32 range.max) {path : String}
    (accepted : validateNamespaceRange range path = []) :
    (∃ names, Returns ctx range names ∧
        names = namesOf (basenameOf ctx range) range.min range.max ∧
        names.length = range.max - range.min + 1 ∧ names.Nodup) ↔
      range.max ≠ maxInt32 := by
  simp only [validateNamespaceRange, List.append_eq_nil_iff, check_eq_nil,
    decide_eq_false_iff_not] at accepted
  constructor
  · rintro ⟨names, ⟨rounds, h⟩, _⟩ hend
    rw [hend, namespacesLoop_maxInt32 _ _ hmin] at h
    cases h
  · intro hend
    have hlt : range.max < maxInt32 := by
      have := hmax.2
      omega
    refine ⟨_, returns_namesOf ctx (.inl hlt), rfl, ?_, namesOf_nodup (by omega) _⟩
    rw [namesOf, List.length_map, List.length_range]
    omega

def sampleContext : Context where
  templateMapping := fun _ => none
  automanagedNamespacePrefix := "test-x7k2mq"
  createTuningSet := fun _ => .error "no tuning set"

theorem twoNamespaces_exact :
    ∃ names, Returns sampleContext ⟨1, 2, none⟩ names ∧
      names = ["test-x7k2mq-1", "test-x7k2mq-2"] := by
  have accepted : validateNamespaceRange ⟨1, 2, none⟩ "namespaceRange" = [] := by decide
  obtain ⟨names, hreturns, hnames, _⟩ := (accepted_range_exact_iff sampleContext
    ⟨by decide, by decide⟩ ⟨by decide, by decide⟩ accepted).mpr (by decide)
  exact ⟨names, hreturns, hnames⟩

theorem returns_iff_twoNamespaces :
    Returns sampleContext ⟨1, 2, none⟩ ["test-x7k2mq-1", "test-x7k2mq-2"] :=
  (returns_iff sampleContext ⟨by decide, by decide⟩ ⟨by decide, by decide⟩ _).mpr (by decide)

/-- Accepted, but the loop starts over and over. -/
theorem range_to_maxInt32_never_returns :
    validateNamespaceRange ⟨2147483646, 2147483647, none⟩ "namespaceRange" = [] ∧
      ¬ ∃ names, Returns sampleContext ⟨2147483646, 2147483647, none⟩ names := by
  refine ⟨by decide, ?_⟩
  rintro ⟨names, rounds, h⟩
  have hnone := namespacesLoop_maxInt32 "test-x7k2mq" rounds (i := 2147483646)
    ⟨by decide, by decide⟩ []
  cases hnone.symm.trans h

end NamespaceRanges
