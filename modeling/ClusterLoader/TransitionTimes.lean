import Mathlib.Data.List.Sort
import ClusterLoader.KeyedStore
import Mathlib.Algebra.Group.Int.Defs

/-!
# Phase times of objects

`ObjectTransitionTimes` keeps, for each object, the time at which each of its
phases began. Nothing is ever removed: once a key has a phase it keeps it. The
phases are those of the measurement that owns the table. Times are nanoseconds;
where the source sorts by time, entries of one time stand in table order.
-/

namespace TransitionTimes

open KeyedStore

variable {Phase : Type} [DecidableEq Phase]

structure ObjectTransitionTimes (Phase : Type) where
  times : Map String (Map Phase Int)

structure Transition (Phase : Type) where
  start : Phase
  stop : Phase

structure LatencyMetric where
  perc50 : Int
  perc90 : Int
  perc99 : Int
  deriving DecidableEq

namespace ObjectTransitionTimes

def empty : ObjectTransitionTimes Phase := ⟨Store.empty⟩

def set (o : ObjectTransitionTimes Phase) (key : String) (phase : Phase) (t : Int) :
    ObjectTransitionTimes Phase :=
  ⟨o.times.set key (((o.times.get key).getD Store.empty).set phase t)⟩

def get (o : ObjectTransitionTimes Phase) (key : String) (phase : Phase) : Option Int :=
  (o.times.get key).bind (·.get phase)

/-- How many keys have the phase. -/
def count (o : ObjectTransitionTimes Phase) (phase : Phase) : Nat :=
  Store.count o.times fun entry => (entry.2.get phase).isSome

def getOrderedKeys (o : ObjectTransitionTimes Phase) (phase : Phase) : List (String × Int) :=
  (o.times.entries.filterMap fun entry => (entry.2.get phase).map fun t =>
    (entry.1, t)).insertionSort fun a b => a.2 ≤ b.2

end ObjectTransitionTimes

inductive Percentile where
  | perc50
  | perc90
  | perc99

def Percentile.hundredths : Percentile → Nat
  | perc50 => 50
  | perc90 => 90
  | perc99 => 99

theorem Percentile.valid (q : Percentile) : 0 < q.hundredths ∧ q.hundredths ≤ 100 := by
  cases q <;> decide

/-- `⌈n * p / 100⌉`. -/
def Percentile.rank (q : Percentile) (n : Nat) : Nat := (n * q.hundredths + 99) / 100

theorem Percentile.rank_mem (q : Percentile) {n : Nat} (pos : 0 < n) :
    1 ≤ q.rank n ∧ q.rank n ≤ n := by
  have low : n * 1 ≤ n * q.hundredths := Nat.mul_le_mul_left n q.valid.1
  have high : n * q.hundredths ≤ n * 100 := Nat.mul_le_mul_left n q.valid.2
  unfold rank
  omega

theorem Percentile.index_lt (q : Percentile) {n : Nat} (pos : 0 < n) : q.rank n - 1 < n := by
  have := q.rank_mem pos
  omega

/-- The latency of the rank; the index is always in range. -/
def percentile (sorted : List Int) (nonempty : 0 < sorted.length) (q : Percentile) : Int :=
  sorted.get ⟨q.rank sorted.length - 1, q.index_lt nonempty⟩

def newLatencyMetric (sorted : List Int) : LatencyMetric :=
  if nonempty : 0 < sorted.length then
    ⟨percentile sorted nonempty .perc50, percentile sorted nonempty .perc90,
      percentile sorted nonempty .perc99⟩
  else ⟨0, 0, 0⟩

def minDuration : Int := -2 ^ 63

def maxDuration : Int := 2 ^ 63 - 1

/-- `Time.Sub`: a difference that is no `Duration` becomes the nearest one. -/
def sub (t u : Int) : Int := max minDuration (min maxDuration (t - u))

/-- The time between two phases of one object, where it has both. A difference
below zero comes from truncated timestamps and counts as zero. -/
def lag (times : Map Phase Int) (transition : Transition Phase) : Option Int :=
  match times.get transition.start, times.get transition.stop with
  | some fromPhaseTime, some toPhaseTime =>
    let latencyTime := sub toPhaseTime fromPhaseTime
    some (if latencyTime < 0 then 0 else latencyTime)
  | _, _ => none

structure LatencyData where
  key : String
  latency : Int

/-- The loop over the table, in the order in which it is gone through. -/
def collect (filter : String → Bool) (transition : Transition Phase)
    (order : List (String × Map Phase Int)) : List LatencyData :=
  order.filterMap fun entry =>
    if filter entry.1 then (lag entry.2 transition).map (LatencyData.mk entry.1) else none

/-- The metrics where both maps are gone through in the order of their entries. -/
def calculateTransitionsLatency (o : ObjectTransitionTimes Phase)
    (transitions : List (String × Transition Phase)) (filter : String → Bool) :
    List (String × LatencyMetric) :=
  transitions.map fun named =>
    let lag := (collect filter named.2 o.times.entries).map LatencyData.latency
    (named.1, newLatencyMetric (lag.insertionSort (· ≤ ·)))

theorem latency_collect (filter : String → Bool) (transition : Transition Phase)
    (order : List (String × Map Phase Int)) :
    (collect filter transition order).map LatencyData.latency =
      order.filterMap fun entry => if filter entry.1 then lag entry.2 transition else none := by
  rw [collect, List.map_filterMap]
  refine List.filterMap_congr fun entry _ => ?_
  cases filter entry.1 with
  | false => rfl
  | true => cases lag entry.2 transition <;> rfl

namespace ObjectTransitionTimes

variable (o : ObjectTransitionTimes Phase)

theorem get_set (key : String) (phase : Phase) (t : Int) (key' : String) (phase' : Phase) :
    (o.set key phase t).get key' phase' =
      if key' = key ∧ phase' = phase then some t else o.get key' phase' := by
  rw [get, set, Map.get_set]
  by_cases hkey : key' = key
  · subst hkey
    rw [if_pos rfl, Option.bind_some, Map.get_set]
    by_cases hphase : phase' = phase
    · rw [if_pos hphase, if_pos ⟨rfl, hphase⟩]
    · rw [if_neg hphase, if_neg fun h => hphase h.2, get]
      cases o.times.get key' <;> rfl
  · rw [if_neg hkey, if_neg fun h => hkey h.1, get]

variable {key : String} {phase : Phase}

/-- A phase once recorded stays. -/
theorem isSome_get_set (h : (o.get key phase).isSome = true)
    (key' : String) (phase' : Phase) (t : Int) :
    ((o.set key' phase' t).get key phase).isSome = true := by
  rw [get_set]
  split
  · rfl
  · exact h

def keysWith (phase : Phase) : List String :=
  (o.times.entries.filter fun entry => (entry.2.get phase).isSome).map Prod.fst

theorem mem_keysWith : key ∈ o.keysWith phase ↔ (o.get key phase).isSome = true := by
  rw [keysWith, List.mem_map]
  constructor
  · rintro ⟨entry, hentry, rfl⟩
    obtain ⟨hmem, hphase⟩ := List.mem_filter.mp hentry
    rw [get, Map.get_of_mem hmem]
    exact hphase
  · intro h
    cases hget : o.times.get key with
    | none => simp [get, hget] at h
    | some times =>
      obtain ⟨entry, hlookup, rfl⟩ := Option.map_eq_some_iff.mp hget
      obtain ⟨hmem, hkey⟩ := Store.lookup_eq_some.mp hlookup
      refine ⟨entry, List.mem_filter.mpr ⟨hmem, ?_⟩, hkey⟩
      simpa only [get, hget, Option.bind_some] using h

theorem keysWith_nodup (phase : Phase) : (o.keysWith phase).Nodup :=
  o.times.unique.sublist (List.filter_sublist.map Prod.fst)

theorem count_eq_length (phase : Phase) : o.count phase = (o.keysWith phase).length := by
  rw [count, keysWith, List.length_map]
  exact List.countP_eq_length_filter

theorem count_le_count {o o' : ObjectTransitionTimes Phase}
    (kept : ∀ key, (o.get key phase).isSome = true → (o'.get key phase).isSome = true) :
    o.count phase ≤ o'.count phase := by
  rw [count_eq_length, count_eq_length]
  refine (List.subperm_of_subset (o.keysWith_nodup phase) fun key h => ?_).length_le
  exact (o'.mem_keysWith).mpr (kept key ((o.mem_keysWith).mp h))

theorem get_of_count_eq_zero (none : o.count phase = 0) (key : String) :
    o.get key phase = .none := by
  rw [count_eq_length, List.length_eq_zero_iff] at none
  rw [← Option.not_isSome_iff_eq_none, ← mem_keysWith, none]
  exact List.not_mem_nil

/-- Where the keys with a phase lie among no more than as many keys, all of
these have it. -/
theorem isSome_get_of_length_le {keys : List String}
    (among : ∀ key, (o.get key phase).isSome = true → key ∈ keys)
    (long : keys.length ≤ o.count phase) (hkey : key ∈ keys) : (o.get key phase).isSome = true := by
  rw [count_eq_length] at long
  refine (o.mem_keysWith).mp ?_
  exact mem_of_subset_of_length_le (o.keysWith_nodup phase)
    (fun key h => among key ((o.mem_keysWith).mp h)) long hkey

end ObjectTransitionTimes

end TransitionTimes
