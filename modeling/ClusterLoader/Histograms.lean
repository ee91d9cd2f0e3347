import Mathlib.Algebra.Ring.Int.Defs
import Mathlib.Data.Finmap
import ClusterLoader.KeyedStore

/-!
# Histograms

`ConvertSampleToBucket` adds a Prometheus sample to the first histogram of the
vector with the sample's labels, or to a new one at its end;
`ConvertSampleToHistogram` adds it to one histogram whatever its labels. A label
map is a finite map, compared as `reflect.DeepEqual` compares maps: by its
entries. The value of a sample is its conversion to an integer; the counts are of
type `int`, which wraps around. Quantile hands the buckets to a library, in order
and with their counts as `uint64`.
-/

namespace Histograms

open KeyedStore

abbrev LabelMap := Finmap fun _ : String => String

structure Sample where
  metric : LabelMap
  value : Int

def bucketLabel : String := "le"

def Sample.labels (s : Sample) : LabelMap := s.metric.erase bucketLabel

/-- A map without the label yields the empty string. -/
def Sample.bucket (s : Sample) : String := (s.metric.lookup bucketLabel).getD ""

structure Histogram where
  labels : LabelMap
  buckets : Map String Int

abbrev HistogramVec := List Histogram

def newHistogram (labels : LabelMap) : Histogram := ⟨labels, Store.empty⟩

/-- A 64-bit `int`. -/
def int64 (n : Int) : Int := n.bmod (2 ^ 64)

def Histogram.add (h : Histogram) (bucket : String) (n : Int) : Histogram :=
  { h with buckets := h.buckets.set bucket (int64 ((h.buckets.get bucket).getD 0 + n)) }

def convertSampleToBucket (s : Sample) : HistogramVec → HistogramVec
  | [] => [(newHistogram s.labels).add s.bucket s.value]
  | h :: rest =>
    if s.labels = h.labels then h.add s.bucket s.value :: rest
    else h :: convertSampleToBucket s rest

def convertSampleToHistogram (s : Sample) (h : Histogram) : Histogram :=
  { h.add s.bucket s.value with labels := s.labels }

/-- The conversion of an `int` to `uint64`. -/
def uint64 (n : Int) : Nat := (n % 2 ^ 64).toNat

section Quantile
variable {B : Type} [LinearOrder B] (parseFloat : String → Except String B)

def Histogram.quantileBuckets (h : Histogram) : Except String (List (B × Nat)) := do
  let buckets ← h.buckets.entries.mapM fun e =>
    (parseFloat e.1).map fun upper => (upper, uint64 e.2)
  return buckets.mergeSort fun b b' => b.1 ≤ b'.1

end Quantile

theorem uint64_of_nonneg {n : Int} (nonneg : 0 ≤ n) (fits : n < 2 ^ 64) : (uint64 n : Int) = n := by
  rw [uint64, Int.emod_eq_of_lt nonneg fits, Int.toNat_of_nonneg nonneg]

theorem int64_absorbs (a n : Int) : int64 (int64 a + n) = int64 (a + n) :=
  Int.bmod_add_bmod

theorem int64_of_fits {n : Int} (low : -2 ^ 63 ≤ n) (high : n < 2 ^ 63) : int64 n = n :=
  Int.bmod_eq_of_le (by omega) (by omega)

theorem int64_int64 (n : Int) : int64 (int64 n) = int64 n := Int.bmod_bmod

theorem int64_sub_int64 (a b : Int) : int64 (int64 a - int64 b) = int64 (a - b) :=
  Int.bmod_sub_bmod.trans Int.sub_bmod_bmod

theorem int64_bounds (n : Int) : -2 ^ 63 ≤ int64 n ∧ int64 n < 2 ^ 63 := by
  have low := @Int.le_bmod n (2 ^ 64) (by decide)
  have high := @Int.bmod_lt n (2 ^ 64) (by decide)
  rw [int64]
  omega

theorem eq_zero_of_int64_add {a n : Int} (fits : int64 a = a) (sum : int64 (a + n) = n) :
    a = 0 := by
  have self : int64 n = n := by rw [← sum, int64_int64]
  have same : int64 (a + n) = int64 (0 + n) := by rw [sum, Int.zero_add, self]
  have zero : int64 a = int64 0 := (Int.bmod_add_cancel_right n).mp same
  exact fits.symm.trans zero

/-! ## The sum of the samples -/

/-- The entry of a bucket in the first histogram with the labels. -/
def entry (vec : HistogramVec) (labels : LabelMap) (bucket : String) : Option Int :=
  (vec.find? fun h => labels = h.labels).bind fun h => h.buckets.get bucket

/-- What is not there counts as zero. -/
def count (vec : HistogramVec) (labels : LabelMap) (bucket : String) : Int :=
  (entry vec labels bucket).getD 0

def convertSamples (samples : List Sample) (vec : HistogramVec) : HistogramVec :=
  samples.foldl (fun vec s => convertSampleToBucket s vec) vec

/-- What a sample contributes to a bucket. -/
def Sample.share (s : Sample) (labels : LabelMap) (bucket : String) : Int :=
  if labels = s.labels ∧ bucket = s.bucket then s.value else 0

/-- The sum of the samples with the labels and the bucket. -/
def total (samples : List Sample) (labels : LabelMap) (bucket : String) : Int :=
  (samples.map fun s => s.share labels bucket).sum

/-- One of the samples goes into the bucket. -/
def Sampled (samples : List Sample) (labels : LabelMap) (bucket : String) : Prop :=
  ∃ s ∈ samples, labels = s.labels ∧ bucket = s.bucket

instance {samples : List Sample} {labels : LabelMap} {bucket : String} :
    Decidable (Sampled samples labels bucket) :=
  inferInstanceAs (Decidable (∃ s ∈ samples, labels = s.labels ∧ bucket = s.bucket))

variable {s : Sample} {samples : List Sample} {vec : HistogramVec} {labels : LabelMap}
  {bucket : String}

theorem entry_convertSampleToBucket : entry (convertSampleToBucket s vec) labels bucket =
    if labels = s.labels ∧ bucket = s.bucket then some (int64 (count vec labels bucket + s.value))
    else entry vec labels bucket := by
  induction vec with
  | nil =>
    by_cases same : labels = s.labels
    · by_cases here : bucket = s.bucket <;>
        simp [convertSampleToBucket, count, entry, Histogram.add, newHistogram, same, here,
          Map.get_set]
    · simp [convertSampleToBucket, entry, Histogram.add, newHistogram, same]
  | cons h rest ih =>
    rw [convertSampleToBucket]
    by_cases found : s.labels = h.labels
    · rw [if_pos found]
      by_cases same : labels = s.labels
      · by_cases here : bucket = s.bucket <;>
          simp [count, entry, Histogram.add, found, same, here, Map.get_set]
      · have other : labels ≠ h.labels := found ▸ same
        simp [entry, Histogram.add, same, other]
    · rw [if_neg found]
      by_cases same : labels = h.labels
      · have other : labels ≠ s.labels := fun e => found (e.symm.trans same)
        simp [entry, same, Ne.symm found]
      · simpa [count, entry, same] using ih

theorem total_of_not_sampled (none : ¬ Sampled samples labels bucket) :
    total samples labels bucket = 0 := by
  refine List.sum_eq_zero fun n hn => ?_
  obtain ⟨s, hs, rfl⟩ := List.mem_map.mp hn
  exact if_neg fun here => none ⟨s, hs, here⟩

/-- A bucket holds what it held before and the sum of its samples. -/
theorem entry_convertSamples : entry (convertSamples samples vec) labels bucket =
    if Sampled samples labels bucket then
      some (int64 (count vec labels bucket + total samples labels bucket))
    else entry vec labels bucket := by
  induction samples generalizing vec with
  | nil => simp [convertSamples, Sampled]
  | cons s rest ih =>
    have cons : Sampled (s :: rest) labels bucket ↔
        (labels = s.labels ∧ bucket = s.bucket) ∨ Sampled rest labels bucket :=
      List.exists_mem_cons_iff ..
    have sum : total (s :: rest) labels bucket =
        s.share labels bucket + total rest labels bucket := List.sum_cons
    refine ih.trans ?_
    rw [count, entry_convertSampleToBucket, sum, Sample.share]
    by_cases here : labels = s.labels ∧ bucket = s.bucket
    · rw [if_pos here, if_pos here, if_pos (cons.mpr (.inl here))]
      split
      · rw [Option.getD_some, int64_absorbs, Int.add_assoc]
      · rename_i never
        rw [total_of_not_sampled never, Int.add_zero]
    · rw [if_neg here, if_neg here, Int.zero_add]
      exact if_congr (cons.trans (or_iff_right here)).symm rfl rfl

theorem count_convertSamples (fits : int64 (count vec labels bucket) = count vec labels bucket) :
    count (convertSamples samples vec) labels bucket =
      int64 (count vec labels bucket + total samples labels bucket) := by
  rw [count, entry_convertSamples]
  split
  · rfl
  · rename_i never
    rw [total_of_not_sampled never, Int.add_zero, fits]
    rfl

end Histograms
