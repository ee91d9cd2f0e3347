import ClusterLoader.Histograms

/-!
# Histograms add up samples

All values of samples are taken to be integers that fit; their sums may not.
-/

namespace HistogramSums

open KeyedStore Histograms

def labelsOf (vec : HistogramVec) : List LabelMap := vec.map Histogram.labels

variable {s : Sample} {samples : List Sample} {vec : HistogramVec} {labels : LabelMap}

theorem labelsOf_convertSampleToBucket : labelsOf (convertSampleToBucket s vec) =
    if s.labels ∈ labelsOf vec then labelsOf vec else labelsOf vec ++ [s.labels] := by
  induction vec with
  | nil => rfl
  | cons h rest ih =>
    rw [convertSampleToBucket]
    by_cases found : s.labels = h.labels
    · simp [labelsOf, found, Histogram.add]
    · simp only [labelsOf, List.map_cons, List.mem_cons, found, if_false, false_or] at ih ⊢
      rw [ih]
      split <;> simp [*]

theorem nodup_convertSamples (distinct : (labelsOf vec).Nodup) :
    (labelsOf (convertSamples samples vec)).Nodup := by
  induction samples generalizing vec with
  | nil => exact distinct
  | cons s rest ih =>
    refine ih ?_
    rw [labelsOf_convertSampleToBucket]
    split
    · exact distinct
    · rename_i fresh
      simpa using distinct.concat fresh

theorem mem_labelsOf_convertSamples : labels ∈ labelsOf (convertSamples samples vec) ↔
    labels ∈ labelsOf vec ∨ ∃ s ∈ samples, s.labels = labels := by
  induction samples generalizing vec with
  | nil => simp [convertSamples]
  | cons s rest ih =>
    have first : labels ∈ labelsOf (convertSampleToBucket s vec) ↔
        labels ∈ labelsOf vec ∨ s.labels = labels := by
      rw [labelsOf_convertSampleToBucket]
      split
      · rename_i known
        exact ⟨.inl, fun either => either.elim id fun same => same ▸ known⟩
      · simp [eq_comm]
    rw [convertSamples, List.foldl_cons, List.exists_mem_cons_iff, ← or_assoc, ← first]
    exact ih

/-- The samples are added up modulo `2 ^ 64`, whatever their order; a sum that
fits is the count. -/
theorem samples_summed (vec : HistogramVec) (distinct : (labelsOf vec).Nodup)
    (samples : List Sample) :
    (labelsOf (convertSamples samples vec)).Nodup ∧
    (∀ labels, labels ∈ labelsOf (convertSamples samples vec) ↔
      labels ∈ labelsOf vec ∨ ∃ s ∈ samples, s.labels = labels) ∧
    (∀ labels bucket,
      (¬ Sampled samples labels bucket →
        entry (convertSamples samples vec) labels bucket = entry vec labels bucket) ∧
      (Sampled samples labels bucket → ∀ n,
        n = (entry vec labels bucket).getD 0 + total samples labels bucket →
        entry (convertSamples samples vec) labels bucket = some (n.bmod (2 ^ 64)) ∧
        (-2 ^ 63 ≤ n → n < 2 ^ 63 →
          entry (convertSamples samples vec) labels bucket = some n))) ∧
    ∀ samples', samples.Perm samples' →
      (labelsOf (convertSamples samples vec)).Perm (labelsOf (convertSamples samples' vec)) ∧
      ∀ labels bucket, entry (convertSamples samples vec) labels bucket =
        entry (convertSamples samples' vec) labels bucket := by
  refine ⟨nodup_convertSamples distinct, fun _ => mem_labelsOf_convertSamples,
    fun labels bucket => ?_, fun samples' perm => ⟨?_, fun labels bucket => ?_⟩⟩
  · rw [entry_convertSamples]
    refine ⟨fun none => if_neg none, ?_⟩
    rintro sampled n rfl
    rw [if_pos sampled]
    exact ⟨rfl, fun low high => congrArg some (int64_of_fits low high)⟩
  · refine (List.perm_ext_iff_of_nodup (nodup_convertSamples distinct)
      (nodup_convertSamples distinct)).mpr fun labels => ?_
    simp only [mem_labelsOf_convertSamples, perm.mem_iff]
  · have sum : total samples labels bucket = total samples' labels bucket :=
      (perm.map _).sum_eq
    have any : Sampled samples labels bucket ↔ Sampled samples' labels bucket := by
      simp only [Sampled, perm.mem_iff]
    simp only [entry_convertSamples, sum, any]

/-- A sample of the requests with a verb, in the bucket up to one second. -/
def requests (verb : String) (n : Int) : Sample :=
  ⟨[⟨"verb", verb⟩, ⟨"le", "1"⟩].toFinmap, n⟩

/-- A vector that has counted four requests. -/
def counted : HistogramVec := convertSamples [requests "GET" 4] []

/-- Samples with two label sets, one of which the vector has. -/
theorem samples_summed_two_verbs :
    entry (convertSamples [requests "GET" 2, requests "PUT" 5, requests "GET" 1] counted)
      (requests "GET" 0).labels "1" = some 7 ∧
    entry (convertSamples [requests "GET" 2, requests "PUT" 5, requests "GET" 1] counted)
      (requests "PUT" 0).labels "1" = some 5 := by
  have summed := (samples_summed counted (by decide +kernel)
    [requests "GET" 2, requests "PUT" 5, requests "GET" 1]).2.2.1
  constructor
  · exact ((summed _ "1").2 (by decide +kernel) 7 (by decide +kernel)).2 (by decide) (by decide)
  · exact ((summed _ "1").2 (by decide +kernel) 5 (by decide +kernel)).2 (by decide) (by decide)

/-- Two samples whose sum is the first that does not fit. -/
theorem sum_wraps_around :
    total [requests "GET" (2 ^ 62), requests "GET" (2 ^ 62)] (requests "GET" 0).labels "1" =
        2 ^ 63 ∧
      entry (convertSamples [requests "GET" (2 ^ 62), requests "GET" (2 ^ 62)] [])
        (requests "GET" 0).labels "1" = some (-2 ^ 63) := by
  decide +kernel

end HistogramSums
