import ClusterLoader.EnabledRuns
import ClusterLoader.PodStatuses
import ClusterLoader.QueryWindows
import ClusterLoader.ResourceUsage

/-!
# Scheduling throughput

A start launches a goroutine that lists the pods after every interval and appends
to a slice of the measurement how many more are scheduled, per second. A gather
closes the stop channel and computes percentiles from the slice. It neither waits
for the goroutine nor empties the slice, and the goroutine reads the field that
holds the stop channel anew before each wait.

Throughputs are exact rationals, with the infinities and the value that is not a
number which a division by zero yields. Actions are atomic: that an append may run
at the same time as the sort of a gather is not modelled. Selectors, the text of
errors and log output are left out. The windows that the listings are made in are
numbered by the starts that launch a goroutine, and what was recorded in which
window is kept in addition to the slice.
-/

namespace SchedulingThroughput

open EnabledRuns NearestRank PodStatuses

/-! ## Throughputs -/

inductive Throughput where
  | nan
  | negInf
  | finite (q : ℚ)
  | posInf
  deriving DecidableEq

namespace Throughput

/-- The order of `sort.Float64s`, in which what is not a number comes first. -/
def rank : Throughput → WithBot (WithBot (WithTop ℚ))
  | .nan => ⊥
  | .negInf => ((⊥ : WithBot (WithTop ℚ)) : WithBot (WithBot (WithTop ℚ)))
  | .finite q => (((q : WithTop ℚ) : WithBot (WithTop ℚ)) : WithBot (WithBot (WithTop ℚ)))
  | .posInf => (((⊤ : WithTop ℚ) : WithBot (WithTop ℚ)) : WithBot (WithBot (WithTop ℚ)))

theorem rank_injective : Function.Injective rank := by
  intro x y h
  cases x <;> cases y <;> simp_all [rank]

instance : LinearOrder Throughput := LinearOrder.lift' rank rank_injective

/-- The comparison of floats, in which what is not a number is below nothing. -/
def lt : Throughput → ℚ → Bool
  | .nan, _ => false
  | .negInf, _ => true
  | .finite q, r => q < r
  | .posInf, _ => false

/-- What has no JSON makes printing the summary fail. -/
def encodable : Throughput → Bool
  | .finite _ => true
  | _ => false

/-- The division of two integers that are converted to `float64`. -/
def quotient (n d : Int) : Throughput :=
  if d = 0 then if n = 0 then .nan else if n < 0 then .negInf else .posInf
  else .finite ((n : ℚ) / (d : ℚ))

end Throughput

open Throughput

abbrev second : Int := QueryWindows.second

/-- The interval is divided by a second as an integer before it is converted. -/
def throughput (scheduled lastScheduledCount : Nat) (measurmentInterval : Int) : Throughput :=
  quotient ((scheduled : Int) - lastScheduledCount) (measurmentInterval.tdiv second)

def scheduledOf (pods : List Pod) : Nat := (computePodsStartupStatus none pods 0).scheduled

/-! ## The summary -/

structure Summary where
  perc50 : Throughput
  perc90 : Throughput
  perc99 : Throughput
  max : Throughput

/-- The summary of a sorted slice; an index out of range panics. -/
def summaryOf (sorted : List Throughput) : Option Summary :=
  let length := sorted.length
  if 0 < length then do
    let perc50 ← ResourceUsage.at? sorted (nearestRank length 50 - 1)
    let perc90 ← ResourceUsage.at? sorted (nearestRank length 90 - 1)
    let perc99 ← ResourceUsage.at? sorted (nearestRank length 99 - 1)
    let max ← ResourceUsage.at? sorted (length - 1)
    return ⟨perc50, perc90, perc99, max⟩
  else some ⟨.finite 0, .finite 0, .finite 0, .finite 0⟩

inductive Report where
  | panicked
  | unprintable
  | printed (summary : Summary) (violation : Bool)

def reportOf (threshold : ℚ) (enableViolations : Bool) (sorted : List Throughput) : Report :=
  match summaryOf sorted with
  | none => .panicked
  | some summary =>
    if [summary.perc50, summary.perc90, summary.perc99, summary.max].all encodable then
      .printed summary (enableViolations && decide (0 < threshold) && summary.max.lt threshold)
    else .unprintable

/-! ## The measurement and its goroutines -/

inductive Position where
  /-- About to look at the stop channel and to set the timer. -/
  | looping
  | waiting (stopCh : Nat)
  | listed (scheduled : Nat)
  | returned

structure Goroutine where
  measurmentInterval : Int
  lastScheduledCount : Nat
  position : Position

/-- A throughput with the listing that it was recorded for. -/
structure Listing where
  window : Nat
  measurmentInterval : Int
  scheduled : Nat
  throughput : Throughput

/-- What a gather computed its summary from, and the listings of its window. -/
structure Gathering where
  throughputs : List Throughput
  own : List Listing
  threshold : ℚ
  enableViolations : Bool
  report : Report

structure State where
  schedulingThroughputs : List Throughput
  isRunning : Bool
  /-- Channels are numbered as they are made. -/
  stopCh : Nat
  closed : List Nat
  goroutines : Nat → Option Goroutine
  /-- The number of the last window. -/
  window : Nat
  listings : List Listing
  gatherings : List Gathering

def init : State where
  schedulingThroughputs := []
  isRunning := false
  stopCh := 0
  closed := []
  goroutines := fun _ => none
  window := 0
  listings := []
  gatherings := []

namespace State

/-- The listings of a window, in the order in which they were recorded. -/
def listingsOf (s : State) (w : Nat) : List Listing := s.listings.filter fun l => l.window = w

def setGoroutine (s : State) (w : Nat) (g : Goroutine) : State :=
  { s with goroutines := fun i => if i = w then some g else s.goroutines i }

/-- The field is set to a new channel before the store of pods is made, which may fail. -/
def start (s : State) (measurmentInterval : Int) (store : Except String Unit) : State :=
  match store with
  | .error _ => { s with stopCh := s.stopCh + 1 }
  | .ok _ =>
    { s with
      stopCh := s.stopCh + 1
      isRunning := true
      window := s.window + 1
      goroutines := fun i =>
        if i = s.window + 1 then some ⟨measurmentInterval, 0, .looping⟩ else s.goroutines i }

def stop (s : State) : State :=
  if s.isRunning then { s with closed := s.stopCh :: s.closed, isRunning := false } else s

def gather (s : State) (threshold : ℚ) (enableViolations : Bool) : State :=
  let sorted := s.schedulingThroughputs.insertionSort (· ≤ ·)
  { s.stop with
    schedulingThroughputs := sorted
    gatherings := s.gatherings ++ [{
      throughputs := sorted
      own := s.listingsOf s.window
      threshold := threshold
      enableViolations := enableViolations
      report := reportOf threshold enableViolations sorted }] }

def record (s : State) (w : Nat) (g : Goroutine) (scheduled : Nat) : State :=
  let value := throughput scheduled g.lastScheduledCount g.measurmentInterval
  { s.setGoroutine w { g with lastScheduledCount := scheduled, position := .looping } with
    schedulingThroughputs := s.schedulingThroughputs ++ [value]
    listings := s.listings ++ [⟨w, g.measurmentInterval, scheduled, value⟩] }

end State

inductive Action where
  | start (measurmentInterval : Except String Int) (store : Except String Unit)
  | gather (threshold : ℚ) (enableViolations : Bool)
  | dispose
  | loop (w : Nat)
  | list (w : Nat) (pods : List Pod)
  | record (w : Nat)
  | leave (w : Nat)

def step (s : State) : Action → Option State
  | .start measurmentInterval store =>
    match s.isRunning, measurmentInterval with
    | false, .ok measurmentInterval => some (s.start measurmentInterval store)
    | _, _ => some s
  | .gather threshold enableViolations =>
    if s.isRunning then some (s.gather threshold enableViolations) else some s
  | .dispose => some s.stop
  | .loop w =>
    match s.goroutines w with
    | some ⟨interval, last, .looping⟩ => some (s.setGoroutine w ⟨interval, last, .waiting s.stopCh⟩)
    | _ => none
  | .list w pods =>
    match s.goroutines w with
    | some ⟨interval, last, .waiting _⟩ =>
      some (s.setGoroutine w ⟨interval, last, .listed (scheduledOf pods)⟩)
    | _ => none
  | .record w =>
    match s.goroutines w with
    | some ⟨interval, last, .listed scheduled⟩ =>
      some (s.record w ⟨interval, last, .listed scheduled⟩ scheduled)
    | _ => none
  | .leave w =>
    match s.goroutines w with
    | some ⟨interval, last, .waiting stopCh⟩ =>
      if stopCh ∈ s.closed then some (s.setGoroutine w ⟨interval, last, .returned⟩) else none
    | _ => none

/-! ## What is to be measured -/

/-- Pods per second. -/
def rate (increase : Int) (measurmentInterval : Int) : ℚ :=
  (increase : ℚ) / ((measurmentInterval : ℚ) / (second : ℚ))

/-- Each throughput is the increase since the listing before, per second. -/
def Exact : Nat → List Listing → Prop
  | _, [] => True
  | last, l :: rest => l.measurmentInterval ≠ 0 ∧
    l.throughput = .finite (rate ((l.scheduled : Int) - last) l.measurmentInterval) ∧
      Exact l.scheduled rest

def lastCount (last : Nat) (ls : List Listing) : Nat :=
  ls.foldl (fun _ l => l.scheduled) last

/-- The pods that a throughput stands for. -/
def Listing.pods (l : Listing) : ℚ :=
  match l.throughput with
  | .finite q => q * ((l.measurmentInterval : ℚ) / (second : ℚ))
  | _ => 0

/-- Every window is measured in pods per second and adds up to the pods that it found
scheduled last, and every gather reports on its own window. -/
structure Measured (s : State) : Prop where
  exact : ∀ w, Exact 0 (s.listingsOf w)
  total : ∀ w, ((s.listingsOf w).map Listing.pods).sum = lastCount 0 (s.listingsOf w)
  own : ∀ g ∈ s.gatherings, g.throughputs.Perm (g.own.map (·.throughput)) ∧
    g.report = reportOf g.threshold g.enableViolations
      ((g.own.map (·.throughput)).insertionSort (· ≤ ·))

/-- The interval is a whole number of seconds other than zero; or it is a second long at
least and nothing was scheduled since the last listing. -/
def wholeSeconds (measurmentInterval increase : Int) : Bool :=
  decide (second ≤ |measurmentInterval|) && (measurmentInterval % second == 0 || increase == 0)

/-- A throughput is recorded for whole seconds only, and at a gather nothing has been
recorded in an earlier window. -/
def guard (s : State) : Action → Bool
  | .record w =>
    match s.goroutines w with
    | some ⟨interval, last, .listed scheduled⟩ =>
      wholeSeconds interval ((scheduled : Int) - last)
    | _ => true
  | .gather _ _ => !s.isRunning || s.listings.all fun l => l.window == s.window
  | _ => true

/-! ## One throughput -/

variable {interval : Int}

theorem tdiv_eq_zero_iff : interval.tdiv second = 0 ↔ |interval| < second := by
  have hsecond : second = 1000000000 := rfl
  rcases le_total 0 interval with h | h
  · rw [abs_of_nonneg h, Int.tdiv_eq_ediv_of_nonneg h, hsecond]
    omega
  · have hneg : interval.tdiv second = -((-interval).tdiv second) := by
      rw [Int.neg_tdiv, Int.neg_neg]
    rw [abs_of_nonpos h, hneg, Int.tdiv_eq_ediv_of_nonneg (by omega), hsecond]
    omega

theorem tdiv_mul_eq_iff : interval.tdiv second * second = interval ↔ interval % second = 0 := by
  constructor
  · intro h
    rw [← h]
    exact Int.mul_emod_left ..
  · intro h
    exact Int.tdiv_mul_cancel (Int.dvd_of_emod_eq_zero h)

theorem second_ne_zero : (second : ℚ) ≠ 0 := Int.cast_ne_zero.mpr (by decide)

theorem rate_eq_iff {increase : Int} (h : interval.tdiv second ≠ 0) :
    (increase : ℚ) / (interval.tdiv second : ℚ) = rate increase interval ↔
      interval % second = 0 ∨ increase = 0 := by
  have hinterval : (interval : ℚ) ≠ 0 := by
    intro hzero
    obtain rfl : interval = 0 := by exact_mod_cast hzero
    exact h (Int.zero_tdiv _)
  have hquotient : (interval.tdiv second : ℚ) ≠ 0 := by exact_mod_cast h
  rw [rate, div_eq_div_iff hquotient (div_ne_zero hinterval second_ne_zero), mul_eq_mul_left_iff,
    div_eq_iff second_ne_zero, ← tdiv_mul_eq_iff]
  apply or_congr
  · rw [eq_comm]
    exact_mod_cast Iff.rfl
  · exact_mod_cast Iff.rfl

variable {scheduled last : Nat}

/-- The integer division is exact for whole seconds only. -/
theorem throughput_exact_iff : (interval ≠ 0 ∧ throughput scheduled last interval =
      .finite (rate ((scheduled : Int) - last) interval)) ↔
      wholeSeconds interval ((scheduled : Int) - last) = true := by
  rw [wholeSeconds, Bool.and_eq_true, Bool.or_eq_true, decide_eq_true_iff, beq_iff_eq,
    beq_iff_eq, throughput, quotient]
  by_cases short : interval.tdiv second = 0
  · have hshort := tdiv_eq_zero_iff.mp short
    constructor
    · rintro ⟨_, h⟩
      split_ifs at h
    · omega
  · have hlong : second ≤ |interval| := not_lt.mp fun h => short (tdiv_eq_zero_iff.mpr h)
    have hinterval : interval ≠ 0 := by
      rintro rfl
      exact short (Int.zero_tdiv _)
    rw [if_neg short, Throughput.finite.injEq, rate_eq_iff short]
    exact ⟨fun h => ⟨hlong, h.2⟩, fun h => ⟨hinterval, h.2⟩⟩

theorem rate_mul (increase : Int) (h : interval ≠ 0) :
    rate increase interval * ((interval : ℚ) / (second : ℚ)) = increase := by
  have hinterval : (interval : ℚ) ≠ 0 := by exact_mod_cast h
  exact div_mul_cancel₀ _ (div_ne_zero hinterval second_ne_zero)

/-! ## The listings of a window -/

theorem lastCount_append (last : Nat) (ls : List Listing) (l : Listing) :
    lastCount last (ls ++ [l]) = l.scheduled := by
  rw [lastCount, List.foldl_append]
  rfl

theorem exact_append {ls : List Listing} {l : Listing} :
    Exact last (ls ++ [l]) ↔ Exact last ls ∧ l.measurmentInterval ≠ 0 ∧
      l.throughput =
        .finite (rate ((l.scheduled : Int) - lastCount last ls) l.measurmentInterval) := by
  induction ls generalizing last with
  | nil => simp [Exact, lastCount]
  | cons l' rest ih =>
    rw [List.cons_append, Exact, ih, Exact]
    simp only [and_assoc]
    rfl

theorem pods_of_exact {l : Listing} (defined : l.measurmentInterval ≠ 0)
    (h : l.throughput = .finite (rate ((l.scheduled : Int) - last) l.measurmentInterval)) :
    l.pods = (l.scheduled : ℚ) - last := by
  rw [Listing.pods, h]
  refine (rate_mul _ defined).trans ?_
  push_cast
  rfl

/-- The increases add up to the last count. -/
theorem sum_pods {ls : List Listing} (exact : Exact last ls) :
    (ls.map Listing.pods).sum = (lastCount last ls : ℚ) - last := by
  induction ls generalizing last with
  | nil => simp [lastCount]
  | cons l rest ih =>
    obtain ⟨defined, hl, hrest⟩ := exact
    rw [List.map_cons, List.sum_cons, ih hrest, pods_of_exact defined hl]
    change _ = (lastCount l.scheduled rest : ℚ) - last
    ring

theorem listingsOf_record (s : State) (w : Nat) (g : Goroutine) (scheduled i : Nat) :
    (s.record w g scheduled).listingsOf i =
      if i = w then s.listingsOf i ++ [⟨w, g.measurmentInterval, scheduled,
        throughput scheduled g.lastScheduledCount g.measurmentInterval⟩]
      else s.listingsOf i := by
  change (s.listings ++ [_]).filter _ = _
  by_cases h : i = w
  · subst h
    simp [State.listingsOf]
  · rw [if_neg h]
    simp [State.listingsOf, Ne.symm h]

/-! ## What one action does -/

/-- An action that records nothing and reports nothing. -/
structure Quiet (s t : State) : Prop where
  throughputs : t.schedulingThroughputs = s.schedulingThroughputs
  listings : t.listings = s.listings
  gatherings : t.gatherings = s.gatherings
  window : t.window = s.window
  goroutines : ∀ w, (t.goroutines w).map (·.lastScheduledCount) =
    (s.goroutines w).map (·.lastScheduledCount)

theorem Quiet.refl (s : State) : Quiet s s := ⟨rfl, rfl, rfl, rfl, fun _ => rfl⟩

theorem quiet_stop (s : State) : Quiet s s.stop := by
  unfold State.stop
  split
  · exact ⟨rfl, rfl, rfl, rfl, fun _ => rfl⟩
  · exact Quiet.refl s

variable {s : State} {w : Nat} {g : Goroutine}

theorem quiet_setGoroutine {g' : Goroutine}
    (h : s.goroutines w = some g) (same : g'.lastScheduledCount = g.lastScheduledCount) :
    Quiet s (s.setGoroutine w g') := by
  refine ⟨rfl, rfl, rfl, rfl, fun i => ?_⟩
  change Option.map _ (if i = w then some g' else s.goroutines i) = _
  by_cases hi : i = w
  · rw [if_pos hi, hi, h, Option.map_some, Option.map_some, same]
  · rw [if_neg hi]

variable {t : State} {a : Action}

theorem step_cases (h : step s a = some t) : (guard s a = true ∧ Quiet s t) ∨
    (guard s a = true ∧ ∃ interval, t = s.start interval (.ok ())) ∨
    (∃ threshold enable, a = .gather threshold enable ∧ s.isRunning = true ∧
      t = s.gather threshold enable) ∨
    (∃ w interval last scheduled, a = .record w ∧
      s.goroutines w = some ⟨interval, last, .listed scheduled⟩ ∧
      t = s.record w ⟨interval, last, .listed scheduled⟩ scheduled) := by
  cases a with
  | start interval store =>
    simp only [step] at h
    split at h
    · cases h
      cases store with
      | error err => exact .inl ⟨rfl, rfl, rfl, rfl, rfl, fun _ => rfl⟩
      | ok _ => exact .inr (.inl ⟨rfl, _, rfl⟩)
    · cases h
      exact .inl ⟨rfl, Quiet.refl s⟩
  | gather threshold enable =>
    simp only [step] at h
    split at h
    · next running =>
      cases h
      exact .inr (.inr (.inl ⟨threshold, enable, rfl, running, rfl⟩))
    · next stopped =>
      cases h
      exact .inl ⟨by simp [guard, stopped], Quiet.refl s⟩
  | dispose =>
    cases h
    exact .inl ⟨rfl, quiet_stop s⟩
  | loop | list =>
    simp only [step] at h
    split at h
    · next hg =>
      cases h
      exact .inl ⟨rfl, quiet_setGoroutine hg rfl⟩
    · cases h
  | record w =>
    simp only [step] at h
    split at h
    · next interval last scheduled hg =>
      cases h
      exact .inr (.inr (.inr ⟨w, interval, last, scheduled, rfl, hg, rfl⟩))
    · cases h
  | leave w =>
    simp only [step] at h
    split at h
    · next hg =>
      split at h
      · cases h
        exact .inl ⟨rfl, quiet_setGoroutine hg rfl⟩
      · cases h
    · cases h

/-! ## Whole runs -/

/-- What is known in every state of a run that has been measured so far. -/
structure Tracked (s : State) : Prop where
  recorded : s.schedulingThroughputs.Perm (s.listings.map (·.throughput))
  counts : ∀ w g, s.goroutines w = some g → g.lastScheduledCount = lastCount 0 (s.listingsOf w)
  fresh : ∀ w, s.window < w → s.goroutines w = none ∧ s.listingsOf w = []
  measured : Measured s

theorem tracked_init : Tracked init := by
  have measured : Measured init := by
    refine ⟨fun _ => trivial, fun w => ?_, fun g hg => absurd hg List.not_mem_nil⟩
    simp [init, State.listingsOf, lastCount]
  exact ⟨.refl _, nofun, fun _ _ => ⟨rfl, rfl⟩, measured⟩

theorem tracked_quiet (tracked : Tracked s) (quiet : Quiet s t) : Tracked t := by
  have hlistings : ∀ w, t.listingsOf w = s.listingsOf w := by
    intro w
    rw [State.listingsOf, quiet.listings]
    rfl
  refine ⟨?_, fun w g hg => ?_, fun w hw => ?_, ⟨fun w => ?_, fun w => ?_, ?_⟩⟩
  · rw [quiet.throughputs, quiet.listings]
    exact tracked.recorded
  · have hcount := quiet.goroutines w
    rw [hg] at hcount
    obtain ⟨g', hg', hsame⟩ := Option.map_eq_some_iff.mp hcount.symm
    rw [hlistings, ← tracked.counts w g' hg', hsame]
  · have hcount := quiet.goroutines w
    have hfresh := tracked.fresh w (by rwa [← quiet.window])
    rw [hfresh.1, Option.map_none, Option.map_eq_none_iff] at hcount
    exact ⟨hcount, (hlistings w).trans hfresh.2⟩
  · rw [hlistings]
    exact tracked.measured.exact w
  · rw [hlistings]
    exact tracked.measured.total w
  · rw [quiet.gatherings]
    exact tracked.measured.own

theorem tracked_start (tracked : Tracked s) (interval : Int) :
    Tracked (s.start interval (.ok ())) := by
  have measured := tracked.measured
  refine ⟨tracked.recorded, fun w g hg => ?_, fun w hw => ?_,
    ⟨measured.exact, measured.total, measured.own⟩⟩
  · change (if w = s.window + 1 then _ else s.goroutines w) = some g at hg
    by_cases hw : w = s.window + 1
    · rw [if_pos hw] at hg
      cases hg
      have hfresh := tracked.fresh w (by omega)
      change 0 = lastCount 0 (s.listingsOf w)
      rw [hfresh.2]
      rfl
    · rw [if_neg hw] at hg
      exact tracked.counts w g hg
  · change s.window + 1 < w at hw
    have hfresh := tracked.fresh w (by omega)
    refine ⟨?_, hfresh.2⟩
    change (if w = s.window + 1 then _ else s.goroutines w) = none
    rw [if_neg (by omega)]
    exact hfresh.1

theorem listingsOf_gather (s : State) (threshold : ℚ) (enable : Bool) (w : Nat) :
    (s.gather threshold enable).listingsOf w = s.listingsOf w := by
  change s.stop.listings.filter _ = _
  rw [(quiet_stop s).listings]
  rfl

section
variable (tracked : Tracked s)
include tracked

/-- A gather reports on its own window if nothing was recorded in another. -/
theorem measured_gather_iff {threshold : ℚ} {enable : Bool} :
    Measured (s.gather threshold enable) ↔ ∀ l ∈ s.listings, l.window = s.window := by
  have hsorted : (s.schedulingThroughputs.insertionSort (· ≤ ·)).Perm
      (s.listings.map (·.throughput)) :=
    (List.perm_insertionSort _ _).trans tracked.recorded
  constructor
  · intro h
    have hown := (h.own _ (List.mem_append_right _ (List.mem_singleton_self _))).1
    have hlength := (hsorted.symm.trans hown).length_eq
    rw [List.length_map, List.length_map] at hlength
    have hall := List.length_filter_eq_length_iff.mp hlength.symm
    exact fun l hl => of_decide_eq_true (hall l hl)
  · intro all
    have hown : s.listingsOf s.window = s.listings :=
      List.filter_eq_self.mpr fun l hl => decide_eq_true (all l hl)
    refine ⟨fun w => ?_, fun w => ?_, fun g hg => ?_⟩
    · rw [listingsOf_gather]
      exact tracked.measured.exact w
    · rw [listingsOf_gather]
      exact tracked.measured.total w
    · rcases List.mem_append.mp hg with hg | hg
      · exact tracked.measured.own g hg
      · obtain rfl := List.mem_singleton.mp hg
        simp only [hown]
        refine ⟨hsorted, congrArg _ ?_⟩
        -- Values have one order only, however they are recorded.
        exact ((List.perm_insertionSort _ _).trans
          (tracked.recorded.trans (List.perm_insertionSort _ _).symm)).eq_of_pairwise'
            (List.pairwise_insertionSort _ _) (List.pairwise_insertionSort _ _)

/-- A listing is measured in pods per second if its interval is in whole seconds. -/
theorem measured_record_iff (hg : s.goroutines w = some g) :
    Measured (s.record w g scheduled) ↔
      wholeSeconds g.measurmentInterval ((scheduled : Int) - g.lastScheduledCount) = true := by
  rw [← throughput_exact_iff]
  have hlast := tracked.counts w g hg
  constructor
  · intro h
    have hexact := h.exact w
    rw [listingsOf_record, if_pos rfl, exact_append, ← hlast] at hexact
    exact hexact.2
  · intro hnew
    have hexact : ∀ i, Exact 0 ((s.record w g scheduled).listingsOf i) := by
      intro i
      rw [listingsOf_record]
      by_cases hi : i = w
      · subst hi
        rw [if_pos rfl, exact_append, ← hlast]
        exact ⟨tracked.measured.exact i, hnew⟩
      · rw [if_neg hi]
        exact tracked.measured.exact i
    refine ⟨hexact, fun i => ?_, tracked.measured.own⟩
    rw [sum_pods (hexact i), Nat.cast_zero, sub_zero]

theorem tracked_gather {threshold : ℚ} {enable : Bool}
    (measured : Measured (s.gather threshold enable)) : Tracked (s.gather threshold enable) := by
  have hstop := tracked_quiet tracked (quiet_stop s)
  refine ⟨?_, hstop.counts, hstop.fresh, measured⟩
  have hrecorded := hstop.recorded
  rw [(quiet_stop s).throughputs] at hrecorded
  exact (List.perm_insertionSort _ _).trans hrecorded

theorem tracked_record (hg : s.goroutines w = some g)
    (measured : Measured (s.record w g scheduled)) : Tracked (s.record w g scheduled) := by
  refine ⟨?_, fun i g' hg' => ?_, fun i hi => ?_, measured⟩
  · change (s.schedulingThroughputs ++ [_]).Perm ((s.listings ++ [_]).map _)
    rw [List.map_append]
    exact tracked.recorded.append_right _
  · rw [listingsOf_record]
    change (if i = w then _ else s.goroutines i) = some g' at hg'
    by_cases h : i = w
    · rw [if_pos h] at hg'
      cases hg'
      rw [if_pos h, lastCount_append]
    · rw [if_neg h] at hg'
      rw [if_neg h]
      exact tracked.counts i g' hg'
  · have hfresh := tracked.fresh i hi
    have h : i ≠ w := by
      rintro rfl
      cases hg.symm.trans hfresh.1
    rw [listingsOf_record, if_neg h]
    refine ⟨?_, hfresh.2⟩
    change (if i = w then _ else s.goroutines i) = none
    rw [if_neg h]
    exact hfresh.1

theorem step_tracked (ok : guard s a = true) (h : step s a = some t) : Tracked t := by
  rcases step_cases h with ⟨_, quiet⟩ | ⟨_, interval, rfl⟩ |
    ⟨threshold, enable, rfl, running, rfl⟩ | ⟨w, interval, last, scheduled, rfl, hg, rfl⟩
  · exact tracked_quiet tracked quiet
  · exact tracked_start tracked interval
  · apply tracked_gather tracked
    rw [measured_gather_iff tracked]
    simpa [guard, running] using ok
  · apply tracked_record tracked hg
    rw [measured_record_iff tracked hg]
    simpa [guard, hg] using ok

theorem step_unmeasured (bad : ¬ guard s a = true) (h : step s a = some t) : ¬ Measured t := by
  rcases step_cases h with ⟨ok, _⟩ | ⟨ok, _⟩ |
    ⟨threshold, enable, rfl, running, rfl⟩ | ⟨w, interval, last, scheduled, rfl, hg, rfl⟩
  · exact absurd ok bad
  · exact absurd ok bad
  · rw [measured_gather_iff tracked]
    simpa [guard, running] using bad
  · rw [measured_record_iff tracked hg]
    simpa [guard, hg] using bad

end

/-- A run is measured throughout exactly if each of its throughputs is recorded for whole
seconds and each of its gathers finds nothing recorded in an earlier window. -/
theorem measured_throughout_iff (actions : List Action) :
    Throughout step Measured init actions ↔
      Along step (fun s a => guard s a = true) init actions := by
  apply throughout_iff_along (fun _ tracked => tracked.measured) _ _ tracked_init
  · intro s a t tracked ok h
    exact step_tracked tracked ok h
  · intro s a t tracked bad h
    exact step_unmeasured tracked bad h

/-! ## Two runs that are not measured -/

def scheduledPod : Pod := ⟨"pod", "ns", "node", "Pending", none, []⟩

/-- Two windows of a second's interval, with a listing in the first. -/
def twoWindows : List Action :=
  [.start (.ok second) (.ok ()), .loop 1, .list 1 [scheduledPod], .record 1, .loop 1,
    .gather 0 true, .leave 1, .start (.ok second) (.ok ()), .gather 0 true]

/-- A listing after half a second. -/
def halfSecond : List Action :=
  [.start (.ok 500000000) (.ok ()), .loop 1, .list 1 [scheduledPod], .record 1]

/-- The second gather reports the throughput of the first window, and half a second is
divided by as zero. -/
theorem windows_mixed_and_divided_by_zero :
    (¬ Throughout step Measured init twoWindows) ∧ ¬ Throughout step Measured init halfSecond := by
  constructor
  · intro all
    have hfinal : (exec step init twoWindows).any (fun t =>
        t.gatherings.any fun g => g.throughputs.length ≠ g.own.length) = true := by
      decide +kernel
    obtain ⟨t, ht, hgathering⟩ := (Option.any_eq_true _ _).mp hfinal
    obtain ⟨g, hg, hlength⟩ := List.any_eq_true.mp hgathering
    have hown := ((all.last ht).own g hg).1.length_eq
    rw [List.length_map] at hown
    exact of_decide_eq_true hlength hown
  · intro all
    have hfinal : (exec step init halfSecond).any (fun t =>
        (t.listingsOf 1).map (·.throughput) = [.posInf]) = true := by
      decide +kernel
    obtain ⟨t, ht, hlisting⟩ := (Option.any_eq_true _ _).mp hfinal
    obtain ⟨l, hl, hinf⟩ := List.map_eq_singleton_iff.mp (of_decide_eq_true hlisting)
    have hexact := (all.last ht).exact 1
    rw [hl] at hexact
    cases hinf.symm.trans hexact.2.1

end SchedulingThroughput
