import ClusterLoader.PodStartup
import ClusterLoader.TransitionLatencies

/-!
# Where schedule times come from

gather lists the events of the scheduler once and writes a schedule time for each
that belongs to a tracked pod: under the pod's own key, or, with
`mapEventsByOrder`, the earliest time for the pod created first and so on. The
code reads neither the reason of an event nor the UID of its pod, so these are
kept beside the event. Of a table and a slice that are sorted, every order is a
run in which equal times stand in any order.
-/

namespace ScheduleTimes

open EnabledRuns KeyedStore TransitionTimes TransitionLatencies PodStartup NearestRank

/-! ## What the writes leave -/

variable {e : String × Int} {key : String}

section Writes
variable (T : Tables)

theorem setAll_cons (e : String × Int) (rest : List (String × Int)) :
    T.setAll (e :: rest) = (T.set e.1 .schedule e.2).setAll rest := rfl

theorem setAll_concat (schedules : List (String × Int)) (e : String × Int) :
    T.setAll (schedules ++ [e]) = (T.setAll schedules).set e.1 .schedule e.2 := by
  rw [Tables.setAll, List.foldl_append]
  rfl

theorem get_set_schedule (key : String) (t : Int) (key' : String) :
    (T.set key .schedule t).entries.get key' .schedule =
      if key' = key then some t else T.entries.get key' .schedule := by
  rw [Tables.set, ObjectTransitionTimes.get_set]
  simp only [and_true]

/-- No other phase is touched. -/
theorem get_setAll_of_ne (schedules : List (String × Int)) (key : String) {phase : Phase}
    (hphase : phase ≠ .schedule) :
    (T.setAll schedules).entries.get key phase = T.entries.get key phase := by
  induction schedules generalizing T with
  | nil => rfl
  | cons e rest ih =>
    rw [setAll_cons, ih, Tables.set, ObjectTransitionTimes.get_set]
    apply if_neg
    intro h
    exact hphase h.2

variable {schedules : List (String × Int)}

theorem get_setAll_of_notMem (absent : ∀ e ∈ schedules, e.1 ≠ key) :
    (T.setAll schedules).entries.get key .schedule = T.entries.get key .schedule := by
  induction schedules generalizing T with
  | nil => rfl
  | cons e rest ih =>
    obtain ⟨hne, habsent⟩ := List.forall_mem_cons.mp absent
    rw [setAll_cons, ih _ habsent, get_set_schedule]
    exact if_neg (Ne.symm hne)

/-- Writes under one key that agree leave what they agree on. -/
theorem get_setAll_of_agree {t : Int} (agree : ∀ e ∈ schedules, e.1 = key → e.2 = t)
    (present : ∃ e ∈ schedules, e.1 = key) :
    (T.setAll schedules).entries.get key .schedule = some t := by
  induction schedules generalizing T with
  | nil =>
    obtain ⟨e, he, _⟩ := present
    cases he
  | cons e rest ih =>
    obtain ⟨hagree, hrest⟩ := List.forall_mem_cons.mp agree
    rw [setAll_cons]
    by_cases later : ∃ e ∈ rest, e.1 = key
    · exact ih _ hrest later
    · have habsent : ∀ e ∈ rest, e.1 ≠ key := fun e he hkey => later ⟨e, he, hkey⟩
      have hkey : e.1 = key := by
        obtain ⟨e', he', hkey⟩ := present
        rcases List.mem_cons.mp he' with rfl | hmem
        · exact hkey
        · exact absurd hkey (habsent e' hmem)
      rw [get_setAll_of_notMem _ habsent, get_set_schedule, if_pos hkey.symm, hagree hkey]

theorem get_setAll_of_mem (unique : (schedules.map Prod.fst).Nodup) (he : e ∈ schedules) :
    (T.setAll schedules).entries.get e.1 .schedule = some e.2 := by
  apply get_setAll_of_agree
  · intro e' he' hkey
    rw [List.inj_on_of_nodup_map unique he' he hkey]
  · exact ⟨e, he, rfl⟩

end Writes

/-! ## Events under their own key -/

/-- A listed event with its reason and the UID of the pod it is about. -/
structure SchedEvent extends Event where
  reason : String
  uid : String

/-- The event says that the pod with this UID, tracked under the key, was scheduled. -/
def SchedEvent.Reports (e : SchedEvent) (key uid : String) : Prop :=
  e.key = key ∧ e.reason = "Scheduled" ∧ e.uid = uid

/-- The schedule time of a key once gather has gone through a listing. -/
def recorded (T : Tables) (listing : List SchedEvent) (key : String) : Option Int :=
  (T.gatherScheduleTimes false (listing.map SchedEvent.toEvent)).entries.get key .schedule

/-- Every tracked pod has the time of an event that reports it scheduled, whatever
the order of the listing, and none if there is no such event. -/
def OwnSchedule (T : Tables) (uidOf : String → String) (events : List SchedEvent) : Prop :=
  ∀ key, T.has key .create = true → ∀ listing, listing.Perm events →
    recorded T listing key = recorded T events key ∧
      (∀ t, recorded T events key = some t →
        ∃ e ∈ events, e.Reports key (uidOf key) ∧ e.time = t) ∧
      ((∀ e ∈ events, ¬ e.Reports key (uidOf key)) → recorded T events key = none)

/-- What is listed under the name of a tracked pod has one time, and the pod's own
scheduling is among it. A pod with nothing listed has no time from an earlier gather. -/
structure OneSchedule (T : Tables) (uidOf : String → String) (events : List SchedEvent)
    (key : String) : Prop where
  agree : ∀ e ∈ events, e.key = key → ∀ e' ∈ events, e'.key = key → e.time = e'.time
  own : (∃ e ∈ events, e.key = key) → ∃ e ∈ events, e.Reports key (uidOf key)
  fresh : (∀ e ∈ events, e.key ≠ key) → T.entries.get key .schedule = none

section Keyed
variable {T : Tables} {key : String}

/-- The writes for a listing, in its order. -/
def writes (T : Tables) (listing : List SchedEvent) : List (String × Int) :=
  ((listing.map SchedEvent.toEvent).filter T.tracked).map fun event => (event.key, event.time)

theorem recorded_eq (T : Tables) (listing : List SchedEvent) (key : String) :
    recorded T listing key = (T.setAll (writes T listing)).entries.get key .schedule := rfl

variable {listing : List SchedEvent}

theorem mem_writes : e ∈ writes T listing ↔
      ∃ event ∈ listing, T.tracked event.toEvent = true ∧ (event.key, event.time) = e := by
  simp only [writes, List.mem_map, List.mem_filter]
  constructor
  · rintro ⟨event, ⟨⟨listed, hlisted, rfl⟩, htracked⟩, rfl⟩
    exact ⟨listed, hlisted, htracked, rfl⟩
  · rintro ⟨listed, hlisted, htracked, rfl⟩
    exact ⟨listed.toEvent, ⟨⟨listed, hlisted, rfl⟩, htracked⟩, rfl⟩

theorem recorded_of_absent (absent : ∀ e ∈ listing, e.key ≠ key) :
    recorded T listing key = T.entries.get key .schedule := by
  apply get_setAll_of_notMem
  intro e he
  obtain ⟨event, hevent, _, rfl⟩ := mem_writes.mp he
  exact absent event hevent

theorem recorded_of_agree {t : Int} (tracked : T.has key .create = true)
    (agree : ∀ e ∈ listing, e.key = key → e.time = t) (present : ∃ e ∈ listing, e.key = key) :
    recorded T listing key = some t := by
  apply get_setAll_of_agree
  · intro e he hkey
    obtain ⟨event, hevent, _, rfl⟩ := mem_writes.mp he
    exact agree event hevent hkey
  · obtain ⟨event, hevent, rfl⟩ := present
    exact ⟨_, mem_writes.mpr ⟨event, hevent, tracked, rfl⟩, rfl⟩

/-- The last write stays. -/
theorem recorded_concat {e : SchedEvent} (tracked : T.has e.key .create = true) :
    recorded T (listing ++ [e]) e.key = some e.time := by
  have hwrites : writes T (listing ++ [e]) = writes T listing ++ [(e.key, e.time)] := by
    have hkept : T.tracked e.toEvent = true := tracked
    simp only [writes, List.map_append, List.filter_append, List.map_cons, List.map_nil,
      List.filter_cons, hkept, if_true, List.filter_nil]
  rw [recorded_eq, hwrites, setAll_concat, get_set_schedule, if_pos rfl]

theorem recorded_last {events : List SchedEvent} {e : SchedEvent} (he : e ∈ events)
    (tracked : T.has e.key .create = true) :
    ∃ listing, listing.Perm events ∧ recorded T listing e.key = some e.time := by
  obtain ⟨before, after, rfl⟩ := List.append_of_mem he
  refine ⟨before ++ after ++ [e], ?_, recorded_concat tracked⟩
  rw [List.append_assoc]
  exact (List.perm_append_comm.trans (.refl _)).append_left before

end Keyed

/-- Without an order the recorded times are those of the pods' own scheduling
exactly if that is all there is under their names. -/
theorem ownSchedule_iff (T : Tables) (uidOf : String → String) (events : List SchedEvent) :
    OwnSchedule T uidOf events ↔
      ∀ key, T.has key .create = true → OneSchedule T uidOf events key := by
  constructor
  · intro own key tracked
    have last : ∀ e ∈ events, e.key = key → recorded T events key = some e.time := by
      rintro e he rfl
      obtain ⟨listing, perm, hlast⟩ := recorded_last he tracked
      rw [← (own _ tracked listing perm).1, hlast]
    obtain ⟨-, sound, complete⟩ := own key tracked events (.refl _)
    constructor
    · intro e he hkey e' he' hkey'
      have hsame := (last e he hkey).symm.trans (last e' he' hkey')
      exact Option.some.inj hsame
    · rintro ⟨e, he, hkey⟩
      obtain ⟨e', he', hreports, -⟩ := sound e.time (last e he hkey)
      exact ⟨e', he', hreports⟩
    · intro absent
      rw [← recorded_of_absent absent]
      apply complete
      intro e he hreports
      exact absent e he hreports.1
  · intro one key tracked listing perm
    obtain ⟨agree, hown, fresh⟩ := one key tracked
    by_cases present : ∃ e ∈ events, e.key = key
    · obtain ⟨e, he, hreports⟩ := hown present
      have value : ∀ listing', listing'.Perm events →
          recorded T listing' key = some e.time := by
        intro listing' perm'
        apply recorded_of_agree tracked
        · intro e' he' hkey'
          exact agree e' (perm'.mem_iff.mp he') hkey' e he hreports.1
        · exact ⟨e, perm'.mem_iff.mpr he, hreports.1⟩
      rw [value listing perm, value events (.refl _)]
      refine ⟨rfl, ?_, ?_⟩
      · rintro t ⟨⟩
        exact ⟨e, he, hreports, rfl⟩
      · intro none
        exact absurd hreports (none e he)
    · have absent : ∀ e ∈ events, e.key ≠ key := fun e he hkey => present ⟨e, he, hkey⟩
      have habsent : ∀ e ∈ listing, e.key ≠ key := fun e he => absent e (perm.mem_iff.mp he)
      rw [recorded_of_absent habsent, recorded_of_absent absent, fresh absent]
      exact ⟨rfl, nofun, fun _ => rfl⟩

/-- One running pod, created at 1. -/
def oneTracked : Tables := Tables.empty.set "d/web" .create 1

/-- A failed attempt at 3, listed behind the success at 5. -/
def failedThenScheduled : List SchedEvent :=
  [⟨⟨"d", "web", 5, 5⟩, "Scheduled", "u"⟩, ⟨⟨"d", "web", 3, 3⟩, "FailedScheduling", "u"⟩]

/-- The failed attempt passes for the scheduling. -/
theorem failed_attempt_recorded :
    recorded oneTracked failedThenScheduled "d/web" = some 3 ∧
      ¬ OwnSchedule oneTracked (fun _ => "u") failedThenScheduled := by
  have hrecorded : recorded oneTracked failedThenScheduled "d/web" = some 3 := by decide
  refine ⟨hrecorded, fun own => ?_⟩
  obtain ⟨-, sound, -⟩ := own "d/web" (by decide) _ (.refl _)
  obtain ⟨e, he, ⟨-, hreason, -⟩, htime⟩ := sound 3 hrecorded
  rcases List.mem_pair.mp he with rfl | rfl
  · exact absurd htime (by decide)
  · exact absurd hreason (by decide)

/-! ## Events matched by order -/

/-- What `sort.Slice` may leave: entries of one time stand in any order. -/
structure OrdersBy {α : Type} (time : α → Int) (xs sorted : List α) : Prop where
  perm : sorted.Perm xs
  ordered : sorted.Pairwise fun a b => time a ≤ time b

/-- The times alone are left in one order only. -/
theorem OrdersBy.times {α : Type} {time : α → Int} {xs sorted : List α}
    (h : OrdersBy time xs sorted) {s : Multiset Int}
    (hs : (xs.map time : Multiset Int) = s) : sorted.map time = s.sort (· ≤ ·) := by
  apply eq_sort
  · exact List.pairwise_map.mpr h.ordered
  · rw [← hs, Multiset.coe_eq_coe]
    exact h.perm.map time

theorem ordersBy_insertionSort {α : Type} (time : α → Int) (xs : List α) :
    OrdersBy time xs (xs.insertionSort fun a b => time a ≤ time b) := by
  constructor
  · exact List.perm_insertionSort (fun a b => time a ≤ time b) xs
  · exact List.pairwise_insertionSort _ xs

/-- The loop of `GetOrderedKeys` over the table, in some order. -/
def createdKeys (order : List (String × Map Phase Int)) : List (String × Int) :=
  order.filterMap fun entry => (entry.2.get .create).map fun t => (entry.1, t)

/-- gather may leave these tables when it matches events by order. -/
def GatherByOrder (T : Tables) (events : List Event) (T' : Tables) : Prop :=
  ∃ (order : List (String × Map Phase Int)) (creates : List (String × Int))
    (items : List Event), order.Perm T.entries.times.entries ∧
    OrdersBy Prod.snd (createdKeys order) creates ∧
    OrdersBy Event.time (events.filter T.tracked) items ∧
    T' = T.setAll ((creates.map Prod.fst).zip (items.map Event.time))

/-- The function of the measurement is one of the runs. -/
theorem gatherByOrder_gatherScheduleTimes (T : Tables) (events : List Event) :
    GatherByOrder T events (T.gatherScheduleTimes true events) :=
  ⟨T.entries.times.entries, T.entries.getOrderedKeys .create, _, .refl _,
    ordersBy_insertionSort _ _, ordersBy_insertionSort _ _, rfl⟩

def creationTimes (T : Tables) : Multiset Int :=
  ((createdKeys T.entries.times.entries).map Prod.snd : List Int)

def eventTimes (T : Tables) (events : List Event) : Multiset Int :=
  ((events.filter T.tracked).map Event.time : List Int)

section

-- The order of the times, by name: the sorting below refers to these two.
local instance isTrans_le : IsTrans Int fun t t' => t ≤ t' := ⟨fun _ _ _ => Int.le_trans⟩

local instance antisymm_le : Std.Antisymm fun t t' : Int => t ≤ t' := ⟨fun _ _ => Int.le_antisymm⟩

/-- The earliest creation with the earliest event, and so on while there are both. -/
def pairs (T : Tables) (events : List Event) : List (Int × Int) :=
  ((creationTimes T).sort (· ≤ ·)).zip ((eventTimes T events).sort (· ≤ ·))

end

section Created
variable {T : Tables} {order : List (String × Map Phase Int)}

theorem createdKeys_perm (perm : order.Perm T.entries.times.entries) :
    (createdKeys order).Perm (createdKeys T.entries.times.entries) :=
  perm.filterMap _

theorem mem_createdKeys {t : Int} :
    (key, t) ∈ createdKeys T.entries.times.entries ↔ T.entries.get key .create = some t := by
  rw [createdKeys, List.mem_filterMap]
  constructor
  · rintro ⟨entry, hentry, h⟩
    obtain ⟨t', ht', hpair⟩ := Option.map_eq_some_iff.mp h
    cases hpair
    rw [get_of_entry hentry, ht']
  · intro h
    cases htimes : T.entries.times.get key with
    | none => simp [ObjectTransitionTimes.get, htimes] at h
    | some times =>
      refine ⟨(key, times), Map.mem_of_get htimes, ?_⟩
      rw [ObjectTransitionTimes.get, htimes, Option.bind_some] at h
      rw [h]
      rfl

theorem createdKeys_fst (order : List (String × Map Phase Int)) :
    (createdKeys order).map Prod.fst =
      (order.filter fun entry => (entry.2.get .create).isSome).map Prod.fst := by
  induction order with
  | nil => rfl
  | cons entry order ih =>
    rw [createdKeys, List.filterMap_cons, List.filter_cons]
    cases entry.2.get .create with
    | none => exact ih
    | some t => exact congrArg (entry.1 :: ·) ih

theorem createdKeys_nodup (T : Tables) :
    ((createdKeys T.entries.times.entries).map Prod.fst).Nodup := by
  rw [createdKeys_fst]
  exact T.entries.keysWith_nodup .create

theorem length_createdKeys (T : Tables) :
    (createdKeys T.entries.times.entries).length = T.entries.count .create := by
  have hlength := congrArg List.length (createdKeys_fst T.entries.times.entries)
  rw [List.length_map] at hlength
  rw [hlength, T.entries.count_eq_length]
  rfl

end Created

/-- A pod that got a schedule time, with its creation time. -/
structure Match where
  key : String
  created : Int
  scheduled : Int

/-- As `CalculateTransitionsLatency` computes it. -/
def Match.latency (a : Match) : Int := max 0 (sub a.scheduled a.created)

/-- The pods created first got the earliest times, each time once. -/
structure IsMatching (T : Tables) (events : List Event) (T' : Tables) (matching : List Match) :
    Prop where
  nodup : (matching.map Match.key).Nodup
  length : matching.length = min (T.entries.count .create) (events.filter T.tracked).length
  created : ∀ a ∈ matching, T.entries.get a.key .create = some a.created
  scheduled : ∀ a ∈ matching, T'.entries.get a.key .schedule = some a.scheduled
  others : ∀ key, (∀ a ∈ matching, a.key ≠ key) →
    T'.entries.get key .schedule = T.entries.get key .schedule
  kept : ∀ key phase, phase ≠ .schedule → T'.entries.get key phase = T.entries.get key phase
  first : ∀ a ∈ matching, ∀ key t, (∀ b ∈ matching, b.key ≠ key) →
    T.entries.get key .create = some t → a.created ≤ t
  times : matching.map Match.scheduled =
    ((eventTimes T events).sort (· ≤ ·)).take matching.length
  monotone : ∀ a ∈ matching, ∀ b ∈ matching, a.created < b.created → a.scheduled ≤ b.scheduled

/-- The pods and the events that the loop has indices for. -/
def matchingOf (creates : List (String × Int)) (times : List Int) : List Match :=
  (creates.zip times).map fun row => ⟨row.1.1, row.1.2, row.2⟩

section Matching
variable {creates : List (String × Int)} {times : List Int}

theorem schedules_eq (creates : List (String × Int)) (times : List Int) :
    (creates.map Prod.fst).zip times =
      (matchingOf creates times).map fun a => (a.key, a.scheduled) := by
  rw [matchingOf, List.map_map, List.zip_map_left]
  rfl

theorem pairs_eq (creates : List (String × Int)) (times : List Int) :
    (creates.map Prod.snd).zip times =
      (matchingOf creates times).map fun a => (a.created, a.scheduled) := by
  rw [matchingOf, List.map_map, List.zip_map_left]
  rfl

theorem length_matchingOf :
    (matchingOf creates times).length = min creates.length times.length := by
  rw [matchingOf, List.length_map, List.length_zip]

theorem matchingOf_creates :
    (matchingOf creates times).map (fun a => (a.key, a.created)) =
      creates.take (matchingOf creates times).length := by
  have hzip : ((creates.zip times).map Prod.fst) =
      creates.take (min creates.length times.length) := by
    rw [List.zip_eq_zip_take_min, List.map_fst_zip]
    simp only [List.length_take]
    omega
  rw [length_matchingOf, ← hzip, matchingOf, List.map_map]
  rfl

theorem matchingOf_times :
    (matchingOf creates times).map Match.scheduled =
      times.take (matchingOf creates times).length := by
  have hzip : ((creates.zip times).map Prod.snd) =
      times.take (min creates.length times.length) := by
    rw [List.zip_eq_zip_take_min, List.map_snd_zip]
    simp only [List.length_take]
    omega
  rw [length_matchingOf, ← hzip, matchingOf, List.map_map]
  rfl

theorem mem_creates_of_mem {a : Match} (ha : a ∈ matchingOf creates times) :
    (a.key, a.created) ∈ creates.take (matchingOf creates times).length := by
  rw [← matchingOf_creates]
  exact List.mem_map_of_mem ha

theorem mem_matchingOf_of_take (he : e ∈ creates.take (matchingOf creates times).length) :
    ∃ a ∈ matchingOf creates times, a.key = e.1 := by
  rw [← matchingOf_creates] at he
  obtain ⟨a, ha, rfl⟩ := List.mem_map.mp he
  exact ⟨a, ha, rfl⟩

theorem matchingOf_key_nodup (unique : (creates.map Prod.fst).Nodup) :
    ((matchingOf creates times).map Match.key).Nodup := by
  have hkeys : (matchingOf creates times).map Match.key =
      (creates.take (matchingOf creates times).length).map Prod.fst := by
    rw [← matchingOf_creates, List.map_map]
    rfl
  rw [hkeys]
  exact unique.sublist ((List.take_sublist _ _).map Prod.fst)

/-- Two sorted lists side by side rise together. -/
theorem matchingOf_rises (ordered : creates.Pairwise fun a b => a.2 ≤ b.2)
    (htimes : times.Pairwise (· ≤ ·)) {a b : Match} (ha : a ∈ matchingOf creates times)
    (hb : b ∈ matchingOf creates times) (earlier : a.created < b.created) :
    a.scheduled ≤ b.scheduled := by
  obtain ⟨i, hi, rfl⟩ := List.getElem_of_mem ha
  obtain ⟨j, hj, rfl⟩ := List.getElem_of_mem hb
  have hlength : (matchingOf creates times).length = min creates.length times.length :=
    length_matchingOf
  simp only [matchingOf, List.getElem_map, List.getElem_zip] at earlier ⊢
  have hij : i < j := by
    by_contra hle
    rcases Nat.lt_or_eq_of_le (Nat.le_of_not_lt hle) with hlt | rfl
    · have := List.pairwise_iff_getElem.mp ordered j i (by omega) (by omega) hlt
      omega
    · omega
  exact List.pairwise_iff_getElem.mp htimes i j (by omega) (by omega) hij

end Matching

variable {events : List Event}

/-- A run is given by the sorted creations; of the events only the times matter. -/
theorem GatherByOrder.exists_creates {T T' : Tables} (run : GatherByOrder T events T') :
    ∃ creates, OrdersBy Prod.snd (createdKeys T.entries.times.entries) creates ∧
      T' = T.setAll ((creates.map Prod.fst).zip ((eventTimes T events).sort (· ≤ ·))) := by
  obtain ⟨order, creates, items, perm, hcreates, hitems, rfl⟩ := run
  refine ⟨creates, ⟨hcreates.perm.trans (createdKeys_perm perm), hcreates.ordered⟩, ?_⟩
  rw [hitems.times rfl]
  rfl

theorem isMatching_matchingOf {T : Tables} {creates : List (String × Int)}
    (sorted : OrdersBy Prod.snd (createdKeys T.entries.times.entries) creates) :
    IsMatching T events
      (T.setAll ((creates.map Prod.fst).zip ((eventTimes T events).sort (· ≤ ·))))
      (matchingOf creates ((eventTimes T events).sort (· ≤ ·))) := by
  have hunique := (sorted.perm.map Prod.fst).nodup_iff.mpr (createdKeys_nodup T)
  have hcreated : ∀ {e : String × Int}, e ∈ creates ↔ T.entries.get e.1 .create = some e.2 :=
    sorted.perm.mem_iff.trans mem_createdKeys
  have hnodup : ((matchingOf creates ((eventTimes T events).sort (· ≤ ·))).map Match.key).Nodup :=
    matchingOf_key_nodup hunique
  rw [schedules_eq]
  constructor
  case nodup => exact hnodup
  case length =>
    rw [length_matchingOf, sorted.perm.length_eq, length_createdKeys, Multiset.length_sort,
      eventTimes, Multiset.coe_card, List.length_map]
  case created =>
    intro a ha
    exact hcreated.mp (List.mem_of_mem_take (mem_creates_of_mem ha))
  case scheduled =>
    intro a ha
    refine get_setAll_of_mem T ?_ (List.mem_map_of_mem ha)
    rw [List.map_map]
    exact hnodup
  case others =>
    intro key absent
    apply get_setAll_of_notMem
    intro e he
    obtain ⟨a, ha, rfl⟩ := List.mem_map.mp he
    exact absent a ha
  case kept =>
    intro key phase hphase
    exact get_setAll_of_ne T _ key hphase
  case first =>
    intro a ha key t absent hkey
    have hmem : (key, t) ∈ creates := hcreated.mpr hkey
    have hordered := sorted.ordered
    rw [← List.take_append_drop (matchingOf creates ((eventTimes T events).sort (· ≤ ·))).length
      creates] at hmem hordered
    rcases List.mem_append.mp hmem with htake | hdrop
    · obtain ⟨b, hb, hbkey⟩ := mem_matchingOf_of_take htake
      exact absurd hbkey (absent b hb)
    · exact (List.pairwise_append.mp hordered).2.2 _ (mem_creates_of_mem ha) _ hdrop
  case times => exact matchingOf_times
  case monotone =>
    intro a ha b hb earlier
    exact matchingOf_rises sorted.ordered ((eventTimes T events).pairwise_sort (· ≤ ·)) ha hb
      earlier

/-! ## The latencies -/

/-- Keys without a latency can be left out. -/
theorem latencies_eq_of_support {o : ObjectTransitionTimes Phase} {filter : String → Bool}
    {transition : Transition Phase} {keys : List String} (nodup : keys.Nodup)
    (support : ∀ key, key ∈ keys ↔ (latencyOf o filter transition key).isSome = true) :
    latencies o filter transition =
      ((keys.filterMap (latencyOf o filter transition) : List Int) : Multiset Int) := by
  have hperm : keys.Perm
      (o.times.keys.filter fun key => (latencyOf o filter transition key).isSome) := by
    refine (List.perm_ext_iff_of_nodup nodup (o.times.unique.filter _)).mpr fun key => ?_
    change _ ↔ key ∈ o.times.keys.filter _
    rw [List.mem_filter, support]
    constructor
    · intro hsome
      refine ⟨?_, hsome⟩
      rw [Map.mem_keys]
      by_contra hnone
      have habsent := Option.not_isSome_iff_eq_none.mp hnone
      have hget : ∀ phase, o.get key phase = none := by
        intro phase
        rw [ObjectTransitionTimes.get, habsent]
        rfl
      simp [latencyOf, hget] at hsome
    · exact And.right
  have hdrop : ∀ key, (if (latencyOf o filter transition key).isSome = true
      then latencyOf o filter transition key else none) = latencyOf o filter transition key := by
    intro key
    cases latencyOf o filter transition key <;> rfl
  rw [latencies, Multiset.filterMap_coe, Multiset.coe_eq_coe]
  refine .trans ?_ (hperm.symm.filterMap _)
  rw [List.filterMap_filter]
  simp only [hdrop]
  exact .refl _

section Obtained
variable {T T' : Tables} {events : List Event} {matching : List Match}

theorem IsMatching.latencyOf (h : IsMatching T events T' matching) {a : Match}
    (ha : a ∈ matching) :
    latencyOf T'.entries (fun _ => true) ⟨.create, .schedule⟩ a.key = some a.latency := by
  have hcreated : T'.entries.get a.key .create = some a.created := by
    rw [h.kept a.key .create (by decide), h.created a ha]
  simp only [TransitionLatencies.latencyOf, hcreated, h.scheduled a ha, Match.latency, sub,
    minDuration, maxDuration, Option.some_inj]
  omega

/-- Where no pod had a schedule time before, the latencies are those of the matching. -/
theorem IsMatching.latencies (h : IsMatching T events T' matching)
    (unscheduled : ∀ key, T.entries.get key .schedule = none) :
    latencies T'.entries (fun _ => true) ⟨.create, .schedule⟩ =
      (matching.map Match.latency : List Int) := by
  have hmatched : (matching.map Match.key).filterMap
      (TransitionLatencies.latencyOf T'.entries (fun _ => true) ⟨.create, .schedule⟩) =
        matching.map Match.latency := by
    rw [List.filterMap_map, ← List.filterMap_eq_map']
    exact List.filterMap_congr fun a ha => h.latencyOf ha
  rw [← hmatched]
  apply latencies_eq_of_support h.nodup
  intro key
  constructor
  · intro hkey
    obtain ⟨a, ha, rfl⟩ := List.mem_map.mp hkey
    rw [h.latencyOf ha]
    rfl
  · intro hsome
    by_contra habsent
    have hothers : ∀ a ∈ matching, a.key ≠ key := by
      intro a ha hkey
      exact habsent (List.mem_map.mpr ⟨a, ha, hkey⟩)
    have hnone := (h.others key hothers).trans (unscheduled key)
    cases hcreate : T'.entries.get key .create with
    | none => simp [TransitionLatencies.latencyOf, hcreate] at hsome
    | some t => simp [TransitionLatencies.latencyOf, hnone] at hsome

end Obtained

/-- Whatever the orders, the pods created first get the earliest times, and the
latencies obtained are the same. -/
theorem matched_by_order (T : Tables) (events : List Event) :
    (∃ T', GatherByOrder T events T') ∧
      ∃ obtained : Multiset Int, ∀ T', GatherByOrder T events T' →
        ∃ matching, IsMatching T events T' matching ∧
          (matching.map Match.latency : List Int) = obtained ∧
          ((∀ key, T.entries.get key .schedule = none) →
            latencies T'.entries (fun _ => true) ⟨.create, .schedule⟩ = obtained) := by
  refine ⟨⟨_, gatherByOrder_gatherScheduleTimes T events⟩,
    ((pairs T events).map fun p => max 0 (sub p.2 p.1) : List Int), ?_⟩
  intro T' run
  obtain ⟨creates, sorted, rfl⟩ := run.exists_creates
  have matching : IsMatching T events _ _ := isMatching_matchingOf sorted
  have hcreations : creates.map Prod.snd = (creationTimes T).sort (· ≤ ·) := sorted.times rfl
  have hobtained : (matchingOf creates ((eventTimes T events).sort (· ≤ ·))).map Match.latency =
      (pairs T events).map fun p => max 0 (sub p.2 p.1) := by
    rw [pairs, ← hcreations, pairs_eq, List.map_map]
    rfl
  refine ⟨_, matching, congrArg _ hobtained, fun unscheduled => ?_⟩
  rw [matching.latencies unscheduled, hobtained]

/-! ## The runs of the measurement -/

/-- The times that the gather under way has to write. -/
def times : Controller → List Int
  | .filter left kept => (left ++ kept).map Event.time
  | .order kept => kept.map Event.time
  | .set schedules => schedules.map Prod.snd
  | _ => []

theorem get_schedule_set (T : Tables) {phase : Phase} (other : phase ≠ .schedule)
    (key key' : String) (n : Int) :
    (T.set key phase n).entries.get key' .schedule = T.entries.get key' .schedule := by
  rw [Tables.set, ObjectTransitionTimes.get_set]
  exact if_neg fun h => other h.2.symm

/-- What is scheduled by order are times of the events. -/
theorem mem_schedules {T : Tables} {mapEventsByOrder : Bool} {n : Int}
    (h : n ∈ (T.schedules mapEventsByOrder events).map Prod.snd) :
    n ∈ events.map Event.time := by
  unfold Tables.schedules at h
  split at h
  · obtain ⟨entry, hentry, rfl⟩ := List.mem_map.mp h
    obtain ⟨event, hevent, htime⟩ := List.mem_map.mp (List.of_mem_zip hentry).2
    exact htime ▸ List.mem_map_of_mem ((List.mem_insertionSort _).mp hevent)
  · simpa using h

section
variable {s t : System} {a : Action}

theorem process_schedule {i : Nat} (h : process s i = some t) :
    t.controller = s.controller ∧
      ∀ key, t.tables.entries.get key .schedule = s.tables.entries.get key .schedule := by
  unfold process at h
  split at h <;> cases h
  iterate 2 exact ⟨rfl, fun _ => rfl⟩
  iterate 3 exact ⟨rfl, fun _ => get_schedule_set _ (by decide) _ _ _⟩

theorem next_schedule (h : next s = some t) :
    (∀ n ∈ times t.controller, n ∈ times s.controller) ∧
      ∀ key n, t.tables.entries.get key .schedule = some n →
        s.tables.entries.get key .schedule = some n ∨ n ∈ times s.controller := by
  unfold next at h
  split at h <;> cases h <;> rename_i hc <;> rw [hc]
  · refine ⟨fun n hn => ?_, fun _ _ => .inl⟩
    simp only [times] at hn ⊢
    split at hn <;> simp at hn ⊢ <;> grind
  · refine ⟨fun n hn => ?_, fun _ _ => .inl⟩
    simp only at hn
    split at hn
    · exact hn
    · exact mem_schedules hn
  · exact ⟨fun n => mem_schedules, fun _ _ => .inl⟩
  · refine ⟨fun n => List.mem_cons_of_mem _, fun key n hget => ?_⟩
    change (Tables.set _ _ _ _).entries.get key .schedule = some n at hget
    rw [Tables.set, ObjectTransitionTimes.get_set] at hget
    split at hget
    · cases hget
      exact .inr List.mem_cons_self
    · exact .inl hget
  iterate 3 exact ⟨fun _ h => absurd h List.not_mem_nil, fun _ _ => .inl⟩

/-- The time of an event that a gather of the run has listed. -/
def Listed (actions : List Action) (n : Int) : Prop :=
  ∃ events, .list (.ok events) ∈ actions ∧ n ∈ events.map Event.time

structure Sourced (actions : List Action) (s : System) : Prop where
  atHand : ∀ n ∈ times s.controller, Listed actions n
  written : ∀ key n, s.tables.entries.get key .schedule = some n → Listed actions n

variable {actions : List Action}

theorem Sourced.keeps (sourced : Sourced actions s) (tables : t.tables = s.tables)
    (controller : t.controller = s.controller ∨ times t.controller = []) :
    Sourced actions t := by
  refine ⟨fun n hn => ?_, tables ▸ sourced.written⟩
  rcases controller with same | none
  · exact sourced.atHand n (same ▸ hn)
  · rw [none] at hn
    cases hn

theorem Sourced.step (sourced : Sourced actions s) (mem : a ∈ actions)
    (h : step s a = some t) : Sourced actions t := by
  have effect := effect_of_step h
  cases effect with
  | start | gather | dispose | notify =>
    simp only [System.start, System.gather, System.dispose, System.addEvent]
    split
    · exact sourced.keeps rfl (by first | exact .inl rfl | exact .inr rfl)
    · exact sourced.keeps rfl (.inl rfl)
  | take | quit => exact sourced.keeps rfl (.inl rfl)
  | process i =>
    obtain ⟨hc, hget⟩ := process_schedule h
    exact ⟨hc ▸ sourced.atHand, fun key n hn => sourced.written key n (hget key ▸ hn)⟩
  | shutDown gather => cases gather <;> exact sourced.keeps rfl (.inr rfl)
  | listed events =>
    refine ⟨fun n hn => ⟨events, mem, ?_⟩, sourced.written⟩
    rwa [times, List.append_nil] at hn
  | listFailed => exact sourced.keeps rfl (.inr rfl)
  | next | report =>
    obtain ⟨hc, hget⟩ := next_schedule h
    refine ⟨fun n hn => sourced.atHand n (hc n hn), fun key n hn => ?_⟩
    exact (hget key n hn).elim (sourced.written key n) (sourced.atHand n)

end

/-- In every run, whatever the notifications show and however the steps interleave,
each schedule time is that of an event that a gather has listed. -/
theorem schedule_times_listed (actions : List Action) :
    Throughout step (fun s => ∀ key n, s.tables.entries.get key .schedule = some n →
      Listed actions n) created actions := by
  refine throughout_of_keeps (q := Sourced actions) (fun _ sourced => sourced.written)
    (fun _ _ _ mem sourced h => sourced.step mem h) ⟨fun _ h => ?_, fun _ _ h => ?_⟩
  · cases h
  · cases h

end ScheduleTimes
