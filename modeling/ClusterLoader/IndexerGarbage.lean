import ClusterLoader.ControlledPods
import Mathlib.Data.Finset.Basic

/-!
# What the indexer of controlled pods keeps

Once every notification is handled, the indexer should hold the ReplicaSets
that exist and those a stored pod still refers to, with exactly the deleted
ones pending. Four notifications break this: a tombstone of a ReplicaSet and
an update that replaces it by another one both hide the deletion, a tombstone
of the last pod hides whom it referred to, and a pod stored too late refers to
a ReplicaSet already dropped. In runs without them nothing is left over.
-/

namespace IndexerGarbage

open KeyedStore Informers GuardedRuns ControlledPods ControlledPodsIndexer

/-- The ReplicaSets that exist after the notifications of `log`. -/
def existing (log : List (Notification ReplicaSet)) : Finset String :=
  log.foldl (fun live n => match n with
    | .add obj => insert obj.uid live
    | .update oldObj newObj => insert newObj.uid (live.erase oldObj.uid)
    | .delete obj => live.erase obj.last.uid) ∅

theorem existing_append (log : List (Notification ReplicaSet)) (n : Notification ReplicaSet) :
    existing (log ++ [n]) = match n with
      | .add obj => insert obj.uid (existing log)
      | .update oldObj newObj => insert newObj.uid ((existing log).erase oldObj.uid)
      | .delete obj => (existing log).erase obj.last.uid := by
  rw [existing, List.foldl_append]
  rfl

/-- A new ReplicaSet has a UID that was not seen before. -/
def Fresh (log : List (Notification ReplicaSet)) (rs : ReplicaSet) : Prop :=
  rs.uid ≠ "" ∧ lastObserved log rs.uid = none

instance (log : List (Notification ReplicaSet)) (rs : ReplicaSet) : Decidable (Fresh log rs) :=
  inferInstanceAs (Decidable (_ ∧ _))

/-- The notifications client-go may deliver. -/
def Legal (s : System) : Action → Prop
  | .storePod n => n.Deliverable s.indexer.podsIndexer
  | .handlePod => True
  | .handleReplicaSet (.add obj) => Fresh s.rsLog obj
  | .handleReplicaSet (.update oldObj newObj) =>
    oldObj.uid ∈ existing s.rsLog ∧ (newObj.uid = oldObj.uid ∨ Fresh s.rsLog newObj)
  | .handleReplicaSet (.delete obj) => obj.last.uid ∈ existing s.rsLog

instance (s : System) : (a : Action) → Decidable (Legal s a)
  | .storePod n => inferInstanceAs (Decidable (n.Deliverable _))
  | .handlePod => .isTrue trivial
  | .handleReplicaSet (.add _) => inferInstanceAs (Decidable (Fresh _ _))
  | .handleReplicaSet (.update _ _) => inferInstanceAs (Decidable (_ ∧ _))
  | .handleReplicaSet (.delete _) => inferInstanceAs (Decidable (_ ∈ _))

/-- A pod's tombstone is handled while the ReplicaSet it was the last to refer
to is pending. -/
def LosesLastReference (s : System) : Prop :=
  ∃ pod uid, s.podQueue.head? = some (.delete (.finalStateUnknown pod)) ∧
    pod.controller = some uid ∧ s.indexer.Clearable uid

/-- None of the four notifications that leave something over. -/
def Clean (s : System) : Action → Prop
  | .storePod n => InTime s (.storePod n)
  | .handlePod => ¬ LosesLastReference s
  | .handleReplicaSet (.add _) => True
  | .handleReplicaSet (.update oldObj newObj) => newObj.uid = oldObj.uid
  | .handleReplicaSet (.delete (.known _)) => True
  | .handleReplicaSet (.delete (.finalStateUnknown _)) => False

/-- A pod notification after which `uid` may have lost its last reference. -/
def Releases : Notification Pod → String → Prop
  | .add _, _ => False
  | .update oldObj newObj, uid => oldObj.controller = some uid ∧ newObj.controller ≠ some uid
  | .delete obj, uid => obj.last.controller = some uid

/-- The ReplicaSets held are the live ones and those pending deletion. -/
structure Sorted (p : ControlledPodsIndexer) (live : Finset String) : Prop where
  listed : ∀ uid, (p.rsIndexer.lookup uid).isSome ↔ uid ∈ live ∨ uid ∈ p.rsPendingDeletion
  apart : ∀ uid ∈ live, uid ∉ p.rsPendingDeletion
  named : ∀ uid, (p.rsIndexer.lookup uid).isSome → uid ≠ ""

/-- Whatever is pending is still referred to, or will be cleared. -/
def Awaited (p : ControlledPodsIndexer) (queue : List (Notification Pod)) : Prop :=
  ∀ uid ∈ p.rsPendingDeletion, p.Referenced uid ∨ ∃ n ∈ queue, Releases n uid

structure Tidy (s : System) : Prop extends Complete s where
  sorted : Sorted s.indexer (existing s.rsLog)
  awaited : Awaited s.indexer s.podQueue

theorem tidy_initial : Tidy .initial where
  toComplete := complete_initial
  sorted :=
    { listed := fun uid => by simp [System.initial, existing]
      apart := fun uid h => by cases h
      named := fun uid h => by cases h }
  awaited uid h := by cases h

section Handlers
variable {p : ControlledPodsIndexer} {live : Finset String} {queue : List (Notification Pod)}

theorem sorted_clear (h : Sorted p live) (rsUID : String) :
    Sorted (p.clearRSDataIfPossible rsUID) live where
  listed uid := by
    rw [lookup_clear, mem_pending_clear]
    by_cases hc : uid = rsUID ∧ p.Clearable rsUID
    · have hlive : rsUID ∉ live := fun hu => h.apart rsUID hu hc.2.1
      simp [hc, hlive]
    · rw [if_neg hc, h.listed]
      simp [hc]
  apart uid hu hp := h.apart uid hu ((mem_pending_clear _ _ _).mp hp).1
  named uid hl := by
    rw [lookup_clear] at hl
    split at hl
    · cases hl
    · exact h.named uid hl

theorem sorted_delete (h : Sorted p live) {uid : String} (hu : uid ∈ live) :
    Sorted { p with rsPendingDeletion := insert uid p.rsPendingDeletion } (live.erase uid) where
  listed v := by
    rw [h.listed]
    by_cases hv : v = uid
    · simp [hv, hu]
    · simp [hv]
  apart v hv := by
    rw [Finset.mem_erase] at hv
    rw [Finset.mem_insert, not_or]
    exact ⟨hv.1, h.apart v hv.2⟩
  named := h.named

/-- An added ReplicaSet, or an update of one that exists. -/
theorem sorted_insert (h : Sorted p live) {rs : ReplicaSet} (hname : rs.uid ≠ "")
    (hp : rs.uid ∉ p.rsPendingDeletion) :
    Sorted { p with rsIndexer := p.rsIndexer.insert rs } (insert rs.uid live) where
  listed v := by
    rw [Store.lookup_insert]
    by_cases hv : v = rs.uid
    · simp [hv]
    · simpa [hv] using h.listed v
  apart v hv := by
    rcases Finset.mem_insert.mp hv with rfl | hv
    · exact hp
    · exact h.apart v hv
  named v hl := by
    rw [Store.lookup_insert] at hl
    split at hl
    case isTrue hv => exact hv ▸ hname
    case isFalse => exact h.named v hl

theorem awaited_clear {rsUID : String}
    (h : ∀ uid ∈ p.rsPendingDeletion, uid ≠ rsUID →
      p.Referenced uid ∨ ∃ n ∈ queue, Releases n uid) :
    Awaited (p.clearRSDataIfPossible rsUID) queue := by
  intro uid hu
  obtain ⟨hp, hc⟩ := (mem_pending_clear _ _ _).mp hu
  rw [clear_referenced]
  by_cases hv : uid = rsUID
  · subst hv
    by_contra hno
    exact hc ⟨rfl, hp, fun hr => hno (.inl hr)⟩
  · exact h uid hp hv

end Handlers

variable {n : Notification Pod} {uid : String}

theorem reference_kept_or_released {store : Store Pod.key}
    (hd : n.Deliverable store) {pod : Pod} (hpod : pod ∈ store) (hc : pod.controller = some uid) :
    (∃ other ∈ n.applyTo store, other.controller = some uid) ∨ Releases n uid := by
  cases n with
  | add obj =>
    have hkey : pod.key ≠ obj.key := Store.lookup_eq_none.mp hd pod hpod
    exact .inl ⟨pod, Store.mem_insert.mpr (.inr ⟨hpod, hkey⟩), hc⟩
  | update oldObj newObj =>
    by_cases hkey : pod.key = newObj.key
    · obtain rfl : pod = oldObj := Store.eq_of_key hpod hd.1 (hkey.trans hd.2)
      by_cases hnew : newObj.controller = some uid
      · exact .inl ⟨newObj, Store.mem_insert.mpr (.inl rfl), hnew⟩
      · exact .inr ⟨hc, hnew⟩
    · exact .inl ⟨pod, Store.mem_insert.mpr (.inr ⟨hpod, hkey⟩), hc⟩
  | delete obj =>
    by_cases hkey : pod.key = obj.last.key
    · obtain rfl : pod = obj.last := Store.eq_of_key hpod hd hkey
      exact .inr hc
    · exact .inl ⟨pod, Store.mem_erase.mpr ⟨hpod, hkey⟩, hc⟩

/-- Except for tombstones, the handler clears what the notification releases. -/
theorem released_of_releases (hr : Releases n uid) (hname : uid ≠ "") :
    released n = some uid ∨ ∃ pod, n = .delete (.finalStateUnknown pod) ∧
      pod.controller = some uid := by
  cases n with
  | add obj => exact hr.elim
  | update oldObj newObj =>
    obtain ⟨hold, hnew⟩ := hr
    have hinfo : getControllerInfo (some oldObj) = uid := by simp [getControllerInfo, hold]
    have hne : uid ≠ getControllerInfo (some newObj) := by
      cases hc : newObj.controller with
      | none => simpa [getControllerInfo, hc] using hname
      | some v =>
        have hv : uid ≠ v := fun e => hnew (hc.trans (congrArg some e.symm))
        simpa [getControllerInfo, hc] using hv
    left
    simp only [released, hinfo, if_neg hne]
  | delete obj =>
    cases obj with
    | known pod =>
      have hc : pod.controller = some uid := hr
      simp [released, Deleted.accessor, getControllerInfo, hc]
    | finalStateUnknown pod => exact .inr ⟨pod, rfl, hr⟩

variable {s : System}

theorem tidy_storePod (t : Tidy s) (legal : Legal s (.storePod n)) (clean : Clean s (.storePod n)) :
    Tidy (step s (.storePod n)) where
  toComplete := complete_step s _ t.toComplete clean
  sorted := ⟨t.sorted.listed, t.sorted.apart, t.sorted.named⟩
  awaited uid hu := by
    rcases t.awaited uid hu with ⟨pod, hpod, hc⟩ | ⟨m, hm, hr⟩
    · rcases reference_kept_or_released legal hpod hc with hkept | hrel
      · exact .inl hkept
      · exact .inr ⟨n, List.mem_append_right _ (List.mem_singleton.mpr rfl), hrel⟩
    · exact .inr ⟨m, List.mem_append_left _ hm, hr⟩

/-- What is pending beyond the ReplicaSet this handler clears stays awaited
by the rest of the queue. -/
theorem awaited_rest (t : Tidy s) {rest : List (Notification Pod)} (hq : s.podQueue = n :: rest)
    (clean : ¬ LosesLastReference s) (hu : uid ∈ s.indexer.rsPendingDeletion)
    (hn : released n ≠ some uid) :
    s.indexer.Referenced uid ∨ ∃ m ∈ rest, Releases m uid := by
  have hawait := t.awaited uid hu
  rw [hq] at hawait
  rcases hawait with hr | ⟨m, hm, hr⟩
  · exact .inl hr
  · rcases List.mem_cons.mp hm with rfl | hm
    · have hname : uid ≠ "" := t.sorted.named uid ((t.sorted.listed uid).mpr (.inr hu))
      rcases released_of_releases hr hname with hc | ⟨pod, rfl, hctrl⟩
      · exact absurd hc hn
      · by_contra hno
        have hhead : s.podQueue.head? = some (.delete (.finalStateUnknown pod)) := by
          rw [hq, List.head?_cons]
        exact clean ⟨pod, uid, hhead, hctrl, hu, fun h => hno (.inl h)⟩
    · exact .inr ⟨m, hm, hr⟩

theorem tidy_handlePod (t : Tidy s) (clean : Clean s .handlePod) : Tidy (step s .handlePod) := by
  have hcomplete := complete_step s .handlePod t.toComplete trivial
  cases hq : s.podQueue with
  | nil => simpa only [step, hq] using t
  | cons n rest =>
    simp only [step, hq, handlePod_eq] at hcomplete ⊢
    have hrest : ∀ uid ∈ s.indexer.rsPendingDeletion, released n ≠ some uid →
        s.indexer.Referenced uid ∨ ∃ m ∈ rest, Releases m uid :=
      fun uid hu hn => awaited_rest t hq clean hu hn
    cases hr : released n with
    | none =>
      rw [hr] at hcomplete
      exact ⟨hcomplete, t.sorted, fun uid hu => hrest uid hu (by simp [hr])⟩
    | some v =>
      rw [hr] at hcomplete
      refine ⟨hcomplete, sorted_clear t.sorted v, awaited_clear fun uid hu hne => ?_⟩
      refine hrest uid hu fun e => hne ?_
      exact Option.some.inj (e.symm.trans hr)

theorem fresh_not_pending (t : Tidy s) {rs : ReplicaSet} (fresh : Fresh s.rsLog rs) :
    rs.uid ∉ s.indexer.rsPendingDeletion := by
  intro hp
  have hsome := (t.sorted.listed rs.uid).mpr (.inr hp)
  obtain ⟨held, hheld⟩ := Option.isSome_iff_exists.mp hsome
  have hobs := t.current rs.uid held hheld
  rw [fresh.2] at hobs
  cases hobs

theorem tidy_handleReplicaSet (t : Tidy s) {n : Notification ReplicaSet}
    (legal : Legal s (.handleReplicaSet n)) (clean : Clean s (.handleReplicaSet n)) :
    Tidy (step s (.handleReplicaSet n)) := by
  refine ⟨complete_step s _ t.toComplete trivial, ?_, ?_⟩
  · change Sorted (s.indexer.handleReplicaSet n) (existing (s.rsLog ++ [n]))
    rw [existing_append]
    cases n with
    | add obj => exact sorted_insert t.sorted legal.1 (fresh_not_pending t legal)
    | update oldObj newObj =>
      have hsame := clean
      have hlive : newObj.uid ∈ existing s.rsLog := hsame ▸ legal.1
      have hname := t.sorted.named newObj.uid ((t.sorted.listed _).mpr (.inl hlive))
      have hset : insert newObj.uid ((existing s.rsLog).erase oldObj.uid) =
          insert newObj.uid (existing s.rsLog) := by
        rw [← hsame, Finset.insert_erase hlive, Finset.insert_eq_of_mem hlive]
      dsimp only
      rw [hset]
      exact sorted_insert t.sorted hname (t.sorted.apart _ hlive)
    | delete obj =>
      cases obj with
      | known rs => exact sorted_clear (sorted_delete t.sorted legal) rs.uid
      | finalStateUnknown rs => exact clean.elim
  · cases n with
    | add | update => exact t.awaited
    | delete obj =>
      refine awaited_clear fun uid hu hne => ?_
      rcases Finset.mem_insert.mp hu with rfl | hu
      · exact absurd rfl hne
      · exact t.awaited uid hu

theorem tidy_step (s : System) (a : Action) (t : Tidy s) (guard : Legal s a ∧ Clean s a) :
    Tidy (step s a) := by
  cases a with
  | storePod n => exact tidy_storePod t guard.1 guard.2
  | handlePod => exact tidy_handlePod t guard.2
  | handleReplicaSet n => exact tidy_handleReplicaSet t guard.1 guard.2

/-- The indexer holds the ReplicaSets of `log` that exist or are referred to,
and those of them that do not exist are pending. -/
structure Exact (p : ControlledPodsIndexer) (log : List (Notification ReplicaSet)) : Prop where
  held : ∀ uid, p.rsIndexer.lookup uid =
    if uid ∈ existing log ∨ p.Referenced uid then lastObserved log uid else none
  pending : ∀ uid, uid ∈ p.rsPendingDeletion ↔
    (p.rsIndexer.lookup uid).isSome ∧ uid ∉ existing log

theorem exact_of_tidy (t : Tidy s) (delivered : s.podQueue = []) : Exact s.indexer s.rsLog where
  held uid := by
    by_cases href : s.indexer.Referenced uid
    · rw [if_pos (.inr href)]
      exact t.referenced uid href
    · have hpending : uid ∉ s.indexer.rsPendingDeletion := by
        intro hp
        rcases t.awaited uid hp with hr | ⟨n, hn, _⟩
        · exact href hr
        · rw [delivered] at hn
          cases hn
      by_cases hlive : uid ∈ existing s.rsLog
      · rw [if_pos (.inl hlive)]
        obtain ⟨rs, hrs⟩ := Option.isSome_iff_exists.mp ((t.sorted.listed uid).mpr (.inl hlive))
        exact hrs.trans (t.current uid rs hrs).symm
      · rw [if_neg (not_or.mpr ⟨hlive, href⟩)]
        have hnone := mt (t.sorted.listed uid).mp (not_or.mpr ⟨hlive, hpending⟩)
        simpa using hnone
  pending uid := by
    rw [t.sorted.listed]
    constructor
    · intro hp
      exact ⟨.inr hp, fun hlive => t.sorted.apart uid hlive hp⟩
    · rintro ⟨hlive | hp, hgone⟩
      · exact absurd hlive hgone
      · exact hp

theorem indexer_keeps_no_garbage (actions : List Action)
    (guarded : Along step (fun s a => Legal s a ∧ Clean s a) .initial actions)
    (delivered : (run step .initial actions).podQueue = []) :
    Exact (run step .initial actions).indexer (replicaSetHistory actions) := by
  have hlog : (run step .initial actions).rsLog = replicaSetHistory actions :=
    rsLog_run .initial actions
  rw [← hlog]
  exact exact_of_tidy (run_keeps tidy_step tidy_initial guarded) delivered

/-- The ReplicaSet is deleted while its pod is stored, and the pod later. -/
def deletedInTurn : List Action :=
  promptRun ++ [.storePod (.delete (.known webPod)), .handlePod]

theorem indexer_keeps_no_garbage_deleted :
    (run step .initial deletedInTurn).indexer.rsIndexer.lookup "rs-uid" = none := by
  have h := indexer_keeps_no_garbage deletedInTurn ?_ (by decide)
  · rw [h.held]
    exact if_neg (by decide)
  · have hstored : InTime (run step .initial (promptRun.take 1)) (.storePod (.add webPod)) := by
      decide
    refine ⟨⟨by decide, trivial⟩, ⟨by decide, hstored⟩, ⟨trivial, ?_⟩, ⟨by decide, trivial⟩,
      ⟨by decide, fun pod hpod => by cases hpod⟩, ⟨trivial, ?_⟩, trivial⟩
    · rintro ⟨pod, uid, hhead, _⟩
      cases hhead
    · rintro ⟨pod, uid, hhead, _⟩
      cases hhead

/-- The watch misses the deletion of a ReplicaSet without pods. -/
def missedDeletion : List Action :=
  [.handleReplicaSet (.add webReplicaSet),
    .handleReplicaSet (.delete (.finalStateUnknown webReplicaSet))]

theorem missed_deletion_leaves_garbage :
    Along step Legal .initial missedDeletion ∧
      (run step .initial missedDeletion).podQueue = [] ∧
      ¬ Exact (run step .initial missedDeletion).indexer (replicaSetHistory missedDeletion) := by
  refine ⟨by decide, by decide, fun h => ?_⟩
  have hheld := h.held "rs-uid"
  revert hheld
  decide

end IndexerGarbage
