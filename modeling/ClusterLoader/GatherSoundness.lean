import ClusterLoader.ControlledPodsWait
import ClusterLoader.GuardedRuns

/-!
# What a successful gather says

`gather` compares the number of running checkers with the number of listed
objects. That says something about each object because a checker that is not
for a deletion belongs to the version last handled. Two kinds of notification
are skipped with the old checker left in place: those whose specs cannot be
compared, and updates by a recreated object with an equal spec. In every run
where no checker is left behind in this way, success means that each listed
object runs as its latest version demands.
-/

namespace GatherSoundness

open KeyedStore Informers GuardedRuns ControlledPodsWait ControlledPodsWait.Measurement

variable {Spec : Type}

/-- The measurement, and the latest version handled of every object. -/
structure System (Spec : Type) where
  w : Measurement Spec
  latest : Content Spec

/-- A measurement that has just been started. -/
def System.started (kind : String) : System Spec where
  w := .started kind
  latest := .empty

inductive Action (Spec : Type) where
  | handle (n : Notification (Object Spec)) (creation : Except String Unit)
  | finish (key : String) (outcome : Outcome)

def step [DecidableEq Spec] (s : System Spec) : Action Spec → System Spec
  | .handle n creation =>
    { w := s.w.handleNotification n creation, latest := n.applyTo s.latest }
  | .finish key outcome => { s with w := s.w.finishChecker key outcome }

def Legal (s : System Spec) : Action Spec → Prop
  | .handle n _ => Possible s.latest n
  | .finish _ _ => True

/-- The handler returns before it has looked at the checkers, although the
object is another one than before. -/
def Overlooked : Notification (Object Spec) → Prop
  | .add obj => obj.spec = none
  | .update oldObj newObj =>
    oldObj.spec = none ∨ newObj.spec = none ∨ oldObj.spec = newObj.spec ∧ oldObj.uid ≠ newObj.uid
  | .delete obj => obj.last.spec = none

/-- The notification is overlooked while a checker for an earlier version of
the object is registered. -/
def LeavesChecker (s : System Spec) (n : Notification (Object Spec)) : Prop :=
  Overlooked n ∧ ∃ c, s.w.checkerMap.lookup (notifiedKey n) = some c ∧ c.isDeleted = false

def Followed (s : System Spec) : Action Spec → Prop
  | .handle n _ => ¬ LeavesChecker s n
  | .finish _ _ => True

structure Sound (s : System Spec) : Prop where
  running : s.w.isRunning = true
  keys : KeysOf s.w.objectKeys s.latest
  started : ∀ c ∈ s.w.checkerMap, c.isDeleted = false →
    ∃ obj ∈ s.latest, obj.key = c.key ∧ c.uid = obj.uid ∧ c.spec = obj.spec
  status : ∀ c ∈ s.w.checkerMap, c.status = .running → c.isDeleted = false

theorem sound_started (kind : String) : Sound (System.started kind : System Spec) where
  running := rfl
  keys := keysOf_started kind
  started c hc := absurd hc (Store.notMem_empty c)
  status c hc := absurd hc (Store.notMem_empty c)

variable {s : System Spec} {n : Notification (Object Spec)}

variable {c : ObjectChecker Spec} {creation : Except String Unit}

/-- A checker whose object the notification is not about stays right. -/
theorem started_elsewhere (h : Sound s) (legal : Legal s (.handle n creation))
    (hc : c ∈ s.w.checkerMap) (live : c.isDeleted = false) (hkey : c.key ≠ notifiedKey n) :
    ∃ obj ∈ n.applyTo s.latest, obj.key = c.key ∧ c.uid = obj.uid ∧ c.spec = obj.spec := by
  obtain ⟨obj, hobj, hk, hrest⟩ := h.started c hc live
  refine ⟨obj, ?_, hk, hrest⟩
  cases n with
  | add new => exact Store.mem_insert.mpr (.inr ⟨hobj, fun e => hkey (hk.symm.trans e)⟩)
  | update old new =>
    refine Store.mem_insert.mpr (.inr ⟨hobj, fun e => hkey (hk.symm.trans (e.trans legal.2))⟩)
  | delete obj => exact Store.mem_erase.mpr ⟨hobj, fun e => hkey (hk.symm.trans e)⟩

/-- A checker after one of them has finished stems from one for the same
version. -/
theorem mem_finishChecker {w : Measurement Spec} {key : String} {outcome : Outcome}
    (hc : c ∈ (w.finishChecker key outcome).checkerMap) :
    ∃ o ∈ w.checkerMap, c.key = o.key ∧ c.uid = o.uid ∧ c.spec = o.spec ∧
      c.isDeleted = o.isDeleted ∧
      (c.status = o.status ∨ (c.status = .running → c.isDeleted = false)) := by
  unfold finishChecker at hc
  split at hc
  · exact ⟨c, hc, rfl, rfl, rfl, rfl, .inl rfl⟩
  case h_2 o ho =>
  split at hc
  · rcases Store.mem_insert.mp hc with rfl | ⟨hold, _⟩
    · refine ⟨o, (Store.lookup_eq_some.mp ho).1, ?_⟩
      cases outcome with
      | notStarted err => exact ⟨rfl, rfl, rfl, rfl, .inl rfl⟩
      | done =>
        refine ⟨rfl, rfl, rfl, rfl, .inr fun hs => ?_⟩
        cases hd : o.isDeleted with
        | false => simpa [ObjectChecker.finish] using hd
        | true => simp [ObjectChecker.finish, hd] at hs
      | interrupted err failedPods hasTimedOut =>
        refine ⟨rfl, rfl, rfl, rfl, .inr fun hs => ?_⟩
        simp only [ObjectChecker.finish] at hs
        split at hs
        · split at hs <;> cases hs
        · cases hs
    · exact ⟨c, hold, rfl, rfl, rfl, rfl, .inl rfl⟩
  · exact ⟨c, hc, rfl, rfl, rfl, rfl, .inl rfl⟩

/-- The checker registered under `k` runs for the latest version handled. -/
def Vouched (s : System Spec) (k : String) : Prop :=
  ∃ c obj, s.w.checkerMap.lookup k = some c ∧ s.latest.lookup k = some obj ∧
    c.uid = obj.uid ∧ c.spec = obj.spec ∧ c.status = .running

/-- Running checkers are for objects in the key set, one each, so as many of
them as keys cover the key set. -/
theorem vouched_of_count (h : Sound s)
    (count : s.w.checkerMap.entries.countP (·.status = .running) = s.w.objectKeys.card) :
    ∀ k ∈ s.w.objectKeys, Vouched s k := by
  let runningKeys := ((s.w.checkerMap.select (·.status = .running)).map ObjectChecker.key).toFinset
  have hvouched : ∀ k ∈ runningKeys, k ∈ s.w.objectKeys ∧ Vouched s k := by
    intro k hk
    obtain ⟨c, hc, rfl⟩ := List.mem_map.mp (List.mem_toFinset.mp hk)
    obtain ⟨hmem, hstatus⟩ := Store.mem_select.mp hc
    have hrun : c.status = .running := of_decide_eq_true hstatus
    obtain ⟨obj, hobj, hkey, huid, hspec⟩ := h.started c hmem (h.status c hmem hrun)
    exact ⟨(h.keys c.key).mpr ⟨obj, hobj, hkey⟩, c, obj, Store.lookup_eq_some.mpr ⟨hmem, rfl⟩,
      Store.lookup_eq_some.mpr ⟨hobj, hkey⟩, huid, hspec, hrun⟩
  have hnodup : ((s.w.checkerMap.select (·.status = .running)).map ObjectChecker.key).Nodup :=
    s.w.checkerMap.unique.sublist (List.filter_sublist.map _)
  have hcard : runningKeys.card = s.w.objectKeys.card := by
    rw [List.toFinset_card_of_nodup hnodup, List.length_map, ← count, List.countP_eq_length_filter]
    rfl
  have hall := Finset.eq_of_subset_of_card_le (fun k hk => (hvouched k hk).1)
    (Nat.le_of_eq hcard.symm)
  intro k hk
  exact (hvouched k (hall ▸ hk)).2

variable [DecidableEq Spec]

variable {oldObj newObj : Object Spec}

section Comparison

theorem isEqual_update (h : isEqualRuntimeObjectsSpec (some oldObj) (some newObj) ≠ .ok false) :
    oldObj.spec = none ∨ newObj.spec = none ∨ oldObj.spec = newObj.spec := by
  cases ho : oldObj.spec with
  | none => exact .inl rfl
  | some spec =>
    cases hn : newObj.spec with
    | none => exact .inr (.inl rfl)
    | some spec' =>
      by_cases he : spec = spec'
      · exact .inr (.inr (congrArg some he))
      · have hfalse : isEqualRuntimeObjectsSpec (some oldObj) (some newObj) = .ok false := by
          simp [isEqualRuntimeObjectsSpec, getSpecFromRuntimeObject, ho, hn, he, bind, Except.bind,
            pure, Except.pure]
        exact absurd hfalse h

theorem isEqual_delete {obj : Object Spec}
    (h : isEqualRuntimeObjectsSpec (some obj) none ≠ .ok false) : obj.spec = none := by
  cases ho : obj.spec with
  | none => rfl
  | some spec =>
    have hfalse : isEqualRuntimeObjectsSpec (some obj) none = .ok false := by
      simp [isEqualRuntimeObjectsSpec, getSpecFromRuntimeObject, ho, bind, Except.bind, pure,
        Except.pure]
    exact absurd hfalse h

end Comparison

section Handler
variable {w : Measurement Spec} {c : ObjectChecker Spec} {creation : Except String Unit}

/-- A checker registered after a notification was there before, and then not
under the old object's key unless the handler has returned early, or it is the
one started for the object handled. -/
theorem mem_handleChange {oldObj newObj : Option (Object Spec)} (hrun : w.isRunning = true)
    (h : c ∈ (w.handleChange oldObj newObj creation).checkerMap) :
    c ∈ w.checkerMap ∧ (isEqualRuntimeObjectsSpec oldObj newObj ≠ .ok false ∨
        ∀ obj, oldObj = some obj → c.key ≠ obj.key) ∨
      ∃ obj, (if newObj.isNone then oldObj else newObj) = some obj ∧
        c = newObjectChecker obj newObj.isNone := by
  cases he : isEqualRuntimeObjectsSpec oldObj newObj with
  | error e =>
    simp only [handleChange, he] at h
    exact .inl ⟨h, .inl (by simp)⟩
  | ok equal =>
    cases equal with
    | true =>
      simp only [handleChange, he] at h
      exact .inl ⟨h, .inl (by simp)⟩
    | false =>
      simp only [handleChange, he, hrun, if_true] at h
      have hkept : c ∈ (w.deleteObject oldObj).checkerMap →
          c ∈ w.checkerMap ∧ ∀ obj, oldObj = some obj → c.key ≠ obj.key := by
        intro hc
        cases oldObj with
        | none => exact ⟨hc, fun obj ho => by cases ho⟩
        | some old =>
          obtain ⟨hmem, hkey⟩ := Store.mem_erase.mp hc
          exact ⟨hmem, fun obj ho => Option.some.inj ho ▸ hkey⟩
      unfold handleObjectLocked at h
      dsimp only at h
      split at h
      · exact .inl ⟨(hkept h).1, .inr (hkept h).2⟩
      · exact .inl ⟨(hkept h).1, .inr (hkept h).2⟩
      case h_3 _ _ _ obj _ hobj =>
        rcases Store.mem_insert.mp h with rfl | ⟨hc, _⟩
        · exact .inr ⟨obj, hobj, rfl⟩
        · exact .inl ⟨(hkept hc).1, .inr (hkept hc).2⟩

end Handler

/-- The checker of the object itself was left in place only by an update to
an equal spec of the same object. -/
theorem started_kept (h : Sound s) (legal : Legal s (.handle (.update oldObj newObj) creation))
    (followed : ¬ LeavesChecker s (.update oldObj newObj)) (hc : c ∈ s.w.checkerMap)
    (live : c.isDeleted = false) (hkey : c.key = oldObj.key)
    (hskip : isEqualRuntimeObjectsSpec (some oldObj) (some newObj) ≠ .ok false) :
    ∃ obj ∈ (Notification.update oldObj newObj).applyTo s.latest,
      obj.key = c.key ∧ c.uid = obj.uid ∧ c.spec = obj.spec := by
  obtain ⟨hold, hsame⟩ := legal
  obtain ⟨obj, hobj, hk, huid, hspec⟩ := h.started c hc live
  obtain rfl : obj = oldObj := Store.eq_of_key hobj hold (hk.trans hkey)
  have hseen : ¬ Overlooked (.update obj newObj) := fun ho =>
    followed ⟨ho, c, Store.lookup_eq_some.mpr ⟨hc, hkey⟩, live⟩
  simp only [Overlooked, not_or, not_and, not_not] at hseen
  have hequal : obj.spec = newObj.spec := by
    rcases isEqual_update hskip with hnone | hnone | heq
    · exact absurd hnone hseen.1
    · exact absurd hnone hseen.2.1
    · exact heq
  exact ⟨newObj, Store.mem_insert.mpr (.inl rfl), hsame.trans hk, huid.trans (hseen.2.2 hequal),
    hspec.trans hequal⟩

theorem started_handled (h : Sound s) (legal : Legal s (.handle n creation))
    (followed : ¬ LeavesChecker s n) (hc : c ∈ (s.w.handleNotification n creation).checkerMap)
    (live : c.isDeleted = false) :
    ∃ obj ∈ n.applyTo s.latest, obj.key = c.key ∧ c.uid = obj.uid ∧ c.spec = obj.spec := by
  cases n with
  | add obj =>
    simp only [handleNotification, handleObject_checkerMap] at hc
    rcases mem_handleChange h.running hc with ⟨hold, _⟩ | ⟨handled, hh, rfl⟩
    · refine started_elsewhere h legal hold live fun hkey => ?_
      obtain ⟨prev, hprev, hk, _⟩ := h.started c hold live
      exact Store.lookup_eq_none.mp legal prev hprev (hk.trans hkey)
    · cases hh
      exact ⟨obj, Store.mem_insert.mpr (.inl rfl), rfl, rfl, rfl⟩
  | update oldObj newObj =>
    simp only [handleNotification, handleObject_checkerMap] at hc
    rcases mem_handleChange h.running hc with ⟨hold, hskip⟩ | ⟨handled, hh, rfl⟩
    · by_cases hkey : c.key = oldObj.key
      · have hearly := hskip.resolve_right fun hne => hne oldObj rfl hkey
        exact started_kept h legal followed hold live hkey hearly
      · exact started_elsewhere h legal hold live hkey
    · cases hh
      exact ⟨newObj, Store.mem_insert.mpr (.inl rfl), rfl, rfl, rfl⟩
  | delete obj =>
    simp only [handleNotification, handleObject_checkerMap] at hc
    rcases mem_handleChange h.running hc with ⟨hold, hskip⟩ | ⟨handled, hh, rfl⟩
    · refine started_elsewhere h legal hold live fun hkey => ?_
      have hearly := hskip.resolve_right fun hne => hne obj.last rfl hkey
      exact followed ⟨isEqual_delete hearly, c, Store.lookup_eq_some.mpr ⟨hold, hkey⟩, live⟩
    · cases live

theorem status_handled (h : Sound s) (hc : c ∈ (s.w.handleNotification n creation).checkerMap)
    (hs : c.status = .running) :
    c.isDeleted = false := by
  have hobject : ∀ oldObj newObj, c ∈ (s.w.handleObject oldObj newObj creation).checkerMap →
      c.isDeleted = false := by
    intro oldObj newObj hc
    rw [handleObject_checkerMap] at hc
    rcases mem_handleChange h.running hc with ⟨hold, _⟩ | ⟨obj, _, rfl⟩
    · exact h.status c hold hs
    · cases hs
  cases n with
  | add | update | delete => exact hobject _ _ hc

theorem sound_step (s : System Spec) (a : Action Spec) (h : Sound s)
    (guard : Legal s a ∧ Followed s a) : Sound (step s a) := by
  obtain ⟨legal, followed⟩ := guard
  cases a with
  | handle n creation =>
    exact
      { running := (handleNotification_isRunning n).trans h.running
        keys := objectKeys_follow h.keys legal
        started := fun c hc live => started_handled h legal followed hc live
        status := fun c hc hs => status_handled h hc hs }
  | finish key outcome =>
    obtain ⟨hkeys, hrun⟩ := finishChecker_cache s.w key outcome
    refine ⟨hrun.trans h.running, fun k => ?_, fun c hc live => ?_, fun c hc hs => ?_⟩
    · simp only [step, hkeys]
      exact h.keys k
    · obtain ⟨o, ho, hk, hu, hspec, hdel, _⟩ := mem_finishChecker hc
      rw [hk, hu, hspec]
      exact h.started o ho (hdel ▸ live)
    · obtain ⟨o, ho, _, _, _, hdel, hst | hlive⟩ := mem_finishChecker hc
      · exact hdel ▸ h.status o ho (hst ▸ hs)
      · exact hlive hs

/-- No object appears or disappears. `gather` relies on this from its listing
on. -/
def KeepsKeys : Action Spec → Prop
  | .handle (.update _ _) _ => True
  | .handle _ _ => False
  | .finish _ _ => True

theorem objectKeys_kept {a : Action Spec} (h : Sound s) (legal : Legal s a)
    (keeps : KeepsKeys a) : (step s a).w.objectKeys = s.w.objectKeys := by
  cases a with
  | finish key outcome => exact (finishChecker_cache s.w key outcome).1
  | handle n creation =>
    cases n with
    | add | delete => exact keeps.elim
    | update oldObj newObj =>
      obtain ⟨hold, hkey⟩ := legal
      have hmem := (h.keys _).mpr ⟨oldObj, hold, rfl⟩
      simp only [step, handleNotification_objectKeys, hkey]
      exact Finset.insert_erase hmem

/-- The run up to the poll that succeeds, and on to the moment the checkers are
counted. -/
theorem gather_success_sound (kind : String) (before after : List (Action Spec))
    (listed : Finset String) (maxResourceVersion : Nat)
    (untilPoll : Along step (fun s a => Legal s a ∧ Followed s a) (.started kind) before)
    (synced : (run step (.started kind) before).w.Synced listed maxResourceVersion)
    (untilCount : Along step (fun s a => (Legal s a ∧ Followed s a) ∧ KeepsKeys a)
      (run step (.started kind) before) after)
    (success : ((run step (run step (.started kind) before) after).w.gatherResult listed).2 =
      .ok ()) :
    (∀ k ∈ listed, Vouched (run step (run step (.started kind) before) after) k) ∧
      ∀ c ∈ (run step (run step (.started kind) before) after).w.checkerMap,
        c.status ≠ .failed ∧ c.status ≠ .timeout ∧ c.status ≠ .deleteTimeout := by
  have hpoll := run_keeps sound_step (sound_started kind) untilPoll
  have hstep : ∀ (s : System Spec) (a : Action Spec), Sound s ∧ s.w.objectKeys = listed →
      (Legal s a ∧ Followed s a) ∧ KeepsKeys a →
      Sound (step s a) ∧ (step s a).w.objectKeys = listed := by
    rintro s a ⟨hs, hkeys⟩ ⟨guard, keeps⟩
    exact ⟨sound_step s a hs guard, (objectKeys_kept hs guard.1 keeps).trans hkeys⟩
  obtain ⟨hs, hkeys⟩ := run_keeps hstep ⟨hpoll, synced.2.symm⟩ untilCount
  obtain ⟨hcount, hsettled⟩ := gatherResult_success_iff.mp (gatherResult_of_ok success)
  have hvouched := vouched_of_count hs (hcount.trans (congrArg Finset.card hkeys.symm))
  refine ⟨fun k hk => hvouched k (hkeys ▸ hk), fun c hc => ?_⟩
  rcases hsettled c hc with hc | hc <;> simp [hc]

section Samples

/-- A Deployment, its spec given by the number of replicas. -/
def web (uid : String) (spec : Option Nat) (resourceVersion : Nat) : Object Nat :=
  ⟨"default/web", uid, spec, some resourceVersion⟩

/-- The Deployment is created and its pods run. -/
def created : List (Action Nat) :=
  [.handle (.add (web "uid-1" (some 3) 5)) (.ok ()), .finish "default/web" .done]

/-- It is scaled, and the pods of the new size run. -/
def scaled : List (Action Nat) :=
  created ++ [.handle (.update (web "uid-1" (some 3) 5) (web "uid-1" (some 4) 8)) (.ok ()),
    .finish "default/web" .done]

/-- The watch has missed that it was deleted and created again. -/
def recreated : List (Action Nat) :=
  created ++ [.handle (.update (web "uid-1" (some 3) 5) (web "uid-2" (some 3) 8)) (.ok ())]

/-- Its new spec cannot be read. -/
def unreadable : List (Action Nat) :=
  created ++ [.handle (.update (web "uid-1" (some 3) 5) (web "uid-1" none 8)) (.ok ())]

end Samples

theorem gather_success_sound_scaled :
    Vouched (run step (run step (.started "Deployment") scaled) []) "default/web" := by
  have h := gather_success_sound "Deployment" scaled [] {"default/web"} 8 ?_ (by decide) trivial
    (by decide)
  · exact h.1 "default/web" (Finset.mem_singleton_self _)
  · refine ⟨⟨rfl, ?_⟩, ⟨trivial, trivial⟩, ⟨⟨by decide, rfl⟩, ?_⟩, ⟨trivial, trivial⟩, trivial⟩
    · rintro ⟨hspec, _⟩
      cases hspec
    · rintro ⟨hspec | hspec | ⟨hspec, _⟩, _⟩
      · cases hspec
      · cases hspec
      · cases hspec

/-- In both runs `gather` succeeds with the checker of the first version: it
watches the pods of an object that is gone, or waits for a size that is no
longer wanted. -/
theorem stale_checker_passes :
    (∀ later ∈ [recreated, unreadable],
      Along step Legal (.started "Deployment") later ∧
      (run step (.started "Deployment") later).w.Synced {"default/web"} 8 ∧
      ((run step (.started "Deployment") later).w.gatherResult {"default/web"}).2 = .ok ()) ∧
    ¬ Vouched (run step (.started "Deployment") recreated) "default/web" ∧
    ¬ Vouched (run step (.started "Deployment") unreadable) "default/web" := by
  refine ⟨?_, ?_, ?_⟩
  · intro later hlater
    rcases List.mem_pair.mp hlater with rfl | rfl
    · exact ⟨⟨rfl, trivial, ⟨by decide, rfl⟩, trivial⟩, by decide, by decide⟩
    · exact ⟨⟨rfl, trivial, ⟨by decide, rfl⟩, trivial⟩, by decide, by decide⟩
  · rintro ⟨c, obj, hc, hobj, huid, _⟩
    cases hc
    cases hobj
    revert huid
    decide
  · rintro ⟨c, obj, hc, hobj, _, hspec, _⟩
    cases hc
    cases hobj
    revert hspec
    decide

end GatherSoundness
