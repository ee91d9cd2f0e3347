import ClusterLoader.ControlledPodsWait
import ClusterLoader.GuardedRuns

/-!
# What the barrier of gather waits for

`gather` lists the objects and polls until the handlers have reached the
highest version listed and hold the keys listed. The informer first delivers
what exists when it starts, in any order, and then every change in the order
of its version; the worker keeps that order. Once the poll succeeds, nothing
is left to handle for a listed object. A deletion can still be waiting, but
then the creation of the deleted object is waiting too: the key set has never
held it.
-/

namespace GatherBarrier

open KeyedStore Informers GuardedRuns ControlledPodsWait

variable {Spec : Type}

/-- A notification and the version of the change it tells of. -/
structure Delivery (Spec : Type) where
  version : Nat
  notification : Notification (Object Spec)

/-- Objects carry the version of their last change; what is delivered of a
deleted one may be its state before or at the deletion. -/
def Stamped (d : Delivery Spec) : Prop :=
  match d.notification with
  | .add obj => obj.resourceVersion = some d.version
  | .update oldObj newObj =>
    shownVersion (some oldObj) ≤ d.version ∧ newObj.resourceVersion = some d.version
  | .delete obj => shownVersion (some obj.last) ≤ d.version

variable {d : Delivery Spec} {obj : Object Spec}

theorem stamped_stored (h : Stamped d) (stored : d.notification.stored = some obj) :
    obj.resourceVersion = some d.version := by
  obtain ⟨version, n⟩ := d
  cases n with
  | add new =>
    cases stored
    exact h
  | update old new =>
    cases stored
    exact h.2
  | delete gone => cases stored

def contentStep (content : Content Spec) (d : Delivery Spec) : Content Spec :=
  d.notification.applyTo content

def Fits (content : Content Spec) (d : Delivery Spec) : Prop :=
  Possible content d.notification

/-- What an informer delivers: the objects of its first listing, then the
changes after it. -/
structure History (Spec : Type) where
  listVersion : Nat
  initial : List (Delivery Spec)
  events : List (Delivery Spec)
  initial_adds : ∀ d ∈ initial, ∃ obj, d.notification = .add obj
  initial_versions : ∀ d ∈ initial, d.version ≤ listVersion
  increasing : events.Pairwise fun d e => d.version < e.version
  later : ∀ d ∈ events, listVersion < d.version
  stamped : ∀ d ∈ initial ++ events, Stamped d
  fits : Along contentStep Fits .empty (initial ++ events)

namespace History

def deliveries (h : History Spec) : List (Delivery Spec) :=
  h.initial ++ h.events

/-- The objects a listing returns after the last change. -/
def final (h : History Spec) : Content Spec :=
  run contentStep .empty h.deliveries

end History

section Contents
variable {content : Content Spec} {deliveries : List (Delivery Spec)} {k : String}

theorem present_after_adds (adds : ∀ d ∈ deliveries, ∃ obj, d.notification = .add obj)
    (present : ∃ obj ∈ content, obj.key = k) :
    ∃ obj ∈ run contentStep content deliveries, obj.key = k := by
  induction deliveries generalizing content with
  | nil => exact present
  | cons d rest ih =>
    obtain ⟨hd, hrest⟩ := List.forall_mem_cons.mp adds
    refine ih hrest ?_
    obtain ⟨new, hnew⟩ := hd
    obtain ⟨obj, hobj, hk⟩ := present
    rw [contentStep, hnew]
    by_cases hkey : obj.key = new.key
    · exact ⟨new, Store.mem_insert.mpr (.inl rfl), hkey.symm.trans hk⟩
    · exact ⟨obj, Store.mem_insert.mpr (.inr ⟨hobj, hkey⟩), hk⟩

/-- An object appears by its creation only. -/
theorem created_between (fits : Along contentStep Fits content deliveries)
    (absent : ∀ obj ∈ content, obj.key ≠ k)
    (present : ∃ obj ∈ run contentStep content deliveries, obj.key = k) :
    ∃ d ∈ deliveries, ∃ obj, d.notification = .add obj ∧ obj.key = k := by
  induction deliveries generalizing content with
  | nil =>
    obtain ⟨obj, hobj, hk⟩ := present
    exact absurd hk (absent obj hobj)
  | cons d rest ih =>
    by_cases hadd : ∃ obj, d.notification = .add obj ∧ obj.key = k
    · exact ⟨d, List.mem_cons_self, hadd⟩
    · have habsent : ∀ obj ∈ contentStep content d, obj.key ≠ k := by
        intro obj hobj hk
        have hfit := fits.1
        unfold Fits at hfit
        unfold contentStep at hobj
        cases hn : d.notification with
        | add new =>
          rw [hn] at hobj
          rcases Store.mem_insert.mp hobj with rfl | ⟨hold, _⟩
          · exact hadd ⟨obj, hn, hk⟩
          · exact absent obj hold hk
        | update old new =>
          rw [hn] at hobj hfit
          rcases Store.mem_insert.mp hobj with rfl | ⟨hold, _⟩
          · exact absent old hfit.1 (hfit.2.symm.trans hk)
          · exact absent obj hold hk
        | delete gone =>
          rw [hn] at hobj
          exact absent obj (Store.mem_erase.mp hobj).1 hk
      obtain ⟨e, he, hcreated⟩ := ih fits.2 habsent present
      exact ⟨e, List.mem_cons_of_mem d he, hcreated⟩

theorem versions_known (stamped : ∀ d ∈ deliveries, Stamped d)
    (known : ∀ obj ∈ content, obj.resourceVersion ≠ none) :
    ∀ obj ∈ run contentStep content deliveries, obj.resourceVersion ≠ none := by
  induction deliveries generalizing content with
  | nil => exact known
  | cons d rest ih =>
    obtain ⟨hd, hrest⟩ := List.forall_mem_cons.mp stamped
    refine ih hrest fun obj hobj => ?_
    rcases Notification.mem_applyTo hobj with hold | hnew
    · exact known obj hold
    · rw [stamped_stored hd hnew]
      exact Option.some_ne_none _

end Contents

section Handled
variable [DecidableEq Spec] (creation : Notification (Object Spec) → Except String Unit)

/-- The worker handles one delivery after another. -/
def handleAll (w : Measurement Spec) (handled : List (Delivery Spec)) : Measurement Spec :=
  handled.foldl (fun w d => w.handleNotification d.notification (creation d.notification)) w

variable {w : Measurement Spec}

/-- A delivery lifts the version reached to its own at most. -/
theorem opResourceVersion_stamped {c : Except String Unit} (h : Stamped d) :
    (w.handleNotification d.notification c).opResourceVersion ≤
      max w.opResourceVersion d.version := by
  obtain ⟨version, n⟩ := d
  rw [handleNotification_opResourceVersion]
  cases n with
  | add obj =>
    have hshown : shownVersion (some obj) = version := by
      simp only [shownVersion, Option.bind_some, show obj.resourceVersion = some version from h,
        Option.getD_some]
    dsimp only
    omega
  | update oldObj newObj =>
    obtain ⟨hold, hnew⟩ := h
    have hshown : shownVersion (some newObj) = version := by
      simp only [shownVersion, Option.bind_some, hnew, Option.getD_some]
    dsimp only at hold ⊢
    omega
  | delete obj =>
    have hshown : shownVersion (some obj.last) ≤ version := h
    dsimp only
    omega

variable {handled : List (Delivery Spec)}

theorem objectKeys_handled {content : Content Spec} (keys : KeysOf w.objectKeys content)
    (fits : Along contentStep Fits content handled) :
    KeysOf (handleAll creation w handled).objectKeys (run contentStep content handled) := by
  induction handled generalizing w content with
  | nil => exact keys
  | cons d rest ih => exact ih (objectKeys_follow keys fits.1) fits.2

/-- Deliveries of lower versions do not lift the version reached to `v`. -/
theorem opResourceVersion_lt {v : Nat}
    (start : w.opResourceVersion < v) (stamped : ∀ d ∈ handled, Stamped d)
    (below : ∀ d ∈ handled, d.version < v) :
    (handleAll creation w handled).opResourceVersion < v := by
  induction handled generalizing w with
  | nil => exact start
  | cons d rest ih =>
    obtain ⟨hstamp, hstamps⟩ := List.forall_mem_cons.mp stamped
    obtain ⟨hd, hbelow⟩ := List.forall_mem_cons.mp below
    have hlift := opResourceVersion_stamped hstamp (w := w) (c := creation d.notification)
    exact ih (Nat.lt_of_le_of_lt hlift (Nat.max_lt.mpr ⟨start, hd⟩)) hstamps hbelow

/-- Whatever the content holds has been shown to the measurement. -/
theorem opResourceVersion_reaches {content : Content Spec}
    (reached : ∀ obj ∈ content, shownVersion (some obj) ≤ w.opResourceVersion) :
    ∀ obj ∈ run contentStep content handled,
      shownVersion (some obj) ≤ (handleAll creation w handled).opResourceVersion := by
  induction handled generalizing w content with
  | nil => exact reached
  | cons d rest ih =>
    refine ih fun obj hobj => ?_
    rcases Notification.mem_applyTo hobj with hold | hnew
    · exact (reached obj hold).trans (opResourceVersion_grows d.notification)
    · exact opResourceVersion_stored hnew

end Handled

namespace History
variable (h : History Spec)

/-- A delivery is one of the first listing, or a change with all of the first
listing before it. -/
theorem delivery_position {front rest : List (Delivery Spec)}
    (order : h.deliveries = front ++ d :: rest) :
    (∃ behind, h.initial = front ++ d :: behind) ∨
      ∃ between, front = h.initial ++ between ∧ h.events = between ++ d :: rest := by
  rcases List.append_eq_append_iff.mp order with ⟨between, hfront, hevents⟩ | ⟨tail, hinit, htail⟩
  · exact .inr ⟨between, hfront, hevents⟩
  · cases tail with
    | nil => exact .inr ⟨[], by simpa using hinit.symm, by simpa using htail.symm⟩
    | cons e behind =>
      obtain ⟨rfl, _⟩ := List.cons.inj htail
      exact .inl ⟨behind, hinit⟩

theorem final_versions_known : ∀ obj ∈ h.final, obj.resourceVersion ≠ none :=
  versions_known h.stamped fun obj hobj => absurd hobj (Store.notMem_empty obj)

/-- The listing has the keys of the final objects. -/
theorem mem_listed_iff {k : String} :
    k ∈ (getObjectKeysAndMaxVersion h.final.entries).1 ↔ ∃ obj ∈ h.final, obj.key = k := by
  rw [mem_listedKeys]
  constructor
  · rintro ⟨obj, hobj, _, hk⟩
    exact ⟨obj, hobj, hk⟩
  · rintro ⟨obj, hobj, hk⟩
    exact ⟨obj, hobj, h.final_versions_known obj hobj, hk⟩

theorem before_event {front between rest : List (Delivery Spec)}
    (hfront : front = h.initial ++ between) (hevents : h.events = between ++ d :: rest) :
    ∀ e ∈ front, e.version < d.version := by
  have hd : d ∈ h.events := hevents ▸ List.mem_append_right _ List.mem_cons_self
  intro e he
  rcases List.mem_append.mp (hfront ▸ he) with hinit | hbetween
  · have hlow := h.initial_versions e hinit
    have hlate := h.later d hd
    omega
  · have hincreasing := h.increasing
    rw [hevents] at hincreasing
    exact (List.pairwise_append.mp hincreasing).2.2 e hbetween d List.mem_cons_self

end History

section Barrier
variable [DecidableEq Spec] {h : History Spec} {kind : String}
  {creation : Notification (Object Spec) → Except String Unit}

/-- The measurement when it has handled the deliveries `handled`. -/
def measured (creation : Notification (Object Spec) → Except String Unit) (kind : String)
    (handled : List (Delivery Spec)) : Measurement Spec :=
  handleAll creation (.started kind) handled

/-- The condition `gather` polls, for the listing of the final objects. -/
def Passes (h : History Spec) (w : Measurement Spec) : Prop :=
  w.Synced (getObjectKeysAndMaxVersion h.final.entries).1
    (getObjectKeysAndMaxVersion h.final.entries).2

variable {handled pending : List (Delivery Spec)}

theorem keys_handled_iff_final
    (order : h.deliveries = handled ++ pending) (passes : Passes h (measured creation kind handled))
    {k : String} :
    (∃ obj ∈ h.final, obj.key = k) ↔ ∃ obj ∈ run contentStep .empty handled, obj.key = k := by
  have hfits : Along contentStep Fits (.empty : Content Spec) (handled ++ pending) :=
    order ▸ h.fits
  have hkeys := objectKeys_handled creation (keysOf_started kind) (along_append.mp hfits).1
  rw [← h.mem_listed_iff, passes.2]
  exact hkeys k

theorem listed_version_reached (passes : Passes h (measured creation kind handled))
    (hobj : obj ∈ h.final) :
    shownVersion (some obj) ≤ (measured creation kind handled).opResourceVersion :=
  (maxListedVersion_le.mp (Nat.le_refl _) obj hobj).trans passes.1

/-- Nothing is left to handle for a listed object, up to the version listed. -/
theorem listed_handled (order : h.deliveries = handled ++ pending)
    (passes : Passes h (measured creation kind handled)) (hd : d ∈ pending) (hobj : obj ∈ h.final)
    (hkey : notifiedKey d.notification = obj.key) : shownVersion (some obj) < d.version := by
  obtain ⟨skipped, rest, rfl⟩ := List.append_of_mem hd
  have horder : h.deliveries = (handled ++ skipped) ++ d :: rest := by
    rw [order, List.append_assoc]
  rcases h.delivery_position horder with ⟨behind, hinit⟩ | ⟨between, hfront, hevents⟩
  · -- only adds so far: the key the poll has seen would be added twice
    obtain ⟨new, hnew⟩ := h.initial_adds d (hinit ▸ List.mem_append_right _ List.mem_cons_self)
    have hadds : ∀ e ∈ skipped, ∃ obj, e.notification = .add obj := fun e he =>
      h.initial_adds e (hinit ▸ List.mem_append_left _ (List.mem_append_right _ he))
    have hpresent := present_after_adds hadds
      ((keys_handled_iff_final order passes).mp ⟨obj, hobj, rfl⟩)
    have hfits : Along contentStep Fits (.empty : Content Spec)
        ((handled ++ skipped) ++ d :: rest) :=
      horder ▸ h.fits
    have hfit := (along_append.mp hfits).2.1
    rw [Fits, hnew] at hfit
    rw [hnew] at hkey
    obtain ⟨twice, htwice, hk⟩ := hpresent
    rw [run, List.foldl_append] at hfit
    exact absurd (hk.trans hkey.symm) (Store.lookup_eq_none.mp hfit twice htwice)
  · have hbelow : ∀ e ∈ handled, e.version < d.version := fun e he =>
      h.before_event hfront hevents e (List.mem_append_left _ he)
    have hstamped : ∀ e ∈ handled, Stamped e := fun e he =>
      h.stamped e (show e ∈ h.deliveries from order ▸ List.mem_append_left _ he)
    have hd' : d ∈ h.events := hevents ▸ List.mem_append_right _ List.mem_cons_self
    have hstart : (Measurement.started kind : Measurement Spec).opResourceVersion < d.version :=
      Nat.lt_of_le_of_lt (Nat.zero_le _) (h.later d hd')
    have hlow := opResourceVersion_lt creation hstart hstamped hbelow
    exact Nat.lt_of_le_of_lt (listed_version_reached passes hobj) hlow

/-- A deletion left to handle has the creation left to handle before it. -/
theorem deletion_waits_with_creation {skipped rest : List (Delivery Spec)}
    (order : h.deliveries = handled ++ pending) (passes : Passes h (measured creation kind handled))
    {gone : Deleted (Object Spec)} (hpending : pending = skipped ++ d :: rest)
    (hdelete : d.notification = .delete gone) (habsent : ∀ obj ∈ h.final, obj.key ≠ gone.last.key) :
    ∃ c ∈ skipped, ∃ obj, c.notification = .add obj ∧ obj.key = gone.last.key := by
  have hfits : Along contentStep Fits (.empty : Content Spec)
      (handled ++ (skipped ++ d :: rest)) := by
    rw [← hpending, ← order]
    exact h.fits
  obtain ⟨_, hafter⟩ := along_append.mp hfits
  obtain ⟨hskipped, hfit, _⟩ := along_append.mp hafter
  rw [Fits, hdelete] at hfit
  obtain ⟨held, hheld⟩ := Option.ne_none_iff_exists'.mp hfit
  obtain ⟨hmem, hk⟩ := Store.lookup_eq_some.mp hheld
  refine created_between hskipped (fun obj hobj hkey => ?_) ⟨held, hmem, hk⟩
  obtain ⟨listed, hlisted, hlk⟩ := (keys_handled_iff_final order passes).mpr ⟨obj, hobj, hkey⟩
  exact habsent listed hlisted hlk

theorem gather_barrier (h : History Spec) (kind : String)
    (creation : Notification (Object Spec) → Except String Unit)
    (handled pending : List (Delivery Spec)) (order : h.deliveries = handled ++ pending)
    (passes : Passes h (measured creation kind handled)) :
    (∀ d ∈ pending, ∀ obj ∈ h.final, notifiedKey d.notification = obj.key →
      shownVersion (some obj) < d.version) ∧
    ∀ skipped d rest gone, pending = skipped ++ d :: rest → d.notification = .delete gone →
      (∀ obj ∈ h.final, obj.key ≠ gone.last.key) →
      ∃ c ∈ skipped, ∃ obj, c.notification = .add obj ∧ obj.key = gone.last.key := by
  constructor
  · intro d hd obj hobj hkey
    exact listed_handled order passes hd hobj hkey
  · intro skipped d rest gone hpending hdelete habsent
    exact deletion_waits_with_creation order passes hpending hdelete habsent

end Barrier

section Samples

def web : Object Nat := ⟨"default/web", "web-uid", some 3, some 9⟩

def short : Object Nat := ⟨"default/short", "short-uid", some 1, some 20⟩

/-- One object exists from the start; another is created and deleted before
the listing of `gather`. -/
def shortLived : History Nat where
  listVersion := 9
  initial := [⟨9, .add web⟩]
  events := [⟨20, .add short⟩, ⟨21, .delete (.known short)⟩]
  initial_adds d hd := ⟨web, by rw [List.mem_singleton.mp hd]⟩
  initial_versions d hd := by rw [List.mem_singleton.mp hd]
  increasing := by decide
  later := by decide
  stamped d hd := by
    rcases List.mem_cons.mp hd with rfl | hd
    · rfl
    · rcases List.mem_pair.mp hd with rfl | rfl
      · rfl
      · exact Nat.le_succ 20
  fits := ⟨rfl, rfl, Option.some_ne_none short, trivial⟩

end Samples

theorem gather_barrier_short_lived :
    ∃ c ∈ [(⟨20, .add short⟩ : Delivery Nat)], ∃ obj, c.notification = .add obj ∧
      obj.key = "default/short" := by
  have h := gather_barrier shortLived "Deployment" (fun _ => .ok ()) [⟨9, .add web⟩]
    shortLived.events rfl (show Measurement.Synced _ _ _ by decide)
  exact h.2 [⟨20, .add short⟩] ⟨21, .delete (.known short)⟩ [] (.known short) rfl rfl (by decide)

/-- The poll succeeds with the deletion of an absent object not yet handled:
neither is its creation. -/
theorem deletion_not_awaited :
    shortLived.deliveries = [⟨9, .add web⟩] ++ shortLived.events ∧
      Passes shortLived (measured (fun _ => .ok ()) "Deployment" [⟨9, .add web⟩]) ∧
      ⟨21, .delete (.known short)⟩ ∈ shortLived.events ∧
      ∀ obj ∈ shortLived.final.entries, obj.key ≠ short.key := by
  refine ⟨rfl, (show Measurement.Synced _ _ _ by decide), ?_, by decide⟩
  exact List.mem_cons_of_mem _ List.mem_cons_self

end GatherBarrier
