import ClusterLoader.Parties
import ClusterLoader.ServiceCreation

/-!
# The end of the probing

A ping checker gets into the map of checkers only when its loop has returned,
so neither a delete nor Dispose can stop a loop that is running. What the deletes
and Dispose do is therefore said under conditions on the moment they come. The
handler of a delete records it if the measurement is running and the object has a
deletion timestamp. No checker of the object runs from then on if its updates have
all been dealt with. The workers come to their end after Dispose if none of them
is in the middle of an update.

That a checker ends is said for every run of the others: wherever it leads, the
checkers of the object can end with no ping answered.
-/

namespace ServiceProbes

open Informers EnabledRuns ServiceCreation

/-- No ping is answered. -/
def Silent : Action → Prop
  | .ping _ answered => answered = false
  | _ => True

/-- A checker started for the object is in its loop. -/
def Probing (uid : Nat) (s : System) : Prop :=
  ∃ i o checker success, s.workers i = .pinging o checker success ∧ o.uid = uid

/-- The checkers started for the object come to their end, whatever else happens
and even if no ping is answered. -/
def ProbesEnd (uid : Nat) (s : System) : Prop :=
  ∀ t, Reaches step (fun _ => True) s t → ∃ u, Reaches step Silent t u ∧ ¬ Probing uid u

/-- What the workers and Dispose do. -/
def Internal : Action → Prop
  | .notify _ => False
  | _ => True

/-- The workers have ended, and with them the checkers, and Dispose has returned. -/
def Finished (s : System) : Prop := s.disposal = .done ∧ ∀ i, s.workers i = .gone

/-- The object of an update that is carried out, up to the end of its checker. -/
def updated : Worker → Option Object
  | .getCreating o | .setCreating o | .getAssigned o | .setAssigned o | .pinging o _ _ => some o
  | _ => none

/-- The object of an update that the worker has. -/
def prospect : Worker → Option Object
  | .handling n => n.stored
  | w => updated w

/-- No worker has an update of the object and none is queued. -/
def Clear (uid : Nat) (s : System) : Prop :=
  (∀ n ∈ s.queue, ∀ o ∈ n.stored, o.uid ≠ uid) ∧ ∀ i, ∀ o ∈ prospect (s.workers i), o.uid ≠ uid

instance (uid : Nat) (s : System) : Decidable (Clear uid s) :=
  inferInstanceAs (Decidable (_ ∧ _))

/-- The condition holds where a worker gets to a delete. -/
def AtDelete (p : System → Object → Prop) (s : System) : Action → Prop
  | .run i _ =>
    match s.workers i with
    | .handling (.delete o) => p s o.last
    | _ => True
  | _ => True

instance {p : System → Object → Prop} [∀ s o, Decidable (p s o)] (s : System) (a : Action) :
    Decidable (AtDelete p s a) := by
  unfold AtDelete
  split
  · split <;> infer_instance
  · infer_instance

/-- The measurement is running and the object has a deletion timestamp. -/
def Timed (s : System) (o : Object) : Prop :=
  s.isRunning = true ∧ o.deletionTimestamp.isSome = true

instance (s : System) (o : Object) : Decidable (Timed s o) := inferInstanceAs (Decidable (_ ∧ _))

/-- All updates of the object have been dealt with. -/
def Settled (s : System) (o : Object) : Prop := Clear o.uid s

instance (s : System) (o : Object) : Decidable (Settled s o) :=
  inferInstanceAs (Decidable (Clear _ _))

/-- Dispose is called while no worker carries out an update. -/
def DisposeGuarded (s : System) : Action → Prop
  | .dispose => ∀ i, updated (s.workers i) = none
  | _ => True

instance (s : System) (a : Action) : Decidable (DisposeGuarded s a) := by
  unfold DisposeGuarded
  split <;> infer_instance

/-! ## What a worker leaves alone -/

variable {s t : System}

/-- The parts of the state that no handler touches. -/
structure Kept (s t : System) : Prop where
  isRunning : t.isRunning = s.isRunning
  queue : t.queue = s.queue
  shutDown : t.shutDown = s.shutDown
  disposal : t.disposal = s.disposal
  gone : t.gone = s.gone

variable {i : WorkerId} {o : Object}

theorem kept_of_address (effect : AddressEffect s i o t) : Kept s t := by
  cases effect <;> exact ⟨rfl, rfl, rfl, rfl, rfl⟩

variable {n : Notification Object}

theorem kept_of_handle (effect : HandleEffect s i n t) : Kept s t := by
  cases effect <;> exact ⟨rfl, rfl, rfl, rfl, rfl⟩

variable {w : Worker}

theorem kept_of_run {now : Int} (effect : RunEffect s i now w t) : Kept s t := by
  cases effect with
  | handle n => exact kept_of_handle (handleObject_effect s i n)
  | known o h => exact kept_of_address (checkAddress_effect s i o)
  | create o =>
    obtain ⟨isRunning, queue, shutDown, disposal, gone⟩ :=
      kept_of_address (checkAddress_effect (s.set o .creating o.creationTimestamp) i o)
    exact ⟨isRunning, queue, shutDown, disposal, gone⟩
  | _ => exact ⟨rfl, rfl, rfl, rfl, rfl⟩

theorem kept_of_ping {answered : Bool} (effect : PingEffect s i answered w t) : Kept s t := by
  cases effect <;> exact ⟨rfl, rfl, rfl, rfl, rfl⟩

variable {a : Action} {uid : Nat}

theorem gone_of_effect (effect : Effect s a t) (h : uid ∈ s.gone) : uid ∈ t.gone := by
  cases effect with
  | notify n told alive =>
    cases n with
    | add | update => exact h
    | delete o => exact List.mem_cons_of_mem _ h
  | run i now t effect => exact (kept_of_run effect).gone ▸ h
  | ping i answered t effect => exact (kept_of_ping effect).gone ▸ h
  | _ => exact h

/-- What is queued was queued before or has just been notified. -/
theorem queued_of_effect (effect : Effect s a t) (h : n ∈ t.queue) :
    n ∈ s.queue ∨ (∀ o, n.stored = some o → o.uid ∉ s.gone) ∧
      ∀ o, n = .delete o → o.last.uid ∈ t.gone := by
  cases effect with
  | notify n' told alive =>
    change n ∈ if s.shutDown then s.queue else s.queue ++ [n'] at h
    split at h
    · exact .inl h
    · rcases List.mem_append.mp h with h | h
      · exact .inl h
      · obtain rfl := List.mem_singleton.mp h
        refine .inr ⟨alive, ?_⟩
        rintro o rfl
        exact List.mem_cons_self
  | take i n' rest free hqueue => exact .inl (hqueue ▸ List.mem_cons_of_mem n' h)
  | run i now t effect => exact .inl ((kept_of_run effect).queue ▸ h)
  | ping i answered t effect => exact .inl ((kept_of_ping effect).queue ▸ h)
  | _ => exact .inl h

/-! ## What the workers share -/

/-- The worker holds the lock. -/
def holds : Worker → Bool
  | .setDeleting _ _ | .setDeleted _ | .stopping _ => true
  | _ => false

/-- What a step does to the map of checkers, and which of them it stops. -/
inductive CheckersEffect (s t : System) : Prop where
  | same (stopped : t.stopped = s.stopped) (registered : t.pingCheckers = s.pingCheckers)
  | replace (key : String) (stopped : t.stopped = (s.pingCheckers.get key).toList ++ s.stopped)
    (registered : ∀ e ∈ t.pingCheckers,
      e ∈ s.pingCheckers ∨ ∃ i o, s.workers i = .register o e.2)
  | dispose (gone : ∀ i, s.workers i = .gone)

/-- What a step does to the lock, the checkers and the deletes handled. A delete is
handled in one of three ways, of which the last records it. -/
structure Shared (s : System) (a : Action) (t : System) : Prop where
  lock : t.lock = s.lock ∨ ∀ i, t.lock = some i → holds (t.workers i) = true
  numbers : s.nextChecker ≤ t.nextChecker
  checkers : CheckersEffect s t
  handled : ∀ o ∈ t.handled, o ∈ s.handled ∨ ∃ i now, a = .run i now ∧
    ((∃ d, s.workers i = .handling (.delete d) ∧ d.last = o ∧ s.isRunning = false) ∨
      (s.workers i = .locking o ∧ o.deletionTimestamp = none) ∨ s.workers i = .stopping o)

theorem shared_of_address {s' : System} (effect : AddressEffect s' i o t)
    (lock : s'.lock = s.lock) (numbers : s'.nextChecker = s.nextChecker)
    (stopped : s'.stopped = s.stopped) (registered : s'.pingCheckers = s.pingCheckers)
    (handled : s'.handled = s.handled) : Shared s a t := by
  cases effect with
  | ping =>
    exact ⟨.inl lock, numbers ▸ Nat.le_succ _, .same stopped registered,
      fun _ h => .inl (handled ▸ h)⟩
  | _ =>
    exact ⟨.inl lock, Nat.le_of_eq numbers.symm, .same stopped registered,
      fun _ h => .inl (handled ▸ h)⟩

theorem shared_of_effect (effect : Effect s a t) : Shared s a t := by
  cases effect with
  | run i now t effect =>
    generalize hw : s.workers i = w at effect
    cases effect with
    | handle n =>
      have effect := handleObject_effect s i n
      generalize s.handleObject i n = t at effect
      cases effect with
      | drop d resting =>
        refine ⟨.inl rfl, Nat.le_refl _, .same rfl rfl, fun o h => ?_⟩
        rcases List.mem_cons.mp h with rfl | h
        · exact .inr ⟨i, now, rfl, .inl ⟨d, hw, rfl, resting⟩⟩
        · exact .inl h
      | _ => exact ⟨.inl rfl, Nat.le_refl _, .same rfl rfl, fun _ => .inl⟩
    | known o h => exact shared_of_address (checkAddress_effect s i o) rfl rfl rfl rfl rfl
    | create o => exact shared_of_address (checkAddress_effect _ i o) rfl rfl rfl rfl rfl
    | assign o => exact ⟨.inl rfl, Nat.le_succ _, .same rfl rfl, fun _ => .inl⟩
    | register o checker unlocked =>
      refine ⟨.inl rfl, Nat.le_refl _, .replace o.key rfl fun e he => ?_, fun _ => .inl⟩
      rcases KeyedStore.Store.mem_insert.mp he with rfl | ⟨he, _⟩
      · exact .inr ⟨i, o, hw⟩
      · exact .inl he
    | untimed o unlocked untimed =>
      refine ⟨.inl rfl, Nat.le_refl _, .same rfl rfl, fun o' h => ?_⟩
      rcases List.mem_cons.mp h with rfl | h
      · exact .inr ⟨i, now, rfl, .inr (.inl ⟨hw, untimed⟩)⟩
      · exact .inl h
    | lock o time unlocked timed =>
      refine ⟨.inr fun j h => ?_, Nat.le_refl _, .same rfl rfl, fun _ => .inl⟩
      obtain rfl : i = j := Option.some.inj h
      rw [goto_workers, if_pos rfl]
      rfl
    | stop o =>
      refine ⟨.inr nofun, Nat.le_refl _,
        .replace o.key rfl fun e he => .inl (KeyedStore.Store.mem_erase.mp he).1, fun o' h => ?_⟩
      rcases List.mem_cons.mp h with rfl | h
      · exact .inr ⟨i, now, rfl, .inr (.inr hw)⟩
      · exact .inl h
    | _ => exact ⟨.inl rfl, Nat.le_refl _, .same rfl rfl, fun _ => .inl⟩
  | ping i answered t effect =>
    generalize s.workers i = w at effect
    cases effect <;> exact ⟨.inl rfl, Nat.le_refl _, .same rfl rfl, fun _ => .inl⟩
  | disposeCheckers h unlocked gone =>
    exact ⟨.inl rfl, Nat.le_refl _, .dispose gone, fun _ => .inl⟩
  | _ => exact ⟨.inl rfl, Nat.le_refl _, .same rfl rfl, fun _ => .inl⟩

/-! ## Deletes -/

theorem updated_of_continues {o' : Object} (next : Continues s o w)
    (h : updated w = some o') : o' = o := by
  cases next with
  | missing => cases h
  | assigned | ping => exact (Option.some.inj h).symm

variable {w' : Worker}

/-- An update is carried out only if the measurement was running when the worker
got to it. -/
theorem updated_of_moves (moves : Moves s t w w') (h : updated w' = some o) :
    updated w = some o ∨ ∃ n, w = .handling n ∧ n.stored = some o ∧ s.isRunning = true := by
  cases moves with
  | update n o' stored running kind =>
    cases h
    exact .inr ⟨n, rfl, stored, running⟩
  | known _ _ _ next | create _ _ _ next =>
    obtain rfl := updated_of_continues next h
    exact .inl rfl
  | unknown | unassigned | assign | again => exact .inl h
  | _ => cases h

theorem prospect_eq_some :
    prospect w = some o ↔ (∃ n, w = .handling n ∧ n.stored = some o) ∨ updated w = some o := by
  cases w with
  | handling n => simp [prospect, updated]
  | _ => simp [prospect]

theorem queued_of_moves (moves : Moves s t w (.handling n)) : n ∈ s.queue := by
  cases moves with
  | take n queued => exact queued
  | known _ _ _ next | create _ _ _ next => cases next

theorem prospect_of_moves (moves : Moves s t w w') (h : prospect w' = some o) :
    prospect w = some o ∨ ∃ n ∈ s.queue, n.stored = some o := by
  rcases prospect_eq_some.mp h with ⟨n, rfl, stored⟩ | h
  · exact .inr ⟨n, queued_of_moves moves, stored⟩
  · rcases updated_of_moves moves h with h | ⟨n, hw, stored, running⟩
    · exact .inl (prospect_eq_some.mpr (.inr h))
    · exact .inl (prospect_eq_some.mpr (.inl ⟨n, hw, stored⟩))

/-- The object is gone and so are its updates. -/
structure Quiet (uid : Nat) (s : System) : Prop where
  gone : uid ∈ s.gone
  clear : Clear uid s

theorem Quiet.step (quiet : Quiet uid s) (effect : Effect s a t) : Quiet uid t where
  gone := gone_of_effect effect quiet.gone
  clear := by
    obtain ⟨queue, workers⟩ := quiet.clear
    constructor
    · rintro n hn o ho rfl
      rcases queued_of_effect effect hn with hn | ⟨alive, _⟩
      · exact queue n hn o ho rfl
      · exact alive o ho quiet.gone
    · rintro j o ho rfl
      rcases moves_of_effect effect j with same | moves
      · exact workers j o (same ▸ ho) rfl
      · rcases prospect_of_moves moves ho with h | ⟨n, hn, stored⟩
        · exact workers j o h rfl
        · exact queue n hn o stored rfl

theorem Quiet.not_probing (quiet : Quiet uid s) : ¬ Probing uid s := by
  rintro ⟨i, o, checker, success, hw, rfl⟩
  refine quiet.clear.2 i o ?_ rfl
  rw [hw]
  rfl

theorem Quiet.ends (quiet : Quiet uid s) : ProbesEnd uid s := by
  intro t reached
  have later : Quiet uid t :=
    reached.keeps (fun _ _ _ _ quiet h => Quiet.step quiet (effect_of_step h)) quiet
  exact ⟨t, .refl t, later.not_probing⟩

/-- The object whose delete the worker carries out. -/
def deleting : Worker → Option Object
  | .locking o | .setDeleting o _ | .setDeleted o | .stopping o => some o
  | _ => none

theorem deleting_of_moves (moves : Moves s t w w') (h : deleting w' = some o) :
    deleting w = some o ∨ w' = .locking o := by
  cases moves with
  | delete d running => exact .inr (congrArg Worker.locking (Option.some.inj h))
  | known _ _ _ next | create _ _ _ next => cases next <;> cases h
  | lock | setDeleting | setDeleted => exact .inl h
  | _ => cases h

theorem handling_of_moves (moves : Moves s t w (.locking o)) :
    ∃ d, w = .handling (.delete d) ∧ d.last = o := by
  cases moves with
  | delete d running => exact ⟨d, rfl, rfl⟩
  | known _ _ _ next | create _ _ _ next => cases next

theorem recorded_of_moves (moves : Moves s t w (.stopping o)) : t.recorded o .deleted = true := by
  cases moves with
  | setDeleted o recorded => exact recorded
  | known _ _ _ next | create _ _ _ next => cases next

/-- The worker that takes the step. -/
def actor : Action → Option WorkerId
  | .take i | .run i _ | .ping i _ | .quit i => some i
  | _ => none

theorem stays_of_effect (effect : Effect s a t) (other : actor a ≠ some i) :
    t.workers i = s.workers i := by
  have ne : ∀ j, actor a = some j → i ≠ j := fun j acts same => other (same ▸ acts)
  cases effect with
  | take j | quit j => exact Function.update_of_ne (ne j rfl) _ _
  | run j now t effect => exact (moved_of_run effect).others i (ne j rfl)
  | ping j answered t effect => exact (moved_of_ping effect).others i (ne j rfl)
  | _ => rfl

/-- Only the worker itself gets on with a notification that it has taken. -/
theorem handling_of_effect (effect : Effect s a t) (h : s.workers i = .handling n) :
    t.workers i = .handling n ∨ ∃ now, a = .run i now := by
  by_cases acts : actor a = some i
  · cases effect with
    | run j now t effect =>
      cases acts
      exact .inr ⟨now, rfl⟩
    | take j _ _ free | quit j free =>
      cases acts
      cases h.symm.trans free
    | ping j answered t effect =>
      cases acts
      rw [h] at effect
      cases effect
    | _ => cases acts
  · exact .inl ((stays_of_effect effect acts).trans h)

variable {p : System → Object → Prop}

theorem AtDelete.holds {d : Deleted Object} {now : Int} (guarded : AtDelete p s (.run i now))
    (hw : s.workers i = .handling (.delete d)) :
    p s d.last := by
  rw [AtDelete, hw] at guarded
  exact guarded

/-- A worker that comes to a delete in this step meets the condition. -/
theorem AtDelete.of_moves {j : WorkerId} (guarded : AtDelete p s a) (effect : Effect s a t)
    (h : t.workers j = .locking o) (moves : Moves s t (s.workers j) (t.workers j)) :
    p s o ∧ ∃ d, s.workers j = .handling (.delete d) ∧ d.last = o := by
  rw [h] at moves
  obtain ⟨d, hw, rfl⟩ := handling_of_moves moves
  rcases handling_of_effect effect hw with same | ⟨now, rfl⟩
  · rw [h] at same
    cases same
  · exact ⟨guarded.holds hw, d, hw, rfl⟩

/-- The deletes handled are recorded, and those under way have a timestamp. -/
structure Recording (s : System) : Prop where
  timed : ∀ i o, s.workers i = .locking o → o.deletionTimestamp.isSome = true
  stopping : ∀ i o, s.workers i = .stopping o → s.recorded o .deleted = true
  handled : ∀ o ∈ s.handled, s.recorded o .deleted = true

theorem Recording.start : Recording started where
  timed := nofun
  stopping := nofun
  handled := fun _ h => absurd h List.not_mem_nil

theorem Recording.step (recording : Recording s) (guarded : AtDelete Timed s a)
    (effect : Effect s a t) : Recording t where
  timed := by
    intro j o h
    rcases moves_of_effect effect j with same | moves
    · exact recording.timed j o (same ▸ h)
    · exact (guarded.of_moves effect h moves).1.2
  stopping := by
    intro j o h
    rcases moves_of_effect effect j with same | moves
    · exact has_of_effect effect (recording.stopping j o (same ▸ h))
    · rw [h] at moves
      exact recorded_of_moves moves
  handled := by
    intro o h
    rcases (shared_of_effect effect).handled o h with
      h | ⟨i, now, rfl, ⟨d, hw, _, resting⟩ | ⟨hw, untimed⟩ | hw⟩
    · exact has_of_effect effect (recording.handled o h)
    · rw [(guarded.holds hw).1] at resting
      cases resting
    · have timed := recording.timed i o hw
      rw [untimed] at timed
      cases timed
    · exact has_of_effect effect (recording.stopping i o hw)

/-- The objects whose delete is handled or under way are quiet. -/
structure Quieted (s : System) : Prop where
  queued : ∀ o, .delete o ∈ s.queue → o.last.uid ∈ s.gone
  taken : ∀ i o, s.workers i = .handling (.delete o) → o.last.uid ∈ s.gone
  working : ∀ i o, deleting (s.workers i) = some o → Quiet o.uid s
  handled : ∀ o ∈ s.handled, Quiet o.uid s

theorem Quieted.start : Quieted started where
  queued := fun _ h => absurd h List.not_mem_nil
  taken := nofun
  working := nofun
  handled := fun _ h => absurd h List.not_mem_nil

theorem Quieted.step (quieted : Quieted s) (guarded : AtDelete Settled s a)
    (effect : Effect s a t) : Quieted t where
  queued := by
    intro d h
    rcases queued_of_effect effect h with h | ⟨_, gone⟩
    · exact gone_of_effect effect (quieted.queued d h)
    · exact gone d rfl
  taken := by
    intro j d h
    rcases moves_of_effect effect j with same | moves
    · exact gone_of_effect effect (quieted.taken j d (same ▸ h))
    · rw [h] at moves
      exact gone_of_effect effect (quieted.queued d (queued_of_moves moves))
  working := by
    intro j o h
    rcases moves_of_effect effect j with same | moves
    · exact (quieted.working j o (same ▸ h)).step effect
    · rcases deleting_of_moves moves h with h | next
      · exact (quieted.working j o h).step effect
      · obtain ⟨clear, d, hw, rfl⟩ := guarded.of_moves effect next moves
        exact Quiet.step ⟨quieted.taken j d hw, clear⟩ effect
  handled := by
    intro o h
    rcases (shared_of_effect effect).handled o h with
      h | ⟨i, now, rfl, ⟨d, hw, rfl, _⟩ | ⟨hw, _⟩ | hw⟩
    · exact (quieted.handled o h).step effect
    · exact Quiet.step ⟨quieted.taken i d hw, guarded.holds hw⟩ effect
    · exact (quieted.working i o (by rw [hw]; rfl)).step effect
    · exact (quieted.working i o (by rw [hw]; rfl)).step effect

/-! ## Dispose -/

theorem holds_of_moves (moves : Moves s t w w') (h : holds w = true) :
    holds w' = true ∨ t.lock = none := by
  cases moves with
  | setDeleting | setDeleted => exact .inl rfl
  | stop o unlocked => exact .inr unlocked
  | _ => cases h

/-- The lock is held by a worker that releases it. -/
def Locked (s : System) : Prop := ∀ i, s.lock = some i → holds (s.workers i) = true

theorem Locked.step (locked : Locked s) (effect : Effect s a t) : Locked t := by
  intro j h
  rcases (shared_of_effect effect).lock with kept | held
  · have before := locked j (kept ▸ h)
    rcases moves_of_effect effect j with same | moves
    · rw [same]
      exact before
    · rcases holds_of_moves moves before with after | unlocked
      · exact after
      · rw [unlocked] at h
        cases h
  · exact held j h

/-- Dispose has been called and no update is carried out any more. -/
structure Winding (s : System) : Prop where
  resting : s.isRunning = false
  shutDown : s.shutDown = true
  called : s.disposal ≠ .notCalled
  settled : ∀ i, updated (s.workers i) = none
  locked : Locked s

theorem Winding.settled_step (winding : Winding s) (effect : Effect s a t)
    (j : WorkerId) : updated (t.workers j) = none := by
  rw [Option.eq_none_iff_forall_ne_some]
  intro o h
  rcases moves_of_effect effect j with same | moves
  · rw [same, winding.settled j] at h
    cases h
  · rcases updated_of_moves moves h with h | ⟨n, _, _, running⟩
    · rw [winding.settled j] at h
      cases h
    · rw [winding.resting] at running
      cases running

theorem Winding.of_kept (winding : Winding s) (kept : Kept s t)
    (settled : ∀ i, updated (t.workers i) = none) (locked : Locked t) : Winding t where
  resting := kept.isRunning.trans winding.resting
  shutDown := kept.shutDown.trans winding.shutDown
  called := by
    rw [kept.disposal]
    exact winding.called
  settled := settled
  locked := locked

theorem Winding.step (winding : Winding s) (effect : Effect s a t) : Winding t := by
  have settled := winding.settled_step effect
  have locked := winding.locked.step effect
  cases effect with
  | run i now t effect => exact winding.of_kept (kept_of_run effect) settled locked
  | ping i answered t effect => exact winding.of_kept (kept_of_ping effect) settled locked
  | dispose h => exact absurd h winding.called
  | disposeCheckers h unlocked gone =>
    exact ⟨winding.resting, winding.shutDown, nofun, settled, locked⟩
  | _ => exact ⟨winding.resting, winding.shutDown, winding.called, settled, locked⟩

/-- How many steps a worker has before it is free to leave. -/
def rank : Worker → Nat
  | .gone => 0
  | .free => 1
  | .handling _ => 2
  | .register _ _ => 2
  | .setReachable _ _ => 3
  | .stopping _ => 2
  | .setDeleted _ => 3
  | .setDeleting _ _ => 4
  | .locking _ => 5
  | _ => 0

theorem rank_of_moves (moves : Moves s t w w') (settled : updated w = none)
    (resting : s.isRunning = false) : rank w' < rank w ∨ w = .free ∧ ∃ n, w' = .handling n := by
  cases moves with
  | take n queued => exact .inr ⟨rfl, n, rfl⟩
  | update _ _ _ running | delete _ running =>
    rw [resting] at running
    cases running
  | quit => exact .inl (by decide)
  | ignore n => exact .inl Nat.one_lt_two
  | reach o checker => exact .inl (Nat.lt_succ_self 2)
  | register o checker => exact .inl Nat.one_lt_two
  | untimed o untimed => exact .inl (show 1 < 5 by decide)
  | lock o time => exact .inl (Nat.lt_succ_self 4)
  | setDeleting o time => exact .inl (Nat.lt_succ_self 3)
  | setDeleted o recorded => exact .inl (Nat.lt_succ_self 2)
  | stop o unlocked => exact .inl Nat.one_lt_two
  | _ => cases settled

def total (s : System) : Nat :=
  2 * s.queue.length + ∑ i, rank (s.workers i) + if s.disposal = .waiting then 1 else 0

theorem total_of_moved (moved : Moved s t i) (disposal : t.disposal = s.disposal) :
    total t + 2 * s.queue.length + rank (s.workers i) =
      total s + 2 * t.queue.length + rank (t.workers i) := by
  have sum := Parties.sum_update (fun _ => rank) s.workers i (t.workers i)
  rw [← Function.eq_update_iff.mpr ⟨rfl, moved.others⟩] at sum
  rw [total, total, disposal]
  omega

theorem Winding.total_lt_of_kept (winding : Winding s) (kept : Kept s t)
    (moved : Moved s t i) (busy : s.workers i ≠ .free) : total t < total s := by
  have change := total_of_moved moved kept.disposal
  rw [kept.queue] at change
  rcases rank_of_moves moved.moves (winding.settled i) winding.resting with less | ⟨free, _⟩
  · omega
  · exact absurd free busy

theorem Winding.total_lt (winding : Winding s) (internal : Internal a)
    (effect : Effect s a t) : total t < total s := by
  cases effect with
  | notify n told alive => cases internal
  | dispose h => exact absurd h winding.called
  | run i now t effect =>
    refine winding.total_lt_of_kept (kept_of_run effect) (moved_of_run effect) fun free => ?_
    rw [free] at effect
    cases effect
  | ping i answered t effect =>
    refine winding.total_lt_of_kept (kept_of_ping effect) (moved_of_ping effect) fun free => ?_
    rw [free] at effect
    cases effect
  | take i n rest free hqueue =>
    have change := total_of_moved (t := { s with queue := rest }.goto i (.handling n))
      (.of_update rfl free (.take n (hqueue ▸ List.mem_cons_self))) rfl
    rw [free, hqueue, goto_workers, if_pos rfl] at change
    simp only [System.goto, rank, List.length_cons] at change ⊢
    omega
  | quit i free drained shutDown =>
    have change := total_of_moved (t := s.goto i .gone) (.of_update rfl free .quit) rfl
    rw [free, goto_workers, if_pos rfl] at change
    simp only [System.goto, rank] at change ⊢
    omega
  | disposeCheckers h unlocked gone =>
    simp only [total, h, reduceCtorEq, if_true, if_false]
    omega

/-- A worker that is not gone can get on, unless it waits for the lock. -/
theorem enabled_of_unlocked (i : WorkerId) (shutDown : s.shutDown = true)
    (unlocked : s.lock = none) (h : s.workers i ≠ .gone) :
    ∃ a, Internal a ∧ (step s a).isSome = true := by
  cases hw : s.workers i with
  | gone => exact absurd hw h
  | free =>
    cases hq : s.queue with
    | nil => exact ⟨.quit i, trivial, by simp [step, quit, hw, hq, shutDown]⟩
    | cons n rest => exact ⟨.take i, trivial, by simp [step, take, hw, hq]⟩
  | pinging o checker success => exact ⟨.ping i false, trivial, by simp [step, ping, hw]⟩
  | locking o =>
    cases ht : o.deletionTimestamp with
    | none | some => exact ⟨.run i 0, trivial, by simp [step, run, hw, unlocked, ht]⟩
  | _ => exact ⟨.run i 0, trivial, by simp [step, run, hw, unlocked]⟩

theorem enabled_of_holds (h : holds (s.workers i) = true) :
    ∃ a, Internal a ∧ (step s a).isSome = true := by
  refine ⟨.run i 0, trivial, ?_⟩
  cases hw : s.workers i with
  | setDeleting | setDeleted | stopping => simp [step, run, hw]
  | _ =>
    rw [hw] at h
    cases h

/-- Where nothing is left to do, the workers are gone and Dispose has returned. -/
theorem Winding.finished (winding : Winding s)
    (idle : ∀ a, Internal a → ServiceCreation.step s a = none) : Finished s := by
  have stuck : ¬ ∃ a, Internal a ∧ (ServiceCreation.step s a).isSome = true := by
    rintro ⟨a, internal, h⟩
    rw [idle a internal] at h
    cases h
  have unlocked : s.lock = none := by
    cases hlock : s.lock with
    | none => rfl
    | some i => exact absurd (enabled_of_holds (winding.locked i hlock)) stuck
  have gone : ∀ i, s.workers i = .gone := by
    intro i
    by_contra h
    exact stuck (enabled_of_unlocked i winding.shutDown unlocked h)
  refine ⟨?_, gone⟩
  cases hdisposal : s.disposal with
  | notCalled => exact absurd hdisposal winding.called
  | done => rfl
  | waiting =>
    refine absurd ⟨.disposeCheckers, trivial, ?_⟩ stuck
    simp [ServiceCreation.step, disposeCheckers, hdisposal, unlocked, gone]

theorem Winding.terminates (winding : Winding s) :
    Terminates ServiceCreation.step Internal Finished s :=
  terminates_of_decreasing total (fun _ _ _ _ winding h => Winding.step winding (effect_of_step h))
    (fun _ _ _ internal winding h => Winding.total_lt winding internal (effect_of_step h))
    (fun _ winding idle => Winding.finished winding idle) winding

/-- Dispose comes to its end, and with it the workers and the checkers. -/
def Disposes (s : System) : Prop := s.disposal ≠ .notCalled → Terminates step Internal Finished s

/-- The lock is in order, and Dispose is not called or the workers wind up. -/
def Orderly (s : System) : Prop := Locked s ∧ (s.disposal = .notCalled ∨ Winding s)

theorem Orderly.disposes (orderly : Orderly s) : Disposes s := by
  intro called
  rcases orderly.2 with notCalled | winding
  · exact absurd notCalled called
  · exact winding.terminates

theorem Orderly.step (orderly : Orderly s) (guarded : DisposeGuarded s a)
    (effect : Effect s a t) : Orderly t := by
  obtain ⟨locked, notCalled | winding⟩ := orderly
  · have locked' := locked.step effect
    refine ⟨locked', ?_⟩
    cases effect with
    | dispose h => exact .inr ⟨rfl, rfl, nofun, guarded, locked'⟩
    | disposeCheckers h unlocked gone =>
      rw [h] at notCalled
      cases notCalled
    | run i now t effect => exact .inl ((kept_of_run effect).disposal.trans notCalled)
    | ping i answered t effect => exact .inl ((kept_of_ping effect).disposal.trans notCalled)
    | _ => exact .inl notCalled
  · exact ⟨locked.step effect, .inr (winding.step effect)⟩

/-! ## A loop that nothing stops -/

/-- The checker that a worker has. -/
def checkerOf : Worker → Option Nat
  | .pinging _ checker _ | .setReachable _ checker | .register _ checker => some checker
  | _ => none

/-- A checker in its loop, known to its worker only. -/
structure Astray (uid : Nat) (i : WorkerId) (checker : Nat) (s : System) : Prop where
  pinging : ∃ o success, s.workers i = .pinging o checker success ∧ o.uid = uid
  begun : checker < s.nextChecker
  running : checker ∉ s.stopped
  unregistered : ∀ e ∈ s.pingCheckers, e.2 ≠ checker
  alone : ∀ j, j ≠ i → checkerOf (s.workers j) ≠ some checker

variable {checker : Nat}

theorem checkerOf_of_moves (moves : Moves s t w w')
    (h : checkerOf w' = some checker) : checkerOf w = some checker ∨ checker = s.nextChecker := by
  cases moves with
  | known _ _ _ next | create _ _ _ next =>
    cases next with
    | ping => exact .inr (Option.some.inj h).symm
    | _ => cases h
  | assign o => exact .inr (Option.some.inj h).symm
  | stopped | again | reached | reach => exact .inl h
  | _ => cases h

theorem mem_of_mem_get {key : String}
    (h : checker ∈ (s.pingCheckers.get key).toList) : ∃ e ∈ s.pingCheckers, e.2 = checker := by
  obtain ⟨e, found, rfl⟩ := Option.map_eq_some_iff.mp (Option.mem_toList.mp h)
  exact ⟨e, (KeyedStore.Store.lookup_eq_some.mp found).1, rfl⟩

/-- A ping loop goes on as long as its checker is not stopped and no ping is answered. -/
theorem pinging_of_effect (silent : Silent a) (effect : Effect s a t)
    {success : Nat} (h : s.workers i = .pinging o checker success)
    (running : checker ∉ s.stopped) : ∃ success', t.workers i = .pinging o checker success' := by
  by_cases acts : actor a = some i
  · cases effect with
    | take j _ _ free | quit j free =>
      cases acts
      cases h.symm.trans free
    | run j now t effect =>
      cases acts
      rw [h] at effect
      cases effect
    | ping j answered t effect =>
      cases acts
      rw [h] at effect
      cases effect with
      | stopped o checker success stopped => exact absurd stopped running
      | failed o checker success _ _ => exact ⟨0, Function.update_self i _ s.workers⟩
      | reached _ _ _ _ heard | counted _ _ _ _ heard => cases silent.symm.trans heard
    | _ => cases acts
  · exact ⟨success, (stays_of_effect effect acts).trans h⟩

section
variable (astray : Astray uid i checker s)
include astray

theorem Astray.step (silent : Silent a) (effect : Effect s a t) :
    Astray uid i checker t := by
  obtain ⟨⟨o, success, hw, huid⟩, begun, running, unregistered, alone⟩ := astray
  have others : ∀ j o', s.workers j ≠ .register o' checker := by
    intro j o' registering
    by_cases hj : j = i
    · rw [hj, hw] at registering
      cases registering
    · exact alone j hj (by rw [registering]; rfl)
  refine ⟨?_, Nat.lt_of_lt_of_le begun (shared_of_effect effect).numbers, ?_, ?_, ?_⟩
  · obtain ⟨success', h⟩ := pinging_of_effect silent effect hw running
    exact ⟨o, success', h, huid⟩
  · intro stopped
    cases (shared_of_effect effect).checkers with
    | same kept registered => exact running (kept ▸ stopped)
    | replace key now registered =>
      rw [now] at stopped
      rcases List.mem_append.mp stopped with stopped | stopped
      · obtain ⟨e, he, rfl⟩ := mem_of_mem_get stopped
        exact unregistered e he rfl
      · exact running stopped
    | dispose gone =>
      rw [gone i] at hw
      cases hw
  · rintro e he rfl
    cases (shared_of_effect effect).checkers with
    | same kept registered => exact unregistered e (registered ▸ he) rfl
    | replace key now registered =>
      rcases registered e he with he | ⟨j, o', h⟩
      · exact unregistered e he rfl
      · exact others j o' h
    | dispose gone =>
      rw [gone i] at hw
      cases hw
  · intro j hj h
    rcases moves_of_effect effect j with same | moves
    · exact alone j hj (same ▸ h)
    · rcases checkerOf_of_moves moves h with h | rfl
      · exact alone j hj h
      · exact Nat.lt_irrefl _ begun

theorem Astray.probing : Probing uid s := by
  obtain ⟨o, success, hw, huid⟩ := astray.pinging
  exact ⟨i, o, checker, success, hw, huid⟩

theorem Astray.not_probesEnd : ¬ ProbesEnd uid s := by
  intro ends
  obtain ⟨u, reached, ended⟩ := ends s (.refl s)
  have later := reached.keeps
    (fun _ _ _ silent astray h => Astray.step astray silent (effect_of_step h)) astray
  exact ended later.probing

theorem Astray.not_disposes (called : s.disposal ≠ .notCalled) : ¬ Disposes s := by
  intro disposes
  refine not_terminates_of_keeps (q := Astray uid i checker) ?_ astray (disposes called)
  intro s astray
  obtain ⟨o, success, hw, huid⟩ := astray.pinging
  have ping : ServiceCreation.step s (.ping i false) =
      some (s.goto i (.pinging o checker 0)) := by
    simp [ServiceCreation.step, ServiceCreation.ping, hw, astray.running]
  have silent : Silent (.ping i false) := rfl
  exact ⟨.ping i false, _, trivial, ping, astray.step silent (effect_of_step ping)⟩

end

/-! ## Both along a run -/

/-- The deletes handled are recorded in every run that gets to each of them
running and with its timestamp, their objects are not probed any more in every run
that gets to each of them after all updates, and Dispose ends the workers in
every run that calls it outside of updates. -/
theorem deletes_noticed_and_disposal_ends (actions : List Action) :
    (Along step (AtDelete Timed) started actions →
      Throughout step (fun s => ∀ o ∈ s.handled, s.recorded o .deleted = true) started actions) ∧
    (Along step (AtDelete Settled) started actions →
      Throughout step (fun s => ∀ o ∈ s.handled, ProbesEnd o.uid s) started actions) ∧
    (Along step DisposeGuarded started actions →
      Throughout step Disposes started actions) := by
  refine ⟨?_, ?_, ?_⟩
  · exact throughout_of_along (fun _ recording => Recording.handled recording)
      (fun _ _ _ recording guarded h => Recording.step recording guarded (effect_of_step h))
      Recording.start
  · exact throughout_of_along (fun _ quieted o h => (Quieted.handled quieted o h).ends)
      (fun _ _ _ quieted guarded h => Quieted.step quieted guarded (effect_of_step h))
      Quieted.start
  · exact throughout_of_along (fun _ orderly => Orderly.disposes orderly)
      (fun _ _ _ orderly guarded h => Orderly.step orderly guarded (effect_of_step h))
      ⟨nofun, .inl rfl⟩

/-- A service of the type `ClusterIP`. -/
def web : Object where
  key := "default/web"
  uid := 1
  kind := .clusterIP
  creationTimestamp := 0
  deletionTimestamp := none
  assigned := false
  content := 0

def deletedWeb : Object := { web with deletionTimestamp := some 9 }

/-- The service comes, becomes reachable and goes, and then Dispose is called. -/
def orderlyRun : List Action :=
  [.notify (.add web), .take 0, .run 0 1, .run 0 2, .run 0 3, .ping 0 true, .ping 0 true,
    .ping 0 true, .run 0 7, .run 0 8, .notify (.delete (.known deletedWeb)), .take 0, .run 0 10,
    .run 0 11, .run 0 12, .run 0 13, .run 0 14, .dispose, .quit 0]

theorem deletes_noticed_and_disposal_ends_orderlyRun :
    Along step (AtDelete Timed) started orderlyRun ∧
      Along step (AtDelete Settled) started orderlyRun ∧
      Along step DisposeGuarded started orderlyRun ∧
      Throughout step (fun s => ∀ o ∈ s.handled, s.recorded o .deleted = true) started
        orderlyRun ∧
      Throughout step (fun s => ∀ o ∈ s.handled, ProbesEnd o.uid s) started orderlyRun ∧
      Throughout step Disposes started orderlyRun ∧
      (exec step started orderlyRun).any (fun s =>
        decide (s.handled = [deletedWeb] ∧ s.disposal = .waiting)) = true := by
  have timed : Along step (AtDelete Timed) started orderlyRun := by decide +kernel
  have settled : Along step (AtDelete Settled) started orderlyRun := by decide +kernel
  have disposal : Along step DisposeGuarded started orderlyRun := by decide +kernel
  obtain ⟨recorded, ended, ends⟩ := deletes_noticed_and_disposal_ends orderlyRun
  exact ⟨timed, settled, disposal, recorded timed, ended settled, ends disposal,
    by decide +kernel⟩

/-- The service is being probed while its delete is handled. -/
def deletedWhileProbed : List Action :=
  [.notify (.add web), .take 0, .run 0 1, .run 0 2, .run 0 3,
    .notify (.delete (.known deletedWeb)), .take 1, .run 1 10, .run 1 11, .run 1 12, .run 1 13,
    .run 1 14]

/-- The service goes without a deletion timestamp. -/
def deletedUntimed : List Action :=
  [.notify (.add web), .take 0, .run 0 1, .run 0 2, .run 0 3, .ping 0 true, .ping 0 true,
    .ping 0 true, .run 0 7, .run 0 8, .notify (.delete (.known web)), .take 0, .run 0 10,
    .run 0 11]

/-- Dispose is called while the service is being probed. -/
def disposedWhileProbed : List Action :=
  [.notify (.add web), .take 0, .run 0 1, .run 0 2, .run 0 3, .dispose]

/-- The checker that worker 0 runs is the only one. -/
def probesOnly (s : System) : Bool :=
  s.workers 0 = .pinging web 0 0 && s.nextChecker == 1 && s.stopped.isEmpty &&
    s.pingCheckers.entries.isEmpty && decide (∀ j, j ≠ 0 → checkerOf (s.workers j) = none)

theorem astray_of_probesOnly (h : probesOnly s = true) : Astray 1 0 0 s := by
  simp only [probesOnly, Bool.and_eq_true, decide_eq_true_eq, beq_iff_eq, List.isEmpty_iff] at h
  obtain ⟨⟨⟨⟨hw, next⟩, stopped⟩, registered⟩, others⟩ := h
  refine ⟨⟨web, 0, hw, rfl⟩, ?_, ?_, ?_, ?_⟩
  · rw [next]
    exact Nat.zero_lt_one
  · rw [stopped]
    exact List.not_mem_nil
  · intro e he
    change e ∈ s.pingCheckers.entries at he
    rw [registered] at he
    cases he
  · intro j hj
    rw [others j hj]
    nofun

/-- A delete without a timestamp is not recorded, the delete of a service that
is being probed leaves its checker running for ever, and so does Dispose. -/
theorem deletion_unnoticed :
    ¬ Throughout step (fun s => ∀ o ∈ s.handled, s.recorded o .deleted = true) started
      deletedUntimed ∧
    ¬ Throughout step (fun s => ∀ o ∈ s.handled, ProbesEnd o.uid s) started
      deletedWhileProbed ∧
    ¬ Throughout step Disposes started disposedWhileProbed := by
  refine ⟨fun recorded => ?_, fun ended => ?_, fun disposes => ?_⟩
  · have final : (exec step started deletedUntimed).any (fun s =>
        decide (web ∈ s.handled) && !s.recorded web .deleted) = true := by decide +kernel
    obtain ⟨s, h, facts⟩ := (Option.any_eq_true _ _).mp final
    simp only [Bool.and_eq_true, decide_eq_true_eq, Bool.not_eq_true'] at facts
    exact absurd (recorded.last h web facts.1) (Bool.eq_false_iff.mp facts.2)
  · have final : (exec step started deletedWhileProbed).any (fun s =>
        decide (deletedWeb ∈ s.handled) && probesOnly s) = true := by decide +kernel
    obtain ⟨s, h, facts⟩ := (Option.any_eq_true _ _).mp final
    simp only [Bool.and_eq_true, decide_eq_true_eq] at facts
    exact (astray_of_probesOnly facts.2).not_probesEnd (ended.last h deletedWeb facts.1)
  · have final : (exec step started disposedWhileProbed).any (fun s =>
        decide (s.disposal = .waiting) && probesOnly s) = true := by decide +kernel
    obtain ⟨s, h, facts⟩ := (Option.any_eq_true _ _).mp final
    simp only [Bool.and_eq_true, decide_eq_true_eq] at facts
    refine (astray_of_probesOnly facts.2).not_disposes ?_ (disposes.last h)
    rw [facts.1]
    nofun

end ServiceProbes
