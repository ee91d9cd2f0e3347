import ClusterLoader.EnabledRuns
import ClusterLoader.Informers
import ClusterLoader.TransitionTimes
import Mathlib.Algebra.GroupWithZero.Nat

/-!
# The workers of ServiceCreationLatency

Notifications about services and ingresses go into a queue that ten workers
drain; the handlers of two notifications of one object may run side by side, or
in the reverse order. A handler is a sequence of accesses to shared state, each
a step of its own: the tables of times, the map of ping checkers, the lock. The
ping loop of a checker runs inside the handler that has created it.

Services and ingresses are handled alike; `Kind` is the service type, or
`ingress`. A phase of a kind is the pair of both, as in `phaseName`. An object's
`content` stands for what of its spec and status is only compared. The API
server's names are never invalid, so no key is ever rejected. What a ping
yields and the clock are given with the step. Dispose is called once.

`handled` and `gone` record what has happened: the delete notifications handled,
and the objects whose delete is notified.
-/

namespace ServiceCreation

open KeyedStore Informers TransitionTimes EnabledRuns

inductive Kind where
  | clusterIP
  | nodePort
  | loadBalancer
  | externalName
  | ingress
  deriving DecidableEq

inductive PhaseName where
  | creating
  | ipAssigning
  | reachability
  | deleting
  | deleted
  deriving DecidableEq

abbrev Phase := PhaseName × Kind

structure Object where
  key : String
  uid : Nat
  kind : Kind
  creationTimestamp : Int
  deletionTimestamp : Option Int
  /-- The status of the load balancer has an address. -/
  assigned : Bool
  content : Nat
  deriving DecidableEq

/-- Services and ingresses have informers of their own. -/
def Object.slot (o : Object) : Bool × String := (o.kind = .ingress, o.key)

/-- The measurement only works for these. -/
def measured : Kind → Bool
  | .clusterIP | .nodePort | .loadBalancer | .ingress => true
  | .externalName => false

/-- Kinds whose address is assigned after the creation. -/
def needsAddress : Kind → Bool
  | .loadBalancer | .ingress => true
  | .clusterIP | .nodePort | .externalName => false

/-- Equal spec and status. -/
def Object.same (old new : Object) : Bool :=
  old.kind = new.kind && old.assigned = new.assigned && old.content = new.content

/-- A worker at the step it takes next. -/
inductive Worker where
  | free
  | gone
  | handling (n : Notification Object)
  | getCreating (o : Object)
  | setCreating (o : Object)
  | getAssigned (o : Object)
  | setAssigned (o : Object)
  | pinging (o : Object) (checker success : Nat)
  | setReachable (o : Object) (checker : Nat)
  | register (o : Object) (checker : Nat)
  | locking (o : Object)
  | setDeleting (o : Object) (t : Int)
  | setDeleted (o : Object)
  | stopping (o : Object)
  deriving DecidableEq

/-- How far Dispose has got: it waits for the workers and then stops the
checkers that are registered. -/
inductive Disposal where
  | notCalled
  | waiting
  | done
  deriving DecidableEq

abbrev serviceCreationLatencyWorkers : Nat := 10

instance neZero_workers : NeZero serviceCreationLatencyWorkers := ⟨by decide⟩

abbrev WorkerId := Fin serviceCreationLatencyWorkers

structure System where
  isRunning : Bool
  queue : List (Notification Object)
  shutDown : Bool
  workers : WorkerId → Worker
  creationTimes : ObjectTransitionTimes Phase
  pingCheckers : Map String Nat
  /-- The checkers whose stop channel is closed. -/
  stopped : List Nat
  nextChecker : Nat
  lock : Option WorkerId
  disposal : Disposal
  view : Store Object.slot
  handled : List Object
  gone : List Nat

/-- The measurement after its start, before the first notification. -/
def started : System where
  isRunning := true
  queue := []
  shutDown := false
  workers := fun _ => .free
  creationTimes := .empty
  pingCheckers := Store.empty
  stopped := []
  nextChecker := 0
  lock := none
  disposal := .notCalled
  view := Store.empty
  handled := []
  gone := []

namespace System

def goto (s : System) (i : WorkerId) (w : Worker) : System :=
  { s with workers := Function.update s.workers i w }

def set (s : System) (o : Object) (phase : PhaseName) (t : Int) : System :=
  { s with creationTimes := s.creationTimes.set o.key (phase, o.kind) t }

def has (s : System) (key : String) (kind : Kind) (phase : PhaseName) : Bool :=
  (s.creationTimes.get key (phase, kind)).isSome

def recorded (s : System) (o : Object) (phase : PhaseName) : Bool := s.has o.key o.kind phase

/-- The delete notification of the object has been handled. -/
def finished (s : System) (o : Object) : System := { s with handled := o :: s.handled }

/-- A new checker begins its loop. -/
def beginPing (s : System) (i : WorkerId) (o : Object) : System :=
  { s with nextChecker := s.nextChecker + 1 }.goto i (.pinging o s.nextChecker 0)

/-- The part of `updateObject` and `updateIngressObject` from the check for an
address on. -/
def checkAddress (s : System) (i : WorkerId) (o : Object) : System :=
  if needsAddress o.kind then
    if o.assigned then s.goto i (.getAssigned o) else s.goto i .free
  else s.beginPing i o

def updateObject (s : System) (i : WorkerId) (o : Object) : System :=
  if measured o.kind then s.goto i (.getCreating o) else s.goto i .free

def deleteObject (s : System) (i : WorkerId) (o : Object) : System := s.goto i (.locking o)

/-- `handleObject` and `handleIngressObject` up to the call of the handler. -/
def handleObject (s : System) (i : WorkerId) : Notification Object → System
  | .add new => if s.isRunning then s.updateObject i new else s.goto i .free
  | .update old new =>
    if old.same new then s.goto i .free
    else if s.isRunning then s.updateObject i new
    else s.goto i .free
  | .delete old =>
    if s.isRunning then s.deleteObject i old.last
    else (s.goto i .free).finished old.last

/-- `Map.Add`: the checker registered before is stopped. -/
def registerChecker (s : System) (key : String) (checker : Nat) : System :=
  { s with
    stopped := (s.pingCheckers.get key).toList ++ s.stopped
    pingCheckers := s.pingCheckers.set key checker }

/-- `Map.DeleteAndStop`. -/
def deleteAndStop (s : System) (key : String) : System :=
  { s with
    stopped := (s.pingCheckers.get key).toList ++ s.stopped
    pingCheckers := Store.erase s.pingCheckers key }

end System

/-- The next step of a handler, other than a ping. -/
def run (s : System) (i : WorkerId) (now : Int) : Option System :=
  match s.workers i with
  | .free | .gone | .pinging _ _ _ => none
  | .handling n => some (s.handleObject i n)
  | .getCreating o =>
    some (if s.recorded o .creating then s.checkAddress i o else s.goto i (.setCreating o))
  | .setCreating o => some ((s.set o .creating o.creationTimestamp).checkAddress i o)
  | .getAssigned o =>
    some (if s.recorded o .ipAssigning then s.goto i .free else s.goto i (.setAssigned o))
  | .setAssigned o => some ((s.set o .ipAssigning now).beginPing i o)
  | .setReachable o checker => some ((s.set o .reachability now).goto i (.register o checker))
  | .register o checker =>
    if s.lock = none then some ((s.registerChecker o.key checker).goto i .free) else none
  | .locking o =>
    if s.lock = none then
      match o.deletionTimestamp with
      | none => some ((s.goto i .free).finished o)
      | some t => some ({ s with lock := some i }.goto i (.setDeleting o t))
    else none
  | .setDeleting o t => some ((s.set o .deleting t).goto i (.setDeleted o))
  | .setDeleted o => some ((s.set o .deleted now).goto i (.stopping o))
  | .stopping o =>
    some (({ s with lock := none }.deleteAndStop o.key).goto i .free |>.finished o)

def pingChecks : Nat := 3

/-- One round of the ping loop. -/
def ping (s : System) (i : WorkerId) (answered : Bool) : Option System :=
  match s.workers i with
  | .pinging o checker success =>
    some (
      if checker ∈ s.stopped then s.goto i (.register o checker)
      else if !answered then s.goto i (.pinging o checker 0)
      else if success + 1 = pingChecks then s.goto i (.setReachable o checker)
      else s.goto i (.pinging o checker (success + 1)))
  | _ => none

/-- A delete that the watch has seen carries the object's last state, which may
be newer than the one in the informer's store. -/
def Told (view : Store Object.slot) : Notification Object → Prop
  | .delete (.known o) => (view.lookup o.slot).map Object.uid = some o.uid
  | n => n.Deliverable view

instance (view : Store Object.slot) (n : Notification Object) : Decidable (Told view n) := by
  unfold Told
  split <;> infer_instance

/-- The state after a notification. -/
def System.notified (s : System) (n : Notification Object) : System :=
  { s with
    view := n.applyTo s.view
    queue := if s.shutDown then s.queue else s.queue ++ [n]
    gone := match n with
      | .delete o => o.last.uid :: s.gone
      | _ => s.gone }

/-- An informer tells of a change; after the shutdown the queue drops it. An
object whose delete was notified does not come back. -/
def notify (s : System) (n : Notification Object) : Option System :=
  if Told s.view n ∧ ∀ o, n.stored = some o → o.uid ∉ s.gone then some (s.notified n) else none

/-- `Get` keeps returning what is queued after the shutdown. -/
def take (s : System) (i : WorkerId) : Option System :=
  match s.workers i, s.queue with
  | .free, n :: rest => some ({ s with queue := rest }.goto i (.handling n))
  | _, _ => none

def quit (s : System) (i : WorkerId) : Option System :=
  match s.workers i, s.queue with
  | .free, [] => if s.shutDown then some (s.goto i .gone) else none
  | _, _ => none

/-- Dispose up to its wait for the workers. -/
def dispose (s : System) : Option System :=
  if s.disposal = .notCalled then
    some { s with isRunning := false, shutDown := true, disposal := .waiting }
  else none

/-- The rest of Dispose. -/
def disposeCheckers (s : System) : Option System :=
  if s.disposal = .waiting ∧ s.lock = none ∧ ∀ i, s.workers i = .gone then
    some { s with stopped := s.pingCheckers.entries.map Prod.snd ++ s.stopped, disposal := .done }
  else none

inductive Action where
  | notify (n : Notification Object)
  | take (i : WorkerId)
  | run (i : WorkerId) (now : Int)
  | ping (i : WorkerId) (answered : Bool)
  | quit (i : WorkerId)
  | dispose
  | disposeCheckers

def step (s : System) : Action → Option System
  | .notify n => notify s n
  | .take i => take s i
  | .run i now => run s i now
  | .ping i answered => ping s i answered
  | .quit i => quit s i
  | .dispose => dispose s
  | .disposeCheckers => disposeCheckers s

/-! ## What each step does -/

/-- What `handleObject` makes of a notification. -/
inductive HandleEffect (s : System) (i : WorkerId) : Notification Object → System → Prop where
  | ignore (n : Notification Object) (h : n.stored.isSome = true) :
    HandleEffect s i n (s.goto i .free)
  | update (n : Notification Object) (o : Object) (h : n.stored = some o)
    (running : s.isRunning = true) (kind : measured o.kind = true) :
    HandleEffect s i n (s.goto i (.getCreating o))
  | delete (o : Deleted Object) (running : s.isRunning = true) :
    HandleEffect s i (.delete o) (s.goto i (.locking o.last))
  | drop (o : Deleted Object) (resting : s.isRunning = false) :
    HandleEffect s i (.delete o) ((s.goto i .free).finished o.last)

/-- What follows the check for an address. -/
inductive AddressEffect (s : System) (i : WorkerId) (o : Object) : System → Prop where
  | missing : AddressEffect s i o (s.goto i .free)
  | assigned : AddressEffect s i o (s.goto i (.getAssigned o))
  | ping : AddressEffect s i o (s.beginPing i o)

/-- The steps of a handler, other than pings. -/
inductive RunEffect (s : System) (i : WorkerId) (now : Int) : Worker → System → Prop where
  | handle (n : Notification Object) : RunEffect s i now (.handling n) (s.handleObject i n)
  | known (o : Object) (h : s.recorded o .creating = true) :
    RunEffect s i now (.getCreating o) (s.checkAddress i o)
  | unknown (o : Object) (h : s.recorded o .creating = false) :
    RunEffect s i now (.getCreating o) (s.goto i (.setCreating o))
  | create (o : Object) : RunEffect s i now (.setCreating o)
    ((s.set o .creating o.creationTimestamp).checkAddress i o)
  | wasAssigned (o : Object) (h : s.recorded o .ipAssigning = true) :
    RunEffect s i now (.getAssigned o) (s.goto i .free)
  | unassigned (o : Object) (h : s.recorded o .ipAssigning = false) :
    RunEffect s i now (.getAssigned o) (s.goto i (.setAssigned o))
  | assign (o : Object) : RunEffect s i now (.setAssigned o)
    ((s.set o .ipAssigning now).beginPing i o)
  | reach (o : Object) (checker : Nat) : RunEffect s i now (.setReachable o checker)
    ((s.set o .reachability now).goto i (.register o checker))
  | register (o : Object) (checker : Nat) (unlocked : s.lock = none) :
    RunEffect s i now (.register o checker) ((s.registerChecker o.key checker).goto i .free)
  | untimed (o : Object) (unlocked : s.lock = none) (h : o.deletionTimestamp = none) :
    RunEffect s i now (.locking o) ((s.goto i .free).finished o)
  | lock (o : Object) (t : Int) (unlocked : s.lock = none) (h : o.deletionTimestamp = some t) :
    RunEffect s i now (.locking o) ({ s with lock := some i }.goto i (.setDeleting o t))
  | setDeleting (o : Object) (t : Int) : RunEffect s i now (.setDeleting o t)
    ((s.set o .deleting t).goto i (.setDeleted o))
  | setDeleted (o : Object) : RunEffect s i now (.setDeleted o)
    ((s.set o .deleted now).goto i (.stopping o))
  | stop (o : Object) : RunEffect s i now (.stopping o)
    ((({ s with lock := none }.deleteAndStop o.key).goto i .free).finished o)

/-- A round of the ping loop. -/
inductive PingEffect (s : System) (i : WorkerId) (answered : Bool) :
    Worker → System → Prop where
  | stopped (o : Object) (checker success : Nat) (h : checker ∈ s.stopped) :
    PingEffect s i answered (.pinging o checker success) (s.goto i (.register o checker))
  | failed (o : Object) (checker success : Nat) (h : checker ∉ s.stopped)
    (silent : answered = false) :
    PingEffect s i answered (.pinging o checker success) (s.goto i (.pinging o checker 0))
  | reached (o : Object) (checker success : Nat) (h : checker ∉ s.stopped)
    (heard : answered = true) (enough : success + 1 = pingChecks) :
    PingEffect s i answered (.pinging o checker success) (s.goto i (.setReachable o checker))
  | counted (o : Object) (checker success : Nat) (h : checker ∉ s.stopped)
    (heard : answered = true) (more : success + 1 ≠ pingChecks) :
    PingEffect s i answered (.pinging o checker success)
      (s.goto i (.pinging o checker (success + 1)))

inductive Effect (s : System) : Action → System → Prop where
  | notify (n : Notification Object) (told : Told s.view n)
    (alive : ∀ o, n.stored = some o → o.uid ∉ s.gone) : Effect s (.notify n) (s.notified n)
  | take (i : WorkerId) (n : Notification Object) (rest : List (Notification Object))
    (free : s.workers i = .free) (h : s.queue = n :: rest) :
    Effect s (.take i) ({ s with queue := rest }.goto i (.handling n))
  | run (i : WorkerId) (now : Int) (t : System) (effect : RunEffect s i now (s.workers i) t) :
    Effect s (.run i now) t
  | ping (i : WorkerId) (answered : Bool) (t : System)
    (effect : PingEffect s i answered (s.workers i) t) : Effect s (.ping i answered) t
  | quit (i : WorkerId) (free : s.workers i = .free) (drained : s.queue = [])
    (shutDown : s.shutDown = true) : Effect s (.quit i) (s.goto i .gone)
  | dispose (h : s.disposal = .notCalled) :
    Effect s .dispose { s with isRunning := false, shutDown := true, disposal := .waiting }
  | disposeCheckers (h : s.disposal = .waiting) (unlocked : s.lock = none)
    (gone : ∀ i, s.workers i = .gone) :
    Effect s .disposeCheckers
      { s with stopped := s.pingCheckers.entries.map Prod.snd ++ s.stopped, disposal := .done }

theorem checkAddress_effect (s : System) (i : WorkerId) (o : Object) :
    AddressEffect s i o (s.checkAddress i o) := by
  unfold System.checkAddress
  split
  · split
    · exact .assigned
    · exact .missing
  · exact .ping

theorem updateObject_effect (s : System) (i : WorkerId) {n : Notification Object} {o : Object}
    (h : n.stored = some o) (running : s.isRunning = true) :
    HandleEffect s i n (s.updateObject i o) := by
  unfold System.updateObject
  split
  · rename_i kind
    exact .update n o h running kind
  · exact .ignore n (by rw [h]; rfl)

theorem handleObject_effect (s : System) (i : WorkerId) (n : Notification Object) :
    HandleEffect s i n (s.handleObject i n) := by
  cases n with
  | add new =>
    rw [System.handleObject]
    split
    · rename_i running
      exact updateObject_effect s i rfl running
    · exact .ignore _ rfl
  | update old new =>
    rw [System.handleObject]
    split
    · exact .ignore _ rfl
    · split
      · rename_i running
        exact updateObject_effect s i rfl running
      · exact .ignore _ rfl
  | delete old =>
    rw [System.handleObject]
    split
    · rename_i running
      exact .delete old running
    · rename_i resting
      exact .drop old (Bool.eq_false_iff.mpr resting)

variable {s t : System}

variable {i : WorkerId}

theorem runEffect_of_run {now : Int} (h : run s i now = some t) :
    RunEffect s i now (s.workers i) t := by
  unfold run at h
  cases hw : s.workers i with
  | free | gone | pinging => simp [hw] at h
  | handling n =>
    simp only [hw, Option.some.injEq] at h
    exact h ▸ .handle n
  | getCreating o =>
    simp only [hw, Option.some.injEq] at h
    split at h
    · rename_i found
      exact h ▸ .known o found
    · rename_i missing
      exact h ▸ .unknown o (Bool.eq_false_iff.mpr missing)
  | setCreating o =>
    simp only [hw, Option.some.injEq] at h
    exact h ▸ .create o
  | getAssigned o =>
    simp only [hw, Option.some.injEq] at h
    split at h
    · rename_i found
      exact h ▸ .wasAssigned o found
    · rename_i missing
      exact h ▸ .unassigned o (Bool.eq_false_iff.mpr missing)
  | setAssigned o =>
    simp only [hw, Option.some.injEq] at h
    exact h ▸ .assign o
  | setReachable o checker =>
    simp only [hw, Option.some.injEq] at h
    exact h ▸ .reach o checker
  | register o checker =>
    simp only [hw] at h
    obtain ⟨unlocked, h⟩ := Option.ite_none_right_eq_some.mp h
    exact Option.some.inj h ▸ .register o checker unlocked
  | locking o =>
    simp only [hw] at h
    obtain ⟨unlocked, h⟩ := Option.ite_none_right_eq_some.mp h
    cases htime : o.deletionTimestamp with
    | none =>
      simp only [htime, Option.some.injEq] at h
      exact h ▸ .untimed o unlocked htime
    | some time =>
      simp only [htime, Option.some.injEq] at h
      exact h ▸ .lock o time unlocked htime
  | setDeleting o time =>
    simp only [hw, Option.some.injEq] at h
    exact h ▸ .setDeleting o time
  | setDeleted o =>
    simp only [hw, Option.some.injEq] at h
    exact h ▸ .setDeleted o
  | stopping o =>
    simp only [hw, Option.some.injEq] at h
    exact h ▸ .stop o

theorem pingEffect_of_ping {answered : Bool} (h : ping s i answered = some t) :
    PingEffect s i answered (s.workers i) t := by
  unfold ping at h
  cases hw : s.workers i with
  | pinging o checker success =>
    simp only [hw, Option.some.injEq] at h
    split at h
    · rename_i stopped
      exact h ▸ .stopped o checker success stopped
    · rename_i open'
      split at h
      · rename_i silent
        exact h ▸ .failed o checker success open' (by simpa using silent)
      · rename_i heard
        split at h
        · rename_i enough
          exact h ▸ .reached o checker success open' (by simpa using heard) enough
        · rename_i more
          exact h ▸ .counted o checker success open' (by simpa using heard) more
  | _ => simp [hw] at h

variable {a : Action}

theorem effect_of_step (h : step s a = some t) : Effect s a t := by
  cases a with
  | notify n =>
    obtain ⟨⟨told, alive⟩, h⟩ := Option.ite_none_right_eq_some.mp h
    exact Option.some.inj h ▸ .notify n told alive
  | take i =>
    change take s i = some t at h
    unfold take at h
    split at h
    · rename_i n rest free hqueue
      exact Option.some.inj h ▸ .take i n rest free hqueue
    · cases h
  | run i now => exact .run i now t (runEffect_of_run h)
  | ping i answered => exact .ping i answered t (pingEffect_of_ping h)
  | quit i =>
    change quit s i = some t at h
    unfold quit at h
    split at h
    · rename_i free drained
      obtain ⟨shutDown, h⟩ := Option.ite_none_right_eq_some.mp h
      exact Option.some.inj h ▸ .quit i free drained shutDown
    · cases h
  | dispose =>
    obtain ⟨notCalled, h⟩ := Option.ite_none_right_eq_some.mp h
    exact Option.some.inj h ▸ .dispose notCalled
  | disposeCheckers =>
    obtain ⟨⟨waiting, unlocked, gone⟩, h⟩ := Option.ite_none_right_eq_some.mp h
    exact Option.some.inj h ▸ .disposeCheckers waiting unlocked gone

/-! ## What is written into the tables -/

/-- What a worker writes at its next step. -/
def Worker.Writes : Worker → Object → PhaseName → Prop
  | .setCreating o, o', .creating => o' = o
  | .setAssigned o, o', .ipAssigning => o' = o
  | .setReachable o _, o', .reachability => o' = o
  | .setDeleting o _, o', .deleting => o' = o
  | .setDeleted o, o', .deleted => o' = o
  | _, _, _ => False

section Frames
variable (s : System) (i : WorkerId) (o : Object)

@[simp] theorem goto_workers (w : Worker) (j : WorkerId) :
    (s.goto i w).workers j = if j = i then w else s.workers j := by
  simp [System.goto, Function.update_apply]

@[simp] theorem checkAddress_creationTimes :
    (s.checkAddress i o).creationTimes = s.creationTimes := by
  have effect := checkAddress_effect s i o
  generalize s.checkAddress i o = t at effect
  cases effect <;> rfl

@[simp] theorem handleObject_creationTimes (n : Notification Object) :
    (s.handleObject i n).creationTimes = s.creationTimes := by
  have effect := handleObject_effect s i n
  generalize s.handleObject i n = t at effect
  cases effect <;> rfl

end Frames

/-- The table is left alone, or the worker at work has written one entry. -/
theorem creationTimes_of_effect (effect : Effect s a t) : t.creationTimes = s.creationTimes ∨
      ∃ i now o phase time, a = .run i now ∧ (s.workers i).Writes o phase ∧
        t.creationTimes = s.creationTimes.set o.key (phase, o.kind) time := by
  cases effect with
  | notify | take => exact .inl rfl
  | ping i answered t effect =>
    generalize s.workers i = w at effect
    cases effect <;> exact .inl rfl
  | quit | dispose | disposeCheckers => exact .inl rfl
  | run i now t effect =>
    generalize hw : s.workers i = w at effect
    cases effect with
    | handle n => exact .inl (handleObject_creationTimes s i n)
    | known o h => exact .inl (checkAddress_creationTimes s i o)
    | create o =>
      exact .inr ⟨i, now, o, .creating, o.creationTimestamp, rfl, hw ▸ rfl,
        checkAddress_creationTimes _ i o⟩
    | assign o => exact .inr ⟨i, now, o, .ipAssigning, now, rfl, hw ▸ rfl, rfl⟩
    | reach o checker => exact .inr ⟨i, now, o, .reachability, now, rfl, hw ▸ rfl, rfl⟩
    | setDeleting o time => exact .inr ⟨i, now, o, .deleting, time, rfl, hw ▸ rfl, rfl⟩
    | setDeleted o => exact .inr ⟨i, now, o, .deleted, now, rfl, hw ▸ rfl, rfl⟩
    | _ => exact .inl rfl

/-- What is recorded stays recorded. -/
theorem has_of_effect (effect : Effect s a t) {key : String} {kind : Kind}
    {phase : PhaseName} (h : s.has key kind phase = true) : t.has key kind phase = true := by
  rcases creationTimes_of_effect effect with same | ⟨i, now, o', phase', time, _, _, written⟩
  · rw [System.has, same]
    exact h
  · rw [System.has, written]
    exact s.creationTimes.isSome_get_set h _ _ _

/-- What is recorded after a step was so before, or a worker has written it. -/
theorem has_before (effect : Effect s a t) {key : String} {kind : Kind}
    {phase : PhaseName} (h : t.has key kind phase = true) :
    s.has key kind phase = true ∨ ∃ i now o, a = .run i now ∧
      (s.workers i).Writes o phase ∧ o.key = key ∧ o.kind = kind := by
  rcases creationTimes_of_effect effect with same | ⟨i, now, o, phase', time, ha, writes, written⟩
  · rw [System.has, same] at h
    exact .inl h
  · rw [System.has, written, ObjectTransitionTimes.get_set] at h
    by_cases entry : key = o.key ∧ (phase, kind) = (phase', o.kind)
    · obtain ⟨rfl, hphase⟩ := entry
      obtain ⟨rfl, rfl⟩ := Prod.mk.inj hphase
      exact .inr ⟨i, now, o, ha, writes, rfl, rfl⟩
    · rw [if_neg entry] at h
      exact .inl h

/-! ## Where each worker goes -/

/-- Where a worker goes from the check for an address. -/
inductive Continues (s : System) (o : Object) : Worker → Prop where
  | missing : Continues s o .free
  | assigned : Continues s o (.getAssigned o)
  | ping : Continues s o (.pinging o s.nextChecker 0)

/-- The place of one worker before and after a step that it takes. -/
inductive Moves (s t : System) : Worker → Worker → Prop where
  | take (n : Notification Object) (h : n ∈ s.queue) : Moves s t .free (.handling n)
  | quit : Moves s t .free .gone
  | ignore (n : Notification Object) : Moves s t (.handling n) .free
  | update (n : Notification Object) (o : Object) (h : n.stored = some o)
    (running : s.isRunning = true) (kind : measured o.kind = true) :
    Moves s t (.handling n) (.getCreating o)
  | delete (o : Deleted Object) (running : s.isRunning = true) :
    Moves s t (.handling (.delete o)) (.locking o.last)
  | known (o : Object) (w : Worker) (h : t.recorded o .creating = true)
    (next : Continues s o w) : Moves s t (.getCreating o) w
  | unknown (o : Object) : Moves s t (.getCreating o) (.setCreating o)
  | create (o : Object) (w : Worker) (h : t.recorded o .creating = true)
    (next : Continues s o w) : Moves s t (.setCreating o) w
  | wasAssigned (o : Object) : Moves s t (.getAssigned o) .free
  | unassigned (o : Object) : Moves s t (.getAssigned o) (.setAssigned o)
  | assign (o : Object) : Moves s t (.setAssigned o) (.pinging o s.nextChecker 0)
  | stopped (o : Object) (checker success : Nat) (h : checker ∈ s.stopped) :
    Moves s t (.pinging o checker success) (.register o checker)
  | again (o : Object) (checker success success' : Nat) :
    Moves s t (.pinging o checker success) (.pinging o checker success')
  | reached (o : Object) (checker success : Nat) :
    Moves s t (.pinging o checker success) (.setReachable o checker)
  | reach (o : Object) (checker : Nat) : Moves s t (.setReachable o checker) (.register o checker)
  | register (o : Object) (checker : Nat) : Moves s t (.register o checker) .free
  | untimed (o : Object) (h : o.deletionTimestamp = none) : Moves s t (.locking o) .free
  | lock (o : Object) (time : Int) : Moves s t (.locking o) (.setDeleting o time)
  | setDeleting (o : Object) (time : Int) : Moves s t (.setDeleting o time) (.setDeleted o)
  | setDeleted (o : Object) (h : t.recorded o .deleted = true) :
    Moves s t (.setDeleted o) (.stopping o)
  | stop (o : Object) (unlocked : t.lock = none) : Moves s t (.stopping o) .free

/-- One worker takes a step of its own and the others stay where they are. -/
structure Moved (s t : System) (i : WorkerId) : Prop where
  moves : Moves s t (s.workers i) (t.workers i)
  others : ∀ j, j ≠ i → t.workers j = s.workers j

theorem Moved.of_update {w w' : Worker} (h : t.workers = Function.update s.workers i w')
    (hw : s.workers i = w) (moves : Moves s t w w') : Moved s t i where
  moves := by
    rw [h, Function.update_self, hw]
    exact moves
  others := fun j hj => by rw [h, Function.update_of_ne hj]

theorem recorded_set_self (s : System) (o : Object) (phase : PhaseName) (time : Int) :
    (s.set o phase time).recorded o phase = true := by
  rw [System.recorded, System.has, System.set, ObjectTransitionTimes.get_set, if_pos ⟨rfl, rfl⟩]
  rfl

theorem moved_of_handle {n : Notification Object} (hw : s.workers i = .handling n)
    (effect : HandleEffect s i n t) : Moved s t i := by
  cases effect with
  | ignore n h => exact .of_update rfl hw (.ignore n)
  | update n o h running kind => exact .of_update rfl hw (.update n o h running kind)
  | delete o running => exact .of_update rfl hw (.delete o running)
  | drop o resting => exact .of_update rfl hw (.ignore (.delete o))

/-- The check for an address, once the creation is recorded. -/
theorem moved_of_address (s' : System) {o : Object} {w : Worker} (hw : s.workers i = w)
    (kept : s'.workers = s.workers) (fresh : s'.nextChecker = s.nextChecker)
    (effect : AddressEffect s' i o t) (moves : ∀ w', Continues s o w' → Moves s t w w') :
    Moved s t i := by
  cases effect with
  | missing => exact .of_update (congrArg (Function.update · i _) kept) hw (moves _ .missing)
  | assigned => exact .of_update (congrArg (Function.update · i _) kept) hw (moves _ .assigned)
  | ping =>
    refine .of_update (congrArg (Function.update · i _) kept) hw ?_
    rw [fresh]
    exact moves _ .ping

theorem moved_of_run {now : Int} (effect : RunEffect s i now (s.workers i) t) :
    Moved s t i := by
  generalize hw : s.workers i = w at effect
  cases effect with
  | handle n => exact moved_of_handle hw (handleObject_effect s i n)
  | known o h =>
    have stays : (s.checkAddress i o).recorded o .creating = true := by
      rw [System.recorded, System.has, checkAddress_creationTimes]
      exact h
    exact moved_of_address s hw rfl rfl (checkAddress_effect s i o) fun w' => .known o w' stays
  | unknown o h => exact .of_update rfl hw (.unknown o)
  | create o =>
    have stays : ((s.set o .creating o.creationTimestamp).checkAddress i o).recorded o
        .creating = true := by
      rw [System.recorded, System.has, checkAddress_creationTimes]
      exact recorded_set_self s o .creating o.creationTimestamp
    exact moved_of_address (s.set o .creating o.creationTimestamp) hw rfl rfl
      (checkAddress_effect _ i o) fun w' => .create o w' stays
  | wasAssigned o h => exact .of_update rfl hw (.wasAssigned o)
  | unassigned o h => exact .of_update rfl hw (.unassigned o)
  | assign o => exact .of_update rfl hw (.assign o)
  | reach o checker => exact .of_update rfl hw (.reach o checker)
  | register o checker unlocked => exact .of_update rfl hw (.register o checker)
  | untimed o unlocked h => exact .of_update rfl hw (.untimed o h)
  | lock o time unlocked h => exact .of_update rfl hw (.lock o time)
  | setDeleting o time => exact .of_update rfl hw (.setDeleting o time)
  | setDeleted o =>
    have stays := recorded_set_self s o .deleted now
    exact .of_update rfl hw (.setDeleted o stays)
  | stop o => exact .of_update rfl hw (.stop o rfl)

theorem moved_of_ping {answered : Bool} (effect : PingEffect s i answered (s.workers i) t) :
    Moved s t i := by
  generalize hw : s.workers i = w at effect
  cases effect with
  | stopped o checker success h => exact .of_update rfl hw (.stopped o checker success h)
  | failed o checker success h silent => exact .of_update rfl hw (.again o checker success 0)
  | reached o checker success h heard enough =>
    exact .of_update rfl hw (.reached o checker success)
  | counted o checker success h heard more =>
    exact .of_update rfl hw (.again o checker success (success + 1))

theorem moved_of_effect (effect : Effect s a t) : t.workers = s.workers ∨ ∃ i, Moved s t i := by
  cases effect with
  | notify | dispose | disposeCheckers => exact .inl rfl
  | take i n rest free h =>
    exact .inr ⟨i, .of_update rfl free (.take n (h ▸ List.mem_cons_self))⟩
  | quit i free drained shutDown => exact .inr ⟨i, .of_update rfl free .quit⟩
  | ping i answered t effect => exact .inr ⟨i, moved_of_ping effect⟩
  | run i now t effect => exact .inr ⟨i, moved_of_run effect⟩

/-- Each worker stays where it is or takes one of its steps. -/
theorem moves_of_effect (effect : Effect s a t) (j : WorkerId) :
    t.workers j = s.workers j ∨ Moves s t (s.workers j) (t.workers j) := by
  rcases moved_of_effect effect with same | ⟨i, moved⟩
  · exact .inl (congrFun same j)
  · by_cases hj : j = i
    · subst hj
      exact .inr moved.moves
    · exact .inl (moved.others j hj)

end ServiceCreation
