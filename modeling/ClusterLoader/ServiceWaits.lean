import ClusterLoader.ServiceCreation

/-!
# Waiting for services to become ready and to be deleted

Both waits compare, for each kind, two counts: the objects recorded as created
and those recorded as reachable or deleted. Equal counts only say something
about the same objects if the second lie among the first. For the reachable ones
this always holds; for the deleted ones it depends on the order in which the
workers get to the notifications of an object.

The waits are read in two ways. `polled` looks at one state; a poll as the code
runs it reads one count after the other while the workers go on, and what it
says is about the objects recorded as created when their count was read.
-/

namespace ServiceWaits

open TransitionTimes EnabledRuns ServiceCreation

inductive Wait where
  | ready
  | deletion
  deriving DecidableEq

/-- The phase whose count is compared with that of `creating`. -/
def Wait.goal : Wait → PhaseName
  | ready => .reachability
  | deletion => .deleted

def polledKinds : List Kind := [.clusterIP, .nodePort, .loadBalancer, .ingress]

def polled (w : Wait) (times : ObjectTransitionTimes Phase) : Bool :=
  polledKinds.all fun kind => times.count (w.goal, kind) == times.count (.creating, kind)

def waitForDeletion (s : System) : Bool := polled .deletion s.creationTimes

/-- A poll between two of its reads: the kinds left, the count read for the
first of them, and what it has seen as created. -/
structure Poll where
  wait : Wait
  kinds : List Kind
  counted : Option Nat
  seen : List (Kind × String)

structure Waiting where
  system : System
  poll : Option Poll
  /-- The last poll to come out true. -/
  succeeded : Option (Wait × List (Kind × String))

inductive WaitAction where
  | system (a : Action)
  | poll (w : Wait)
  | read

def read (w : Waiting) (p : Poll) : Waiting :=
  match p.kinds, p.counted with
  | [], _ => { w with poll := none, succeeded := some (p.wait, p.seen) }
  | kind :: _, none =>
    let n := w.system.creationTimes.count (p.wait.goal, kind)
    { w with poll := some { p with counted := some n } }
  | kind :: rest, some n =>
    let created := w.system.creationTimes.keysWith (.creating, kind)
    let next : Poll :=
      { p with kinds := rest, counted := none, seen := created.map (kind, ·) ++ p.seen }
    if w.system.creationTimes.count (.creating, kind) = n then { w with poll := some next }
    else { w with poll := none }

def waitStep (w : Waiting) : WaitAction → Option Waiting
  | .system a => (step w.system a).map fun s => { w with system := s }
  | .poll v =>
    match w.poll with
    | none => some { w with poll := some ⟨v, polledKinds, none, []⟩ }
    | some _ => none
  | .read => w.poll.map (read w)

def waiting : Waiting := ⟨started, none, none⟩

/-- Where the wait is over, all that is recorded as created has come to its goal. -/
structure Sound (v : Wait) (w : Waiting) : Prop where
  condition : polled v w.system.creationTimes = true → ∀ key kind,
    w.system.has key kind .creating = true → w.system.has key kind v.goal = true
  poll : ∀ seen, w.succeeded = some (v, seen) → ∀ e ∈ seen,
    w.system.has e.2 e.1 v.goal = true

/-- A deletion is only recorded for an object recorded as created. -/
def Guarded (w : Waiting) : WaitAction → Prop
  | .system (.run i _) =>
    match w.system.workers i with
    | .setDeleted o => measured o.kind = true → w.system.recorded o .creating = true
    | _ => True
  | _ => True

instance (w : Waiting) (a : WaitAction) : Decidable (Guarded w a) := by
  unfold Guarded
  split
  · split <;> infer_instance
  · infer_instance

/-! ## Reachable objects lie among the created ones -/

/-- The object of a handler that is about to see to its `creating` entry. -/
def starting : Worker → Option Object
  | .getCreating o | .setCreating o => some o
  | _ => none

/-- The object of a handler that has seen to its `creating` entry. -/
def past : Worker → Option Object
  | .getAssigned o | .setAssigned o | .pinging o _ _ | .setReachable o _ | .register o _ => some o
  | _ => none

variable {s t : System}
variable {o : Object}

theorem starting_of_moves {w w' : Worker} (moves : Moves s t w w')
    (h : starting w' = some o) : starting w = some o ∨ measured o.kind = true := by
  cases moves with
  | update n o' stored running kind =>
    cases h
    exact .inr kind
  | unknown o' => exact .inl h
  | known _ _ _ next | create _ _ _ next => cases next <;> cases h
  | _ => cases h

theorem past_of_continues {o' : Object} {w : Worker} (next : Continues s o w)
    (h : past w = some o') : o' = o := by
  cases next with
  | missing => cases h
  | assigned | ping => exact (Option.some.inj h).symm

theorem past_of_moves {w w' : Worker} (moves : Moves s t w w')
    (h : past w' = some o) : past w = some o ∨ t.recorded o .creating = true := by
  cases moves with
  | known _ _ known next | create _ _ known next => exact .inr (past_of_continues next h ▸ known)
  | unassigned | assign | stopped | again | reached | reach => exact .inl h
  | _ => cases h

theorem starting_of_writes {w : Worker} (h : w.Writes o .creating) : starting w = some o := by
  cases w with
  | setCreating o' => exact congrArg some (Eq.symm h)
  | _ => cases h

theorem past_of_writes {w : Worker} (h : w.Writes o .reachability) : past w = some o := by
  cases w with
  | setReachable o' checker => exact congrArg some (Eq.symm h)
  | _ => cases h

/-- Objects recorded as created are of the kinds measured, and those recorded as
reachable are recorded as created; so is the object of every handler that has
come that far. -/
structure Created (s : System) : Prop where
  kinds : ∀ key kind, s.has key kind .creating = true → measured kind = true
  reachable : ∀ key kind, s.has key kind .reachability = true → s.has key kind .creating = true
  starting : ∀ i o, starting (s.workers i) = some o → measured o.kind = true
  past : ∀ i o, past (s.workers i) = some o → s.recorded o .creating = true

theorem Created.start : Created started where
  kinds := nofun
  reachable := nofun
  starting := nofun
  past := nofun

variable {a : Action}

theorem Created.step (created : Created s) (effect : Effect s a t) : Created t where
  kinds := by
    intro key kind h
    rcases has_before effect h with h | ⟨i, now, o, rfl, writes, rfl, rfl⟩
    · exact created.kinds key kind h
    · exact created.starting i o (starting_of_writes writes)
  reachable := by
    intro key kind h
    refine has_of_effect effect ?_
    rcases has_before effect h with h | ⟨i, now, o, rfl, writes, rfl, rfl⟩
    · exact created.reachable key kind h
    · exact created.past i o (past_of_writes writes)
  starting := by
    intro j o h
    rcases moves_of_effect effect j with same | moves
    · exact created.starting j o (same ▸ h)
    · rcases starting_of_moves moves h with h | kind
      · exact created.starting j o h
      · exact kind
  past := by
    intro j o h
    rcases moves_of_effect effect j with same | moves
    · exact has_of_effect effect (created.past j o (same ▸ h))
    · rcases past_of_moves moves h with h | known
      · exact has_of_effect effect (created.past j o h)
      · exact known

/-! ## What the counts say -/

/-- Whatever is recorded at the goal of the wait is recorded as created. -/
def Among (v : Wait) (s : System) : Prop :=
  ∀ key kind, measured kind = true → s.has key kind v.goal = true →
    s.has key kind .creating = true

theorem mem_polledKinds {kind : Kind} : kind ∈ polledKinds ↔ measured kind = true := by
  cases kind <;> decide

variable {v : Wait}

theorem Among.has_goal {kind : Kind} (among : Among v s) (hkind : measured kind = true)
    (counts : s.creationTimes.count (.creating, kind) ≤ s.creationTimes.count (v.goal, kind))
    {key : String} (h : s.has key kind .creating = true) : s.has key kind v.goal = true := by
  have within : ∀ key, s.has key kind v.goal = true →
      key ∈ s.creationTimes.keysWith (.creating, kind) := fun key hgoal =>
    (s.creationTimes.mem_keysWith).mpr (among key kind hkind hgoal)
  rw [ObjectTransitionTimes.count_eq_length] at counts
  exact s.creationTimes.isSome_get_of_length_le within counts
    ((s.creationTimes.mem_keysWith).mpr h)

theorem Among.polled (among : Among v s) (created : Created s)
    (h : polled v s.creationTimes = true) (key : String) (kind : Kind)
    (hkey : s.has key kind .creating = true) : s.has key kind v.goal = true := by
  have hkind := created.kinds key kind hkey
  have counts := List.all_eq_true.mp h kind (mem_polledKinds.mpr hkind)
  exact among.has_goal hkind (Nat.le_of_eq (beq_iff_eq.mp counts).symm) hkey

theorem Among.ready (created : Created s) : Among .ready s :=
  fun key kind _ h => created.reachable key kind h

/-- A poll under way has seen nothing that is not at the goal, and has not
counted more there than there is. -/
structure Reading (v : Wait) (s : System) (p : Poll) : Prop where
  kinds : ∀ kind ∈ p.kinds, measured kind = true
  counted : ∀ kind rest n, p.kinds = kind :: rest → p.counted = some n →
    n ≤ s.creationTimes.count (v.goal, kind)
  seen : ∀ e ∈ p.seen, s.has e.2 e.1 v.goal = true

structure Tracked (v : Wait) (w : Waiting) : Prop where
  created : Created w.system
  among : Among v w.system
  reading : ∀ p, w.poll = some p → p.wait = v → Reading v w.system p
  succeeded : ∀ seen, w.succeeded = some (v, seen) → ∀ e ∈ seen,
    w.system.has e.2 e.1 v.goal = true

variable {w : Waiting}

theorem Tracked.sound (tracked : Tracked v w) : Sound v w where
  condition := tracked.among.polled tracked.created
  poll := tracked.succeeded

theorem Reading.system {p : Poll} (reading : Reading v s p)
    (effect : Effect s a t) : Reading v t p :=
  { reading with
    counted := fun kind rest n hkinds hcounted =>
      (reading.counted kind rest n hkinds hcounted).trans
        (ObjectTransitionTimes.count_le_count fun _ h => has_of_effect effect h)
    seen := fun e he => has_of_effect effect (reading.seen e he) }

theorem Tracked.system (tracked : Tracked v w)
    (effect : Effect w.system a t) (among : Among v t) : Tracked v { w with system := t } where
  created := tracked.created.step effect
  among := among
  reading := fun p hp hv => (tracked.reading p hp hv).system effect
  succeeded := fun seen h e he => has_of_effect effect (tracked.succeeded seen h e he)

theorem Tracked.withPoll (tracked : Tracked v w) (q : Option Poll)
    (reading : ∀ p, q = some p → p.wait = v → Reading v w.system p) :
    Tracked v { w with poll := q } :=
  { tracked with reading := reading }

theorem Tracked.poll (tracked : Tracked v w) (v' : Wait) :
    Tracked v { w with poll := some ⟨v', polledKinds, none, []⟩ } := by
  refine tracked.withPoll _ fun p hp _ => ?_
  cases hp
  exact ⟨fun kind h => mem_polledKinds.mp h, nofun, nofun⟩

theorem Tracked.read {p : Poll} (tracked : Tracked v w)
    (hp : w.poll = some p) : Tracked v (read w p) := by
  have reading := tracked.reading p hp
  unfold ServiceWaits.read
  split
  · refine ⟨tracked.created, tracked.among, nofun, fun seen h e he => ?_⟩
    obtain ⟨hwait, rfl⟩ := Prod.mk.inj (Option.some.inj h)
    exact (reading hwait).seen e he
  · rename_i kind rest hkinds hcounted
    refine tracked.withPoll _ fun p' hp' hwait => ?_
    cases hp'
    refine ⟨(reading hwait).kinds, fun kind' rest' n hkinds' hn => ?_, (reading hwait).seen⟩
    obtain ⟨rfl, rfl⟩ := List.cons.inj (hkinds.symm.trans hkinds')
    rw [← Option.some.inj hn, hwait]
  · rename_i kind rest n hkinds hcounted
    split
    · rename_i hcount
      refine tracked.withPoll _ fun p' hp' hwait => ?_
      cases hp'
      have hread := reading hwait
      have hkind : measured kind = true := hread.kinds kind (hkinds ▸ List.mem_cons_self)
      have counts := hcount.trans_le (hread.counted kind rest n hkinds hcounted)
      refine ⟨fun kind' h => hread.kinds kind' (hkinds ▸ List.mem_cons_of_mem kind h), nofun, ?_⟩
      intro e he
      rcases List.mem_append.mp he with he | he
      · obtain ⟨key, hkey, rfl⟩ := List.mem_map.mp he
        have hcreated := (w.system.creationTimes.mem_keysWith).mp hkey
        exact tracked.among.has_goal hkind counts hcreated
      · exact hread.seen e he
    · exact tracked.withPoll none nofun

/-! ## Both waits along a run -/

theorem Tracked.start (v : Wait) : Tracked v waiting where
  created := Created.start
  among := by
    intro key kind _ h
    cases v <;> cases h
  reading := nofun
  succeeded := nofun

theorem Tracked.waitStep {w' : Waiting} {a : WaitAction} (tracked : Tracked v w)
    (among : ∀ b t, a = .system b → Effect w.system b t → Among v t)
    (h : waitStep w a = some w') : Tracked v w' := by
  cases a with
  | system b =>
    obtain ⟨t, ht, rfl⟩ := Option.map_eq_some_iff.mp h
    have effect := effect_of_step ht
    exact tracked.system effect (among b t rfl effect)
  | poll v' =>
    rw [ServiceWaits.waitStep] at h
    split at h
    · cases h
      exact tracked.poll v'
    · cases h
  | read =>
    obtain ⟨p, hp, rfl⟩ := Option.map_eq_some_iff.mp h
    exact tracked.read hp

theorem deleted_of_writes {w : Worker} (h : w.Writes o .deleted) : w = .setDeleted o := by
  cases w with
  | setDeleted o' => exact congrArg Worker.setDeleted (Eq.symm h)
  | _ => cases h

theorem Among.deletion (among : Among .deletion w.system)
    (guarded : Guarded w (.system a)) (effect : Effect w.system a t) : Among .deletion t := by
  intro key kind hkind h
  refine has_of_effect effect ?_
  rcases has_before effect h with h | ⟨i, now, o, rfl, writes, rfl, rfl⟩
  · exact among key kind hkind h
  · rw [Guarded, deleted_of_writes writes] at guarded
    exact guarded hkind

/-- The wait for readiness is sound in every run. The wait for the deletion is
sound in the runs that record no deletion ahead of the creation. -/
theorem waits_sound (actions : List WaitAction) :
    Throughout waitStep (Sound .ready) waiting actions ∧
      (Along waitStep Guarded waiting actions →
        Throughout waitStep (Sound .deletion) waiting actions) := by
  constructor
  · refine throughout_of_keeps (fun _ tracked => Tracked.sound tracked) ?_ (Tracked.start .ready)
    intro w a w' _ tracked h
    exact tracked.waitStep (fun b t _ effect => .ready (tracked.created.step effect)) h
  · refine throughout_of_along (fun _ tracked => Tracked.sound tracked) ?_
      (Tracked.start .deletion)
    intro w a w' tracked guarded h
    refine tracked.waitStep (fun b t hb effect => ?_) h
    subst hb
    exact tracked.among.deletion guarded effect

/-- A service of the type `ClusterIP`. -/
def clusterIPService (key : String) (uid : Nat) : Object where
  key := key
  uid := uid
  kind := .clusterIP
  creationTimestamp := 0
  deletionTimestamp := none
  assigned := false
  content := 0

/-- A service comes, becomes reachable and goes; one worker handles all of it. -/
def oneService : List WaitAction :=
  let web := clusterIPService "default/web" 1
  ([.notify (.add web), .take 0, .run 0 1, .run 0 2, .run 0 3, .ping 0 true, .ping 0 true,
    .ping 0 true, .run 0 7, .run 0 8,
    .notify (.delete (.known { web with deletionTimestamp := some 9 })), .take 0,
    .run 0 10, .run 0 11, .run 0 12, .run 0 13, .run 0 14] : List Action).map .system ++
  .poll .deletion :: List.replicate 9 .read

theorem waits_sound_oneService :
    Along waitStep Guarded waiting oneService ∧
      Throughout waitStep (Sound .ready) waiting oneService ∧
      Throughout waitStep (Sound .deletion) waiting oneService ∧
      (exec waitStep waiting oneService).bind Waiting.succeeded =
        some (.deletion, [(.clusterIP, "default/web")]) := by
  have guarded : Along waitStep Guarded waiting oneService := by decide +kernel
  obtain ⟨ready, deletion⟩ := waits_sound oneService
  exact ⟨guarded, ready, deletion guarded, by decide +kernel⟩

/-- Two services come and the first goes again. The worker that has its add
stalls, while the others handle its delete and the add of the second. -/
def overtaken : List WaitAction :=
  let web := clusterIPService "default/web" 1
  ([.notify (.add web), .notify (.add (clusterIPService "default/db" 2)),
    .notify (.delete (.known { web with deletionTimestamp := some 3 })),
    .take 0, .take 1, .take 2, .run 1 4, .run 1 5, .run 1 6,
    .run 2 7, .run 2 8, .run 2 9, .run 2 10, .run 2 11] : List Action).map .system ++
  .poll .deletion :: List.replicate 9 .read

/-- The wait for the deletion returns with a service left that is recorded as
created and not as deleted. -/
theorem waitForDeletion_overtaken :
    ∃ w, exec waitStep waiting overtaken = some w ∧ waitForDeletion w.system = true ∧
      w.succeeded = some (.deletion, [(.clusterIP, "default/db")]) ∧
      w.system.has "default/db" .clusterIP .creating = true ∧
      w.system.has "default/db" .clusterIP .deleted = false ∧
      ¬ Throughout waitStep (Sound .deletion) waiting overtaken := by
  have final : (exec waitStep waiting overtaken).any (fun w =>
      waitForDeletion w.system &&
      w.succeeded == some (.deletion, [(.clusterIP, "default/db")]) &&
      w.system.has "default/db" .clusterIP .creating &&
      !w.system.has "default/db" .clusterIP .deleted) = true := by decide +kernel
  obtain ⟨w, h, facts⟩ := (Option.any_eq_true _ _).mp final
  simp only [Bool.and_eq_true, beq_iff_eq, Bool.not_eq_true'] at facts
  obtain ⟨⟨⟨ended, succeeded⟩, created⟩, left⟩ := facts
  refine ⟨w, h, ended, succeeded, created, left, fun sound => ?_⟩
  exact absurd ((sound.last h).condition ended _ _ created) (Bool.eq_false_iff.mp left)

end ServiceWaits
