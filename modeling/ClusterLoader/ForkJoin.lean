import ClusterLoader.EnabledRuns
import Mathlib.Data.List.Perm.Basic
import Mathlib.Data.List.Range
import Mathlib.Algebra.GroupWithZero.Nat

/-!
# A main thread, the goroutines it starts, and a pool of workers

The main thread goes through a program: it sleeps, starts goroutines that call one
action each, hands indices to a pool of workers, and waits for what it has started.
A goroutine sleeps before its call, a worker takes the next index when it is free;
how the steps of all of them interleave is left open. A panic ends everything.

A program is sound if it plans every action once, computes nothing that panics and
waits at its end. In every run of such a program no action is called twice, and
every run comes to an end, with each action called and returned from.
-/

namespace ForkJoin

open EnabledRuns

inductive Panic where
  | divideByZero
  | indexOutOfRange
  | invalidArgument

/-- A goroutine: how long it sleeps, and the action it then calls. -/
structure Task where
  delay : Except Panic Int
  action : Nat

inductive Instr where
  | sleep (duration : Int)
  | start (task : Task)
  /-- For all goroutines and workers. -/
  | wait
  | parallelize (workers pieces : Nat)
  | panic (cause : Panic)

structure State where
  /-- What the main thread has still to do. -/
  rest : List Instr
  /-- The goroutines that have not called their action yet. -/
  pending : List Task
  /-- The indices no worker has taken yet. -/
  queue : List Nat
  workers : Nat
  /-- The calls that have not returned. -/
  running : List Nat
  started : List Nat
  invoked : List Nat
  returned : List Nat
  panicked : Option Panic

def load (program : List Instr) : State := ⟨program, [], [], 0, [], [], [], [], none⟩

inductive Event where
  | main
  | wake (k : Nat)
  | take
  | finish (k : Nat)

section Steps

variable (count : Nat)

/-- A call of one of `count` actions. -/
def invoke (s : State) (i : Nat) : State :=
  if i < count then { s with running := s.running ++ [i], invoked := s.invoked ++ [i] }
  else { s with panicked := some .indexOutOfRange }

/-- Nothing that the main thread has to wait for. Without workers nobody waits for
the queue. -/
def quiet (s : State) : Bool :=
  s.pending.isEmpty && s.running.isEmpty && (s.queue.isEmpty || s.workers == 0)

def stepMain (s : State) : Option State :=
  match s.rest with
  | [] => none
  | .sleep _ :: rest => some { s with rest := rest }
  | .start task :: rest =>
    some { s with
      rest := rest, pending := s.pending ++ [task], started := s.started ++ [task.action] }
  | .wait :: rest => if quiet s then some { s with rest := rest } else none
  | .parallelize workers pieces :: rest =>
    some { s with
      rest := .wait :: rest, queue := s.queue ++ List.range pieces, workers := workers }
  | .panic cause :: _ => some { s with panicked := some cause }

def stepWake (s : State) (k : Nat) : Option State :=
  s.pending[k]?.map fun task =>
    match task.delay with
    | .error cause => { s with panicked := some cause }
    | .ok _ => invoke count { s with pending := s.pending.eraseIdx k } task.action

def stepTake (s : State) : Option State :=
  match s.queue with
  | [] => none
  | i :: queue =>
    if s.running.length < s.workers then some (invoke count { s with queue := queue } i)
    else none

def stepFinish (s : State) (k : Nat) : Option State :=
  s.running[k]?.map fun i =>
    { s with running := s.running.eraseIdx k, returned := s.returned ++ [i] }

def act (s : State) : Event → Option State
  | .main => stepMain s
  | .wake k => stepWake count s k
  | .take => stepTake count s
  | .finish k => stepFinish s k

def step (s : State) (event : Event) : Option State :=
  if s.panicked.isSome then none else act count s event

end Steps

/-! ## Sound programs -/

/-- The actions that an instruction brings about. -/
def planned : Instr → List Nat
  | .start task => [task.action]
  | .parallelize _ pieces => List.range pieces
  | _ => []

def startedBy : Instr → List Nat
  | .start task => [task.action]
  | _ => []

def Safe : Instr → Prop
  | .start task => ∃ delay, task.delay = .ok delay
  | .parallelize workers _ => 0 < workers
  | .panic _ => False
  | _ => True

/-- A program waits at its end, if it has one. -/
def Guarded : List Instr → Prop
  | [] => True
  | [.wait] => True
  | [.parallelize _ _] => True
  | [_] => False
  | _ :: second :: rest => Guarded (second :: rest)

theorem Guarded.tail {instr : Instr} {rest : List Instr} (h : Guarded (instr :: rest)) :
    Guarded rest := by
  cases rest with
  | nil => trivial
  | cons second rest => simpa only [Guarded] using h

theorem guarded_append_wait (items : List Instr) : Guarded (items ++ [.wait]) := by
  induction items with
  | nil => trivial
  | cons first items ih =>
    cases items with
    | nil => simp [Guarded]
    | cons second items => simpa only [Guarded, List.cons_append] using ih

/-- `order` is the order in which the goroutines are to be started. -/
structure Sound (count : Nat) (order : List Nat) (s : State) : Prop where
  calm : s.panicked = none
  safe : ∀ instr ∈ s.rest, Safe instr
  delays : ∀ task ∈ s.pending, ∃ delay, task.delay = .ok delay
  manned : s.queue ≠ [] → 0 < s.workers
  once : (s.invoked ++ (s.pending.map Task.action ++ (s.queue ++ s.rest.flatMap planned))).Perm
    (List.range count)
  called : s.invoked.Perm (s.running ++ s.returned)
  ordered : s.started ++ s.rest.flatMap startedBy = order
  guarded : Guarded s.rest
  joined : s.rest = [] → s.pending = [] ∧ s.queue = [] ∧ s.running = []

theorem sound_load {count : Nat} {program : List Instr} (safe : ∀ instr ∈ program, Safe instr)
    (plan : (program.flatMap planned).Perm (List.range count)) (guarded : Guarded program) :
    Sound count (program.flatMap startedBy) (load program) where
  calm := rfl
  safe := safe
  delays := nofun
  manned := nofun
  once := plan
  called := .nil
  ordered := rfl
  guarded := guarded
  joined _ := ⟨rfl, rfl, rfl⟩

section Run

variable {count : Nat} {order : List Nat} {s t : State}
variable {k : Nat}

theorem perm_eraseIdx {α : Type*} {l : List α} {x : α} (h : l[k]? = some x) :
    l.Perm (x :: l.eraseIdx k) := by
  obtain ⟨hk, rfl⟩ := List.getElem?_eq_some_iff.mp h
  exact (List.getElem_cons_eraseIdx_perm hk).symm

theorem Sound.invoke_eq (sound : Sound count order s) {i : Nat}
    (planned : i ∈ s.pending.map Task.action ∨ i ∈ s.queue) (s' : State) :
    invoke count s' i =
      { s' with running := s'.running ++ [i], invoked := s'.invoked ++ [i] } := by
  have hmem : i ∈ List.range count := by
    refine sound.once.mem_iff.mp (List.mem_append_right _ ?_)
    rcases planned with h | h
    · exact List.mem_append_left _ h
    · exact List.mem_append_right _ (List.mem_append_left _ h)
  exact if_pos (List.mem_range.mp hmem)

theorem quiet_iff : quiet s = true ↔
    s.pending = [] ∧ s.running = [] ∧ (s.queue = [] ∨ s.workers = 0) := by
  simp [quiet, and_assoc]

variable {rest : List Instr}

section
variable (sound : Sound count order s)
include sound

/-- An instruction that brings nothing about is done. -/
theorem Sound.pop {instr : Instr} (hrest : s.rest = instr :: rest) (noPlan : planned instr = [])
    (noStart : startedBy instr = [])
    (joined : rest = [] → s.pending = [] ∧ s.queue = [] ∧ s.running = []) :
    Sound count order { s with rest := rest } where
  calm := sound.calm
  safe x hx := sound.safe x (by rw [hrest]; exact List.mem_cons_of_mem _ hx)
  delays := sound.delays
  manned := sound.manned
  once := by
    have once := sound.once
    rwa [hrest, List.flatMap_cons, noPlan] at once
  called := sound.called
  ordered := by
    have ordered := sound.ordered
    rwa [hrest, List.flatMap_cons, noStart] at ordered
  guarded := by
    have guarded := sound.guarded
    rw [hrest] at guarded
    exact guarded.tail
  joined := joined

theorem Sound.start {task : Task} (hrest : s.rest = .start task :: rest) :
    Sound count order { s with
      rest := rest, pending := s.pending ++ [task], started := s.started ++ [task.action] } := by
  obtain ⟨calm, safe, delays, manned, once, called, ordered, guarded, joined⟩ := sound
  rw [hrest] at safe once ordered guarded
  refine ⟨calm, fun x hx => safe x (List.mem_cons_of_mem _ hx), ?_, manned, ?_, called, ?_,
    guarded.tail, ?_⟩
  · intro task' htask'
    rcases List.mem_append.mp htask' with htask' | htask'
    · exact delays task' htask'
    · obtain rfl := List.mem_singleton.mp htask'
      exact safe _ List.mem_cons_self
  · refine List.Perm.trans (.append_left _ ?_) once
    simp only [List.map_append, List.map_cons, List.map_nil, List.append_assoc,
      List.singleton_append]
    exact .append_left _ List.perm_middle.symm
  · rw [← ordered, List.append_assoc]
    rfl
  · rintro rfl
    cases guarded

theorem Sound.parallelize {workers pieces : Nat}
    (hrest : s.rest = .parallelize workers pieces :: rest) :
    Sound count order { s with
      rest := .wait :: rest, queue := s.queue ++ List.range pieces, workers := workers } := by
  obtain ⟨calm, safe, delays, manned, once, called, ordered, guarded, joined⟩ := sound
  rw [hrest] at safe once ordered guarded
  refine ⟨calm, ?_, delays, fun _ => safe _ List.mem_cons_self, ?_, called, ordered, ?_, nofun⟩
  · intro x hx
    rcases List.mem_cons.mp hx with rfl | hx
    · trivial
    · exact safe x (List.mem_cons_of_mem _ hx)
  · refine List.Perm.trans (.of_eq ?_) once
    simp only [List.flatMap_cons, planned, List.append_assoc, List.nil_append]
  · cases rest with
    | nil => trivial
    | cons second rest => simpa only [Guarded] using guarded.tail

theorem Sound.called_concat (i : Nat) :
    (s.invoked ++ [i]).Perm (s.running ++ [i] ++ s.returned) := by
  refine (sound.called.append_right _).trans ?_
  rw [List.append_assoc, List.append_assoc]
  exact .append_left _ List.perm_append_comm

theorem Sound.wake {task : Task} (htask : s.pending[k]? = some task) :
    Sound count order { s with
      pending := s.pending.eraseIdx k
      running := s.running ++ [task.action]
      invoked := s.invoked ++ [task.action] } := by
  have hperm := perm_eraseIdx htask
  refine ⟨sound.calm, sound.safe, ?_, sound.manned, ?_, ?_, sound.ordered, sound.guarded, ?_⟩
  · exact fun task' htask' => sound.delays task' (List.eraseIdx_subset htask')
  · refine List.Perm.trans ?_ sound.once
    rw [List.append_assoc]
    exact .append_left _ ((hperm.map Task.action).symm.append_right _)
  · exact sound.called_concat task.action
  · intro hrest
    rw [(sound.joined hrest).1] at htask
    cases htask

theorem Sound.take {i : Nat} {queue : List Nat} (hqueue : s.queue = i :: queue) :
    Sound count order { s with
      queue := queue, running := s.running ++ [i], invoked := s.invoked ++ [i] } := by
  have once := sound.once
  rw [hqueue] at once
  refine ⟨sound.calm, sound.safe, sound.delays, ?_, ?_, ?_, sound.ordered, sound.guarded, ?_⟩
  · exact fun _ => sound.manned (by rw [hqueue]; exact List.cons_ne_nil i queue)
  · refine List.Perm.trans ?_ once
    rw [List.append_assoc]
    refine .append_left _ ?_
    change (i :: (s.pending.map Task.action ++ (queue ++ s.rest.flatMap planned))).Perm _
    exact List.perm_middle.symm
  · exact sound.called_concat i
  · intro hrest
    cases hqueue.symm.trans (sound.joined hrest).2.1

theorem Sound.finish {i : Nat} (hi : s.running[k]? = some i) :
    Sound count order { s with
      running := s.running.eraseIdx k, returned := s.returned ++ [i] } := by
  refine ⟨sound.calm, sound.safe, sound.delays, sound.manned, sound.once, ?_, sound.ordered,
    sound.guarded, ?_⟩
  · refine sound.called.trans ?_
    refine ((perm_eraseIdx hi).append_right _).trans ?_
    rw [← List.append_assoc]
    exact (List.perm_append_singleton i _).symm
  · intro hrest
    rw [(sound.joined hrest).2.2] at hi
    cases hi

end

/-! ## What a step can do -/

/-- The steps of a sound state. -/
inductive Effect (s : State) : State → Prop where
  | passed {instr : Instr} {rest : List Instr} (hrest : s.rest = instr :: rest)
      (noPlan : planned instr = []) (noStart : startedBy instr = [])
      (joined : rest = [] → s.pending = [] ∧ s.queue = [] ∧ s.running = []) :
      Effect s { s with rest := rest }
  | started {task : Task} {rest : List Instr} (hrest : s.rest = .start task :: rest) :
      Effect s { s with
        rest := rest, pending := s.pending ++ [task], started := s.started ++ [task.action] }
  | parallelized {workers pieces : Nat} {rest : List Instr}
      (hrest : s.rest = .parallelize workers pieces :: rest) :
      Effect s { s with
        rest := .wait :: rest, queue := s.queue ++ List.range pieces, workers := workers }
  | woken {k : Nat} {task : Task} (htask : s.pending[k]? = some task) :
      Effect s { s with
        pending := s.pending.eraseIdx k
        running := s.running ++ [task.action]
        invoked := s.invoked ++ [task.action] }
  | taken {i : Nat} {queue : List Nat} (hqueue : s.queue = i :: queue) :
      Effect s { s with
        queue := queue, running := s.running ++ [i], invoked := s.invoked ++ [i] }
  | finished {k i : Nat} (hi : s.running[k]? = some i) :
      Effect s { s with running := s.running.eraseIdx k, returned := s.returned ++ [i] }

theorem Effect.sound (effect : Effect s t) (sound : Sound count order s) :
    Sound count order t := by
  cases effect with
  | passed hrest noPlan noStart joined => exact sound.pop hrest noPlan noStart joined
  | started hrest => exact sound.start hrest
  | parallelized hrest => exact sound.parallelize hrest
  | woken htask => exact sound.wake htask
  | taken hqueue => exact sound.take hqueue
  | finished hi => exact sound.finish hi

section
variable (sound : Sound count order s)
include sound

theorem Sound.effect_main (h : stepMain s = some t) : Effect s t := by
  unfold stepMain at h
  split at h
  case h_1 => cases h
  case h_2 duration rest hrest =>
    cases h
    refine .passed hrest rfl rfl ?_
    rintro rfl
    have guarded := sound.guarded
    rw [hrest] at guarded
    cases guarded
  case h_3 task rest hrest =>
    cases h
    exact .started hrest
  case h_4 rest hrest =>
    obtain ⟨hquiet, ⟨⟩⟩ := Option.ite_none_right_eq_some.mp h
    obtain ⟨hpending, hrunning, hqueue⟩ := quiet_iff.mp hquiet
    refine .passed hrest rfl rfl fun _ => ⟨hpending, ?_, hrunning⟩
    by_contra hne
    have := sound.manned hne
    rcases hqueue with hqueue | hqueue
    · exact hne hqueue
    · omega
  case h_5 workers pieces rest hrest =>
    cases h
    exact .parallelized hrest
  case h_6 cause rest hrest =>
    have hsafe := sound.safe (.panic cause) (by rw [hrest]; exact List.mem_cons_self)
    exact hsafe.elim

theorem Sound.effect_wake (h : stepWake count s k = some t) : Effect s t := by
  obtain ⟨task, htask, rfl⟩ := Option.map_eq_some_iff.mp h
  have hmem := List.mem_of_getElem? htask
  obtain ⟨delay, hdelay⟩ := sound.delays task hmem
  rw [hdelay]
  rw [sound.invoke_eq (.inl (List.mem_map_of_mem hmem))]
  exact .woken htask

theorem Sound.effect_take (h : stepTake count s = some t) : Effect s t := by
  unfold stepTake at h
  split at h
  · cases h
  · rename_i i queue hqueue
    obtain ⟨_, ⟨⟩⟩ := Option.ite_none_right_eq_some.mp h
    rw [sound.invoke_eq (.inr (by rw [hqueue]; exact List.mem_cons_self))]
    exact .taken hqueue

theorem Sound.step_eq (event : Event) : step count s event = act count s event := by
  rw [step, sound.calm, Option.isSome_none, if_neg Bool.false_ne_true]

theorem effect_of_step {event : Event} (h : step count s event = some t) : Effect s t := by
  rw [sound.step_eq] at h
  cases event with
  | main => exact sound.effect_main h
  | wake k => exact sound.effect_wake h
  | take => exact sound.effect_take h
  | finish k =>
    obtain ⟨i, hi, rfl⟩ := Option.map_eq_some_iff.mp h
    exact .finished hi

end

/-! ## Every run comes to an end -/

def weight : Instr → Nat
  | .start _ => 3
  | .parallelize _ pieces => 2 * pieces + 2
  | _ => 1

def rank (s : State) : Nat :=
  (s.rest.map weight).sum + 2 * s.pending.length + 2 * s.queue.length + s.running.length

theorem weight_pos (instr : Instr) : 0 < weight instr := by
  cases instr with
  | parallelize workers pieces =>
    change 0 < 2 * pieces + 2
    omega
  | _ => exact Nat.succ_pos _

theorem Effect.rank_lt (effect : Effect s t) : rank t < rank s := by
  cases effect with
  | @passed instr rest hrest =>
    have := weight_pos instr
    simp only [rank, hrest, List.map_cons, List.sum_cons]
    omega
  | started hrest =>
    simp only [rank, hrest, List.map_cons, List.sum_cons, List.length_append, weight,
      List.length_singleton]
    omega
  | parallelized hrest =>
    simp only [rank, hrest, List.map_cons, List.sum_cons, List.length_append, weight,
      List.length_range]
    omega
  | woken htask =>
    have hlength := (perm_eraseIdx htask).length_eq
    simp only [rank, List.length_append, List.length_cons, List.length_nil] at hlength ⊢
    omega
  | taken hqueue =>
    simp only [rank, hqueue, List.length_append, List.length_cons, List.length_nil]
    omega
  | finished hi =>
    have hlength := (perm_eraseIdx hi).length_eq
    simp only [rank, List.length_cons] at hlength ⊢
    omega

/-- The main thread has returned, and each action has been called and has returned. -/
structure Finished (count : Nat) (order : List Nat) (s : State) : Prop where
  main : s.rest = []
  calm : s.panicked = none
  invoked : s.invoked.Perm (List.range count)
  returned : s.returned.Perm (List.range count)
  started : s.started = order

section
variable (sound : Sound count order s)
include sound

theorem Sound.finished (main : s.rest = []) : Finished count order s := by
  obtain ⟨hpending, hqueue, hrunning⟩ := sound.joined main
  have once := sound.once
  have called := sound.called
  have ordered := sound.ordered
  rw [hpending, hqueue, main] at once
  rw [hrunning] at called
  rw [main] at ordered
  simp only [List.map_nil, List.flatMap_nil, List.append_nil] at once ordered
  exact ⟨main, sound.calm, once, called.symm.trans once, ordered⟩

/-- As long as the main thread has not returned, some step can be taken. -/
theorem Sound.exists_step (busy : s.rest ≠ []) :
    ∃ event, step count s event ≠ none := by
  simp only [sound.step_eq]
  cases hpending : s.pending with
  | cons task pending => exact ⟨.wake 0, by simp [act, stepWake, hpending]⟩
  | nil =>
    cases hrunning : s.running with
    | cons i running => exact ⟨.finish 0, by simp [act, stepFinish, hrunning]⟩
    | nil =>
      cases hqueue : s.queue with
      | cons i queue =>
        have hworkers := sound.manned (by rw [hqueue]; exact List.cons_ne_nil i queue)
        exact ⟨.take, by simp [act, stepTake, hqueue, hrunning, hworkers]⟩
      | nil =>
        have hquiet : quiet s = true := quiet_iff.mpr ⟨hpending, hrunning, .inl hqueue⟩
        obtain ⟨instr, rest, hrest⟩ := List.exists_cons_of_ne_nil busy
        cases instr with
        | _ => exact ⟨.main, by simp [act, stepMain, hrest, hquiet]⟩

theorem Sound.terminates :
    Terminates (step count) (fun _ => True) (Finished count order) s := by
  refine terminates_of_decreasing rank (fun s _ t _ sound h => (effect_of_step sound h).sound sound)
    (fun s _ t _ sound h => (effect_of_step sound h).rank_lt) ?_ sound
  intro s sound stuck
  by_contra unfinished
  have busy : s.rest ≠ [] := fun main => unfinished (sound.finished main)
  obtain ⟨event, h⟩ := sound.exists_step busy
  exact h (stuck event trivial)

theorem Sound.reaches (h : Reaches (step count) (fun _ => True) s t) : Sound count order t :=
  h.keeps (fun _ _ _ _ sound h => (effect_of_step sound h).sound sound) sound

/-- What can be said in the middle of a run. -/
structure Orderly (count : Nat) (order : List Nat) (s : State) : Prop where
  calm : s.panicked = none
  atMostOnce : s.invoked.Nodup
  inRange : ∀ i ∈ s.invoked, i < count
  inOrder : s.started <+: order
  waits : s.rest = [] → s.returned.Perm (List.range count)

theorem Sound.orderly : Orderly count order s where
  calm := sound.calm
  atMostOnce := (List.nodup_append.mp (sound.once.nodup_iff.mpr List.nodup_range)).1
  inRange _ hi := List.mem_range.mp (sound.once.mem_iff.mp (List.mem_append_left _ hi))
  inOrder := ⟨_, sound.ordered⟩
  waits main := (sound.finished main).returned

end

end Run

end ForkJoin
