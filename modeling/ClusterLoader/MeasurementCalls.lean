import ClusterLoader.GuardedRuns
import ClusterLoader.TestExecution
import Mathlib.Algebra.BigOperators.Fin
import Mathlib.Algebra.Order.BigOperators.Group.Finset

/-!
# The measurements of one step, executed together

ExecuteStep starts every measurement of a step in a goroutine of its own, and a
measurement without an identifier starts its instances likewise. Each of them
calls Execute of one manager, which looks the instance up under the lock, asks
for the version of the cluster, runs the measurement and then appends what it
returned to the list of summaries. The append is not under the lock: it reads
the list in one step and writes the extended one in another.

A schedule says which call takes the next step. The list is a value here; calls
that share the array behind it can also overwrite each other's elements, which
is not modelled. The parameters of a measurement reach only the measurement,
whose answer is arbitrary.
-/

namespace MeasurementCalls

open TestConfig TestExecution GuardedRuns

structure Call where
  method : String
  identifier : String
  deriving DecidableEq

/-- A wrapper has no identifier and calls Execute for each of its instances. -/
def measurementCalls (m : Measurement) : List Call :=
  if m.identifier ≠ "" then [⟨m.method, m.identifier⟩]
  else m.instances.map fun inst => ⟨m.method, inst.identifier⟩

def stepCalls (step : Step) : List Call := step.measurements.flatMap measurementCalls

/-- The manager's instances all are of registered methods. -/
structure Manager (registered : String → Bool) where
  measurements : List Call
  summaries : List Summary
  known : ∀ c ∈ measurements, registered c.method = true

namespace Manager

variable {registered : String → Bool}

/-- The factory creates an instance of every registered method. -/
def getMeasurementInstance (mm : Manager registered) (c : Call) :
    Except String (Manager registered) :=
  if c ∈ mm.measurements then .ok mm
  else if h : registered c.method then
    .ok { mm with
      measurements := c :: mm.measurements
      known := List.forall_mem_cons.mpr ⟨h, mm.known⟩ }
  else .error ("unknown measurement method " ++ c.method)

def getSummaries (mm : Manager registered) : List Summary := mm.summaries

theorem getMeasurementInstance_ok_iff (mm : Manager registered) (c : Call) :
    (∃ mm', mm.getMeasurementInstance c = .ok mm') ↔ registered c.method = true := by
  rw [getMeasurementInstance]
  by_cases found : c ∈ mm.measurements
  · rw [if_pos found]
    exact iff_of_true ⟨mm, rfl⟩ (mm.known c found)
  · rw [if_neg found]
    by_cases h : registered c.method = true
    · rw [dif_pos h]
      exact iff_of_true ⟨_, rfl⟩ h
    · rw [dif_neg h]
      exact iff_of_false (fun ⟨_, hok⟩ => nomatch hok) h

theorem getMeasurementInstance_summaries {mm mm' : Manager registered} {c : Call}
    (h : mm.getMeasurementInstance c = .ok mm') : mm'.summaries = mm.summaries := by
  rw [getMeasurementInstance] at h
  split at h
  · cases h
    rfl
  · split at h
    · cases h
      rfl
    · cases h

end Manager

/-- What the outside answers to one call: the error of the version request,
and what the measurement returns. -/
structure Answer where
  version : Option String
  summaries : List Summary
  err : Option String

inductive Stage where
  | called
  | obtained
  | connected
  | measured
  | holding (snapshot : List Summary)
  | returned (err : Option String)
  deriving DecidableEq

def Stage.isReturned : Stage → Bool
  | .returned _ => true
  | _ => false

/-- How many steps a call may still take. -/
def Stage.rank : Stage → Nat
  | .called => 5
  | .obtained => 4
  | .connected => 3
  | .measured => 2
  | .holding _ => 1
  | .returned _ => 0

structure State (registered : String → Bool) (calls : List Call) where
  manager : Manager registered
  stage : Fin calls.length → Stage

section Model
variable {registered : String → Bool} {calls : List Call}

def State.goTo (s : State registered calls) (i : Fin calls.length) (stage : Stage) :
    State registered calls :=
  { s with stage := Function.update s.stage i stage }

/-- The next step of one Execute. -/
def execute (answer : Fin calls.length → Answer) (s : State registered calls)
    (i : Fin calls.length) : State registered calls :=
  match s.stage i with
  | .called =>
    match s.manager.getMeasurementInstance (calls.get i) with
    | .error e => s.goTo i (.returned (some e))
    | .ok manager => { s.goTo i .obtained with manager := manager }
  | .obtained =>
    match (answer i).version with
    | some _ => s.goTo i (.returned (some "failed to get cluster version"))
    | none => s.goTo i .connected
  | .connected => s.goTo i .measured
  | .measured => s.goTo i (.holding s.manager.summaries)
  | .holding snapshot =>
    { s.goTo i (.returned (answer i).err) with
      manager := { s.manager with summaries := snapshot ++ (answer i).summaries } }
  | .returned _ => s

def start (manager : Manager registered) : State registered calls := ⟨manager, fun _ => .called⟩

/-- The call gets as far as running its measurement. -/
def Runs (registered : String → Bool) (answer : Fin calls.length → Answer)
    (i : Fin calls.length) : Prop :=
  registered (calls.get i).method = true ∧ (answer i).version = none

instance (answer : Fin calls.length → Answer) (i : Fin calls.length) :
    Decidable (Runs registered answer i) :=
  inferInstanceAs (Decidable (_ ∧ _))

/-- The summaries that a call returns to the manager. -/
def returnedBy (registered : String → Bool) (answer : Fin calls.length → Answer)
    (i : Fin calls.length) : Multiset Summary :=
  if Runs registered answer i then (answer i).summaries else 0

def AllReturned (s : State registered calls) : Prop := ∀ i, (s.stage i).isReturned = true

end Model

section Steps
variable {registered : String → Bool} {calls : List Call} {answer : Fin calls.length → Answer}

/-- What is known of a call that has got this far. -/
def Reaches (registered : String → Bool) (answer : Fin calls.length → Answer)
    (i : Fin calls.length) : Stage → Prop
  | .obtained => registered (calls.get i).method = true
  | .connected | .measured | .holding _ => Runs registered answer i
  | .called | .returned _ => True

/-- What a step does: nothing once the call has returned, a move that leaves
the summaries alone, or the write. -/
inductive Effect (answer : Fin calls.length → Answer) (s : State registered calls)
    (i : Fin calls.length) : State registered calls → Prop
  | stays (done : (s.stage i).isReturned = true) : Effect answer s i s
  | goes {next : State registered calls} {stage : Stage}
      (gone : next.stage = Function.update s.stage i stage)
      (kept : next.manager.summaries = s.manager.summaries)
      (lower : stage.rank < (s.stage i).rank)
      (reaches : Reaches registered answer i stage)
      (holds : ∀ snapshot, stage = .holding snapshot → snapshot = s.manager.summaries)
      (fails : stage.isReturned = true → ¬ Runs registered answer i) :
      Effect answer s i next
  | writes {next : State registered calls} {snapshot : List Summary}
      (held : s.stage i = .holding snapshot)
      (gone : next.stage = Function.update s.stage i (.returned (answer i).err))
      (written : next.manager.summaries = snapshot ++ (answer i).summaries) :
      Effect answer s i next

variable {s : State registered calls} {i : Fin calls.length}

theorem execute_effect (reached : Reaches registered answer i (s.stage i)) :
    Effect answer s i (execute answer s i) := by
  rw [execute]
  have lower : ∀ {stage stage' : Stage}, s.stage i = stage → stage'.rank < stage.rank →
      stage'.rank < (s.stage i).rank := by
    intro stage stage' hstage hlt
    rwa [hstage]
  cases hstage : s.stage i with
  | called =>
    have found := s.manager.getMeasurementInstance_ok_iff (calls.get i)
    cases hinstance : s.manager.getMeasurementInstance (calls.get i) with
    | error e =>
      refine .goes rfl rfl (lower hstage (Nat.zero_lt_succ _)) trivial nofun ?_
      intro _ runs
      obtain ⟨mm, hok⟩ := found.mpr runs.1
      cases hinstance.symm.trans hok
    | ok mm =>
      exact .goes rfl (Manager.getMeasurementInstance_summaries hinstance)
        (lower hstage (Nat.lt_succ_self _)) (found.mp ⟨mm, hinstance⟩) nofun nofun
  | obtained =>
    rw [hstage] at reached
    cases hversion : (answer i).version with
    | some e =>
      refine .goes rfl rfl (lower hstage (Nat.zero_lt_succ _)) trivial nofun ?_
      intro _ runs
      cases hversion.symm.trans runs.2
    | none =>
      exact .goes rfl rfl (lower hstage (Nat.lt_succ_self _)) ⟨reached, hversion⟩ nofun nofun
  | connected =>
    rw [hstage] at reached
    exact .goes rfl rfl (lower hstage (Nat.lt_succ_self _)) reached nofun nofun
  | measured =>
    rw [hstage] at reached
    refine .goes rfl rfl (lower hstage (Nat.lt_succ_self _)) reached ?_ nofun
    intro snapshot h
    cases h
    rfl
  | holding snapshot => exact .writes hstage rfl rfl
  | returned err => exact .stays (by rw [hstage]; rfl)

/-- Every call is where it may be. -/
def Lawful (registered : String → Bool) (answer : Fin calls.length → Answer)
    (s : State registered calls) : Prop :=
  ∀ i, Reaches registered answer i (s.stage i)

variable {next : State registered calls}

theorem Effect.lawful (effect : Effect answer s i next) (lawful : Lawful registered answer s) :
    Lawful registered answer next := by
  have updated : ∀ {stage : Stage}, Reaches registered answer i stage → ∀ j,
      Reaches registered answer j (Function.update s.stage i stage j) := by
    intro stage reaches j
    by_cases same : j = i
    · subst same
      rwa [Function.update_self]
    · rw [Function.update_of_ne same]
      exact lawful j
  cases effect with
  | stays done => exact lawful
  | goes gone kept lower reaches holds fails =>
    rw [Lawful, gone]
    exact updated reaches
  | writes held gone written =>
    rw [Lawful, gone]
    exact updated trivial

/-- The summaries of the calls that have returned. -/
def delivered (returns : Fin calls.length → Multiset Summary) (s : State registered calls) :
    Multiset Summary :=
  ∑ i, if (s.stage i).isReturned then returns i else 0

variable {stage : Stage}

theorem delivered_goTo (returns : Fin calls.length → Multiset Summary) 
    (ongoing : (s.stage i).isReturned = false)
    (gone : next.stage = Function.update s.stage i stage) :
    delivered returns next =
      delivered returns s + if stage.isReturned then returns i else 0 := by
  have others : ∀ j ∈ Finset.univ.erase i,
      (if (next.stage j).isReturned then returns j else 0) =
        if (s.stage j).isReturned then returns j else 0 := by
    intro j hj
    rw [gone, Function.update_of_ne (Finset.ne_of_mem_erase hj)]
  rw [delivered, delivered, ← Finset.sum_erase_add _ _ (Finset.mem_univ i),
    ← Finset.sum_erase_add _ _ (Finset.mem_univ i), Finset.sum_congr rfl others, gone,
    Function.update_self, ongoing, if_neg Bool.false_ne_true, add_zero]

variable {returns : Fin calls.length → Multiset Summary}

theorem le_delivered (returned : (s.stage i).isReturned = true) :
    returns i ≤ delivered returns s := by
  rw [delivered, ← Finset.sum_erase_add _ _ (Finset.mem_univ i), if_pos returned]
  exact Multiset.le_add_left _ _

theorem isReturned_iff_rank : stage.isReturned = true ↔ stage.rank = 0 := by
  cases stage with
  | returned err => exact iff_of_true rfl rfl
  | _ => exact iff_of_false Bool.false_ne_true (Nat.succ_ne_zero _)

theorem isReturned_of_rank (h : 0 < stage.rank) : stage.isReturned = false := by
  rw [← Bool.not_eq_true, isReturned_iff_rank]
  omega

theorem returnedBy_of_not_runs (h : ¬ Runs registered answer i) :
    returnedBy registered answer i = 0 := if_neg h

/-- Only the write delivers anything. -/
theorem delivered_of_goes (failed : ¬ Runs registered answer i → returns i = 0)
    (gone : next.stage = Function.update s.stage i stage) (lower : stage.rank < (s.stage i).rank)
    (fails : stage.isReturned = true → ¬ Runs registered answer i) :
    delivered returns next = delivered returns s := by
  rw [delivered_goTo returns (isReturned_of_rank (Nat.zero_lt_of_lt lower)) gone]
  split
  next h => rw [failed (fails h), add_zero]
  next => rw [add_zero]

variable {snapshot : List Summary}

theorem delivered_of_writes (returns : Fin calls.length → Multiset Summary) 
    {err : Option String} (held : s.stage i = .holding snapshot)
    (gone : next.stage = Function.update s.stage i (.returned err)) :
    delivered returns next = delivered returns s + returns i := by
  have ongoing : (s.stage i).isReturned = false := by
    rw [held]
    rfl
  rw [delivered_goTo returns ongoing gone]
  rfl

/-- A snapshot that is still held after a step was held before it, or the step
has taken it. -/
theorem held_of_goes {j : Fin calls.length} (gone : next.stage = Function.update s.stage i stage)
    (holds : ∀ snapshot, stage = .holding snapshot → snapshot = s.manager.summaries)
    (held : next.stage j = .holding snapshot) :
    snapshot = s.manager.summaries ∨ s.stage j = .holding snapshot := by
  rw [gone] at held
  by_cases same : j = i
  · subst same
    rw [Function.update_self] at held
    exact .inl (holds snapshot held)
  · rw [Function.update_of_ne same] at held
    exact .inr held

theorem held_of_writes {j : Fin calls.length} {err : Option String}
    (gone : next.stage = Function.update s.stage i (.returned err))
    (held : next.stage j = .holding snapshot) : j ≠ i ∧ s.stage j = .holding snapshot := by
  rw [gone] at held
  by_cases same : j = i
  · subst same
    rw [Function.update_self] at held
    cases held
  · rw [Function.update_of_ne same] at held
    exact ⟨same, held⟩

end Steps

section Undisturbed
variable {registered : String → Bool} {calls : List Call}
variable (answer : Fin calls.length → Answer) (before : Multiset Summary)

/-- Nothing is lost so far, and every snapshot is up to date. -/
structure Complete (s : State registered calls) : Prop where
  lawful : Lawful registered answer s
  current : ∀ i snapshot, s.stage i = .holding snapshot → snapshot = s.manager.summaries
  summaries : (s.manager.summaries : Multiset Summary) =
    before + delivered (returnedBy registered answer) s

/-- A write that adds summaries is made while no other call holds a snapshot. -/
def Undisturbed (s : State registered calls) (i : Fin calls.length) : Prop :=
  ∀ j snapshot snapshot', s.stage i = .holding snapshot → s.stage j = .holding snapshot' →
    j = i ∨ (answer i).summaries = []

variable {answer before}

theorem Complete.execute {s : State registered calls} {i : Fin calls.length}
    (complete : Complete answer before s) (undisturbed : Undisturbed answer s i) :
    Complete answer before (execute answer s i) := by
  have effect := execute_effect (complete.lawful i)
  generalize MeasurementCalls.execute answer s i = next at effect ⊢
  have lawful := effect.lawful complete.lawful
  cases effect with
  | stays done => exact complete
  | goes gone kept lower reaches holds fails =>
    refine ⟨lawful, ?_, ?_⟩
    · intro j snapshot held
      rw [kept]
      rcases held_of_goes gone holds held with hnew | hold
      · exact hnew
      · exact complete.current j snapshot hold
    · rw [kept, delivered_of_goes returnedBy_of_not_runs gone lower fails]
      exact complete.summaries
  | writes held gone written =>
    have runs : Runs registered answer i := by
      have reaches := complete.lawful i
      rwa [held] at reaches
    obtain rfl := complete.current i _ held
    refine ⟨lawful, ?_, ?_⟩
    · intro j snapshot held'
      obtain ⟨other, hold⟩ := held_of_writes gone held'
      rw [complete.current j snapshot hold, written]
      rcases undisturbed j _ _ held hold with same | none
      · exact absurd same other
      · rw [none, List.append_nil]
    · rw [written, ← Multiset.coe_add, complete.summaries, delivered_of_writes _ held gone,
        returnedBy, if_pos runs, add_assoc]

theorem complete_start (manager : Manager registered) :
    Complete answer (manager.summaries : Multiset Summary)
      (start manager : State registered calls) := by
  refine ⟨fun _ => trivial, nofun, ?_⟩
  have none : delivered (returnedBy registered answer)
      (start manager : State registered calls) = 0 :=
    Finset.sum_eq_zero fun _ _ => rfl
  rw [none, add_zero]
  rfl

/-- A call that gets to hold a snapshot runs its measurement. -/
theorem undisturbed_of {s : State registered calls} (lawful : Lawful registered answer s)
    (condition : (∀ i j, Runs registered answer i → Runs registered answer j → i = j) ∨
      ∀ i, Runs registered answer i → (answer i).summaries = [])
    (i : Fin calls.length) : Undisturbed answer s i := by
  intro j snapshot snapshot' held held'
  have runs : ∀ {k snapshot}, s.stage k = .holding snapshot → Runs registered answer k := by
    intro k snapshot held
    have reaches := lawful k
    rwa [held] at reaches
  rcases condition with single | empty
  · exact .inl (single j i (runs held') (runs held))
  · exact .inr (empty i (runs held))

end Undisturbed

section Lost
variable {registered : String → Bool} {calls : List Call}
variable (answer : Fin calls.length → Answer) (before : Multiset Summary)

/-- What the calls return to the manager, one of them left out. -/
def without (registered : String → Bool) (lost : Fin calls.length) :
    Fin calls.length → Multiset Summary :=
  Function.update (returnedBy registered answer) lost 0

/-- What `lost` has written is gone, and no call holds it. -/
structure Overwritten (lost : Fin calls.length) (s : State registered calls) : Prop where
  lawful : Lawful registered answer s
  ended : (s.stage lost).isReturned = true
  summaries : (s.manager.summaries : Multiset Summary) ≤
    before + delivered (without answer registered lost) s
  held : ∀ i (snapshot : List Summary), s.stage i = .holding snapshot →
    (snapshot : Multiset Summary) ≤
      before + delivered (without answer registered lost) s

variable {answer before} {lost : Fin calls.length}

theorem without_of_not_runs (lost : Fin calls.length) {i : Fin calls.length}
    (h : ¬ Runs registered answer i) :
    without answer registered lost i = 0 := by
  rw [without]
  by_cases same : i = lost
  · subst same
    exact Function.update_self _ _ _
  · rw [Function.update_of_ne same]
    exact returnedBy_of_not_runs h

theorem Overwritten.execute {s : State registered calls} {i : Fin calls.length}
    (overwritten : Overwritten answer before lost s) :
    Overwritten answer before lost (execute answer s i) := by
  have effect := execute_effect (overwritten.lawful i)
  generalize MeasurementCalls.execute answer s i = next at effect ⊢
  have lawful := effect.lawful overwritten.lawful
  cases effect with
  | stays done => exact overwritten
  | goes gone kept lower reaches holds fails =>
    have hdelivered := delivered_of_goes (without_of_not_runs lost) gone lower fails
    have other : lost ≠ i := by
      rintro rfl
      have ongoing := isReturned_of_rank (Nat.zero_lt_of_lt lower)
      exact Bool.false_ne_true (ongoing.symm.trans overwritten.ended)
    refine ⟨lawful, ?_, ?_, ?_⟩
    · rw [gone, Function.update_of_ne other]
      exact overwritten.ended
    · rw [kept, hdelivered]
      exact overwritten.summaries
    · intro j snapshot held
      rw [hdelivered]
      rcases held_of_goes gone holds held with rfl | hold
      · exact overwritten.summaries
      · exact overwritten.held j snapshot hold
  | @writes _ snapshot held gone written =>
    have hdelivered := delivered_of_writes (without answer registered lost) held gone
    have other : i ≠ lost := by
      rintro rfl
      have ended := overwritten.ended
      rw [held] at ended
      cases ended
    have runs : Runs registered answer i := by
      have reaches := overwritten.lawful i
      rwa [held] at reaches
    have hreturns : without answer registered lost i = (answer i).summaries := by
      rw [without, Function.update_of_ne other, returnedBy, if_pos runs]
    refine ⟨lawful, ?_, ?_, ?_⟩
    · rw [gone, Function.update_of_ne other.symm]
      exact overwritten.ended
    · rw [written, hdelivered, hreturns, ← add_assoc]
      exact add_le_add_left (overwritten.held i snapshot held) _
    · intro j snapshot' held'
      obtain ⟨-, hold⟩ := held_of_writes gone held'
      rw [hdelivered, ← add_assoc]
      exact (overwritten.held j snapshot' hold).trans (Multiset.le_add_right _ _)

/-- In the end the summaries of `lost` are missing. -/
theorem Overwritten.ne_all {s : State registered calls}
    (overwritten : Overwritten answer before lost s) (all : AllReturned s)
    (some : returnedBy registered answer lost ≠ 0) :
    (s.manager.summaries : Multiset Summary) ≠ before + ∑ i, returnedBy registered answer i := by
  have hdelivered : delivered (without answer registered lost) s =
      ∑ i, without answer registered lost i :=
    Finset.sum_congr rfl fun i _ => if_pos (all i)
  have hlost : ∑ i, returnedBy registered answer i =
      ∑ i, without answer registered lost i + returnedBy registered answer lost := by
    rw [without, Finset.sum_update_of_mem (Finset.mem_univ lost), zero_add,
      ← Finset.sum_erase_add _ _ (Finset.mem_univ lost), Finset.sdiff_singleton_eq_erase]
  intro heq
  have hle := overwritten.summaries
  rw [heq, hlost, hdelivered, ← add_assoc] at hle
  have hcard := Multiset.card_le_card hle
  rw [Multiset.card_add] at hcard
  exact some (Multiset.card_eq_zero.mp (by omega))

end Lost

section Schedules
variable {registered : String → Bool} {calls : List Call} {answer : Fin calls.length → Answer}
variable {s : State registered calls} {i : Fin calls.length}

theorem Effect.rank_le {next : State registered calls}
    (effect : Effect answer s i next) (j : Fin calls.length) :
    (next.stage j).rank ≤ (s.stage j).rank - if i = j then 1 else 0 := by
  have updated : ∀ {stage : Stage}, stage.rank < (s.stage i).rank →
      (Function.update s.stage i stage j).rank ≤ (s.stage j).rank - if i = j then 1 else 0 := by
    by_cases same : i = j
    · subst same
      rw [Function.update_self, if_pos rfl]
      omega
    · rw [Function.update_of_ne (Ne.symm same), if_neg same]
      omega
  cases effect with
  | stays done =>
    have hrank := isReturned_iff_rank.mp done
    split
    next same =>
      subst same
      omega
    next => exact Nat.le_refl _
  | goes gone kept lower reaches holds fails =>
    rw [gone]
    exact updated lower
  | writes held gone written =>
    rw [gone]
    apply updated
    rw [held]
    exact Nat.one_pos

theorem lawful_run (lawful : Lawful registered answer s) (schedule : List (Fin calls.length)) :
    Lawful registered answer (run (execute answer) s schedule) :=
  List.foldlRecOn schedule _ lawful fun _ h i _ => (execute_effect (h i)).lawful h

/-- Every step of a call that has not returned brings it closer to its return. -/
theorem rank_run_le (lawful : Lawful registered answer s)
    (schedule : List (Fin calls.length)) (j : Fin calls.length) :
    ((run (execute answer) s schedule).stage j).rank ≤ (s.stage j).rank - schedule.count j := by
  induction schedule generalizing s with
  | nil => exact Nat.le_refl _
  | cons i rest ih =>
    have effect := execute_effect (lawful i)
    have hrest := ih (effect.lawful lawful)
    have hstep := effect.rank_le j
    rw [List.count_cons]
    simp only [beq_iff_eq]
    change ((run (execute answer) (execute answer s i) rest).stage j).rank ≤ _
    omega

/-- A schedule that lets every call return. -/
def rounds (calls : List Call) : List (Fin calls.length) :=
  (List.replicate 5 (List.finRange calls.length)).flatten

theorem count_rounds (i : Fin calls.length) : (rounds calls).count i = 5 := by
  have once := List.count_eq_one_of_mem (List.nodup_finRange _) (List.mem_finRange i)
  rw [rounds, List.count_flatten, List.map_replicate, once]
  rfl

theorem allReturned_rounds (lawful : Lawful registered answer s) :
    AllReturned (run (execute answer) s (rounds calls)) := by
  intro i
  have hrank := rank_run_le lawful (rounds calls) i
  have most : ∀ stage : Stage, stage.rank ≤ 5 := by
    intro stage
    cases stage <;> simp only [Stage.rank] <;> omega
  have hmost := most (s.stage i)
  rw [count_rounds] at hrank
  rw [isReturned_iff_rank]
  omega

/-- The first four steps of a call, taken without a pause. -/
theorem run_to_holding (runs : Runs registered answer i) (called : s.stage i = .called) :
    let next := run (execute answer) s [i, i, i, i]
    next.stage = Function.update s.stage i (.holding s.manager.summaries) ∧
      next.manager.summaries = s.manager.summaries := by
  obtain ⟨mm, hinstance⟩ := (s.manager.getMeasurementInstance_ok_iff (calls.get i)).mpr runs.1
  have hsummaries := Manager.getMeasurementInstance_summaries hinstance
  simp only [run, List.foldl_cons, List.foldl_nil, execute, called, hinstance, State.goTo,
    Function.update_self, runs.2, Function.update_idem, hsummaries, and_self]

theorem execute_holding (answer : Fin calls.length → Answer)
    {snapshot : List Summary} (held : s.stage i = .holding snapshot) :
    (execute answer s i).stage = Function.update s.stage i (.returned (answer i).err) ∧
      (execute answer s i).manager.summaries = snapshot ++ (answer i).summaries := by
  simp only [execute, held, State.goTo, and_self]

/-- While `late` holds its snapshot, `lost` executes as a whole. -/
def overtaking (late lost : Fin calls.length) : List (Fin calls.length) :=
  [late, late, late, late] ++ ([lost, lost, lost, lost] ++ [lost, late])

theorem overwritten_overtaking {late lost : Fin calls.length} (manager : Manager registered)
    (other : late ≠ lost) (lateRuns : Runs registered answer late)
    (lostRuns : Runs registered answer lost) :
    Overwritten answer manager.summaries lost
      (run (execute answer) (start manager) (overtaking late lost)) := by
  have initially : Lawful registered answer (start manager) := fun _ => trivial
  have lawful := lawful_run initially (overtaking late lost)
  obtain ⟨hstage₁, hsummaries₁⟩ := run_to_holding (s := start manager) lateRuns rfl
  set s₁ := run (execute answer) (start manager) [late, late, late, late]
  have called : s₁.stage lost = .called := by
    rw [hstage₁, Function.update_of_ne other.symm]
    rfl
  obtain ⟨hstage₂, -⟩ := run_to_holding (s := s₁) lostRuns called
  set s₂ := run (execute answer) s₁ [lost, lost, lost, lost]
  have heldLost : s₂.stage lost = .holding s₁.manager.summaries := by
    rw [hstage₂, Function.update_self]
  obtain ⟨hstage₃, -⟩ := execute_holding answer heldLost
  have heldLate : (execute answer s₂ lost).stage late = .holding manager.summaries := by
    rw [hstage₃, Function.update_of_ne other, hstage₂, Function.update_of_ne other, hstage₁,
      Function.update_self]
    rfl
  obtain ⟨hstage, hsummaries⟩ := execute_holding answer heldLate
  change Overwritten answer manager.summaries lost (execute answer (execute answer s₂ lost) late)
  set last := execute answer (execute answer s₂ lost) late
  have overLost : (last.stage lost).isReturned = true := by
    rw [hstage, Function.update_of_ne other.symm, hstage₃, Function.update_self]
    rfl
  have overLate : (last.stage late).isReturned = true := by
    rw [hstage, Function.update_self]
    rfl
  refine ⟨lawful, overLost, ?_, ?_⟩
  · have hlate : without answer registered lost late = (answer late).summaries := by
      rw [without, Function.update_of_ne other, returnedBy, if_pos lateRuns]
    rw [hsummaries, ← Multiset.coe_add, ← hlate]
    exact add_le_add_right (le_delivered overLate) _
  · intro i snapshot held
    by_cases isLate : i = late
    · rw [isLate] at held
      rw [held] at overLate
      cases overLate
    by_cases isLost : i = lost
    · rw [isLost] at held
      rw [held] at overLost
      cases overLost
    rw [hstage, Function.update_of_ne isLate, hstage₃, Function.update_of_ne isLost, hstage₂,
      Function.update_of_ne isLost, hstage₁, Function.update_of_ne isLate] at held
    cases held

end Schedules

/-- However the calls of a step interleave, the manager ends with every summary
they returned, each once, if and only if at most one of them runs its
measurement or none of them returns a summary. -/
theorem no_summary_lost_iff (registered : String → Bool) (manager : Manager registered)
    (step : Step) (answer : Fin (stepCalls step).length → Answer) :
    (∀ schedule, AllReturned (run (execute answer) (start manager) schedule) →
      ((run (execute answer) (start manager) schedule).manager.getSummaries : Multiset Summary) =
        manager.getSummaries + ∑ i, returnedBy registered answer i) ↔
      (∀ i j, Runs registered answer i → Runs registered answer j → i = j) ∨
        ∀ i, Runs registered answer i → (answer i).summaries = [] := by
  constructor
  · intro kept
    by_contra h
    rw [not_or] at h
    obtain ⟨several, some⟩ := h
    push Not at several some
    obtain ⟨lost, lostRuns, nonempty⟩ := some
    obtain ⟨late, other, lateRuns⟩ : ∃ late, late ≠ lost ∧ Runs registered answer late := by
      obtain ⟨i, j, iRuns, jRuns, different⟩ := several
      by_cases same : i = lost
      · exact ⟨j, fun h => different (same.trans h.symm), jRuns⟩
      · exact ⟨i, same, iRuns⟩
    have overtaken := overwritten_overtaking manager other lateRuns lostRuns
    have overwritten : Overwritten answer manager.summaries lost
        (run (execute answer) (start manager)
          (overtaking late lost ++ rounds (stepCalls step))) := by
      rw [run, List.foldl_append]
      exact List.foldlRecOn (rounds _) _ overtaken fun _ h _ _ => h.execute
    have all : AllReturned (run (execute answer) (start manager)
        (overtaking late lost ++ rounds (stepCalls step))) := by
      rw [run, List.foldl_append]
      exact allReturned_rounds overtaken.lawful
    refine overwritten.ne_all all ?_ (kept _ all)
    rw [returnedBy, if_pos lostRuns]
    exact fun h => nonempty ((Multiset.coe_eq_zero _).mp h)
  · intro condition schedule all
    have complete := List.foldlRecOn schedule _ (complete_start manager) fun _ h i _ =>
        h.execute (undisturbed_of h.lawful condition i)
    refine complete.summaries.trans (congrArg _ ?_)
    exact Finset.sum_congr rfl fun i _ => if_pos (all i)

section Sample

/-- Two instances of one measurement. -/
def sampleStep : Step where
  phases := []
  measurements := [⟨"Timer", "", [⟨"a"⟩, ⟨"b"⟩]⟩]
  moduleRef := ⟨"", none⟩
  name := "gather"

def sampleSummary (content : String) : Summary :=
  ⟨"Timer", "json", ⟨2024, 5, 6, 7, 8, 9, 0, 0⟩, content⟩

def sampleAnswer (i : Fin (stepCalls sampleStep).length) : Answer :=
  ⟨none, [sampleSummary (if i = ⟨0, by decide⟩ then "a" else "b")], none⟩

def sampleManager : Manager fun method => method = "Timer" := ⟨[], [], nofun⟩

/-- Both calls return without an error, and one summary is there. -/
theorem overtaken_summary_lost :
    let first : Fin (stepCalls sampleStep).length := ⟨0, by decide⟩
    let second : Fin (stepCalls sampleStep).length := ⟨1, by decide⟩
    let last := run (execute sampleAnswer) (start sampleManager) (overtaking first second)
    last.stage first = .returned none ∧ last.stage second = .returned none ∧
      last.manager.getSummaries = [sampleSummary "a"] := by
  decide +kernel

end Sample

end MeasurementCalls
