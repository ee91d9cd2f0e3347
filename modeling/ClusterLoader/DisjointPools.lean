import ClusterLoader.RequestPrograms
import Mathlib.Data.Set.Basic

/-!
# Pools of programs with disjoint footprints

A world is observed through its locations. When every request reads and
changes only the locations it touches, and the programs of a pool keep to
pairwise disjoint footprints, each program behaves as if it ran alone: its
result and its part of the final world do not depend on the schedule. Running
the pool one program after the other is one such schedule among many.
-/

namespace DisjointPools

open RequestPrograms RequestPrograms.Prog

universe u v w x y z

variable {Req : Type u} {Rep : Req → Type v} {A : Type w} {W : Type x}
variable {K : Type y} {V : K → Type z}

/-- The handler works location by location. -/
structure Local (h : Handler Req Rep W) (view : W → (k : K) → V k)
    (touches : Req → K → Prop) : Prop where
  frame : ∀ q w k, ¬ touches q k → view (h q w).2 k = view w k
  reply : ∀ q w w', (∀ k, touches q k → view w k = view w' k) → (h q w).1 = (h q w').1
  effect : ∀ q w w', (∀ k, touches q k → view w k = view w' k) →
    ∀ k, touches q k → view (h q w).2 k = view (h q w').2 k

def Agree (view : W → (k : K) → V k) (F : Set K) (w w' : W) : Prop :=
  ∀ k ∈ F, view w k = view w' k

/-- Under replies satisfying `ok`, every request of `p` keeps to `F`. -/
def Within (touches : Req → K → Prop) (ok : (q : Req) → Rep q → Prop) (F : Set K)
    (p : Prog Req Rep A) : Prop :=
  p.Uses ok (fun q => ∀ k, touches q k → k ∈ F)

section Solo
variable {h : Handler Req Rep W} {view : W → (k : K) → V k} {touches : Req → K → Prop}
variable {ok : (q : Req) → Rep q → Prop} {F : Set K}

theorem handler_agree (hl : Local h view touches) {q : Req}
    (hq : ∀ k, touches q k → k ∈ F) {w w' : W} (ha : Agree view F w w') :
    (h q w).1 = (h q w').1 ∧ Agree view F (h q w).2 (h q w').2 := by
  have hon : ∀ k, touches q k → view w k = view w' k := fun k hk => ha k (hq k hk)
  refine ⟨hl.reply q w w' hon, fun k hk => ?_⟩
  by_cases ht : touches q k
  · exact hl.effect q w w' hon k ht
  · rw [hl.frame q w k ht, hl.frame q w' k ht]
    exact ha k hk

/-- A program confined to `F` cannot tell apart worlds agreeing on `F`. -/
theorem run_agree (hl : Local h view touches) (hok : ∀ q w, ok q (h q w).1)
    {p : Prog Req Rep A} (hp : Within touches ok F p) {w w' : W} (ha : Agree view F w w') :
    (run h p w).1 = (run h p w').1 ∧ Agree view F (run h p w).2 (run h p w').2 := by
  induction p generalizing w w' with
  | done a => exact ⟨rfl, ha⟩
  | ask q next ih =>
    obtain ⟨hr, hw⟩ := handler_agree hl hp.1 ha
    have tail := ih (h q w).1 (hp.2 _ (hok q w)) hw
    simpa only [run_ask, hr] using tail

theorem run_frame (hl : Local h view touches) (hok : ∀ q w, ok q (h q w).1)
    {p : Prog Req Rep A} (hp : Within touches ok F p) (w : W) {k : K} (hk : k ∉ F) :
    view (run h p w).2 k = view w k := by
  induction p generalizing w with
  | done a => rfl
  | ask q next ih =>
    rw [run_ask, ih _ (hp.2 _ (hok q w))]
    exact hl.frame q w k (fun ht => hk (hp.1 k ht))

end Solo

variable {ι : Type} [DecidableEq ι]

/-- Let program `i` make its next request; a finished program does nothing. -/
def stepAt (h : Handler Req Rep W) (s : (ι → Prog Req Rep A) × W) (i : ι) :
    (ι → Prog Req Rep A) × W :=
  match s.1 i with
  | .done _ => s
  | .ask q next => (Function.update s.1 i (next (h q s.2).1), (h q s.2).2)

/-- Run a pool under a schedule naming the program that moves next. -/
def runPool (h : Handler Req Rep W) (schedule : List ι) (s : (ι → Prog Req Rep A) × W) :
    (ι → Prog Req Rep A) × W :=
  schedule.foldl (stepAt h) s

/-- All programs have finished, with the given results. -/
def Finished (s : (ι → Prog Req Rep A) × W) (result : ι → A) : Prop :=
  ∀ i, s.1 i = .done (result i)

/-- Run whole programs one after the other. -/
def runSerial (h : Handler Req Rep W) (pool : ι → Prog Req Rep A) : List ι → W → List A × W
  | [], w => ([], w)
  | i :: order, w =>
    let first := run h (pool i) w
    let rest := runSerial h pool order first.2
    (first.1 :: rest.1, rest.2)

section Pool
variable {h : Handler Req Rep W} {view : W → (k : K) → V k} {touches : Req → K → Prop}
variable {ok : (q : Req) → Rep q → Prop} {F : ι → Set K}

/-- The invariant of a pool run. Each program has a private world, agreeing
with the shared one on its footprint, in which its remaining part still leads
to the result of running it alone from the start. -/
structure Private (h : Handler Req Rep W) (view : W → (k : K) → V k)
    (touches : Req → K → Prop) (ok : (q : Req) → Rep q → Prop) (F : ι → Set K)
    (pool : ι → Prog Req Rep A) (start : W) (s : (ι → Prog Req Rep A) × W) : Prop where
  within : ∀ i, Within touches ok (F i) (s.1 i)
  solo : ∀ i, ∃ w, Agree view (F i) w s.2 ∧ run h (s.1 i) w = run h (pool i) start
  outside : ∀ k, (∀ i, k ∉ F i) → view s.2 k = view start k

omit [DecidableEq ι] in
theorem private_start (h : Handler Req Rep W) (view : W → (k : K) → V k)
    (pool : ι → Prog Req Rep A) (start : W)
    (hp : ∀ i, Within touches ok (F i) (pool i)) :
    Private h view touches ok F pool start (pool, start) :=
  ⟨hp, fun _ => ⟨start, fun _ _ => rfl, rfl⟩, fun _ _ => rfl⟩

variable {pool : ι → Prog Req Rep A} {start : W}

/-- What a finished pool must look like, whatever the schedule was. -/
structure Settled (h : Handler Req Rep W) (view : W → (k : K) → V k) (F : ι → Set K)
    (pool : ι → Prog Req Rep A) (start final : W) : Prop where
  inside : ∀ i, Agree view (F i) final (run h (pool i) start).2
  outside : ∀ k, (∀ i, k ∉ F i) → view final k = view start k

omit [DecidableEq ι] in
theorem settled_unique {final final' : W}
    (hf : Settled h view F pool start final) (hf' : Settled h view F pool start final') :
    ∀ k, view final k = view final' k := by
  intro k
  by_cases hk : ∃ i, k ∈ F i
  · obtain ⟨i, hi⟩ := hk
    exact (hf.inside i k hi).trans (hf'.inside i k hi).symm
  · have hout : ∀ i, k ∉ F i := fun i hi => hk ⟨i, hi⟩
    exact (hf.outside k hout).trans (hf'.outside k hout).symm

variable (hl : Local h view touches) (hok : ∀ q w, ok q (h q w).1)
variable (disjoint : ∀ i j, i ≠ j → ∀ k, k ∈ F i → k ∉ F j)

include hl hok disjoint

variable {s : (ι → Prog Req Rep A) × W}

theorem private_step (hs : Private h view touches ok F pool start s) (i : ι) :
    Private h view touches ok F pool start (stepAt h s i) := by
  obtain ⟨ps, w⟩ := s
  cases hi : ps i with
  | done a => simpa only [stepAt, hi] using hs
  | ask q next =>
    have hwi : Within touches ok (F i) (.ask q next) := hi ▸ hs.within i
    simp only [stepAt, hi]
    refine ⟨fun j => ?_, fun j => ?_, fun k hk => ?_⟩
    · by_cases hj : j = i
      · subst j
        simp only [Function.update_self]
        exact hwi.2 _ (hok q w)
      · simpa only [Function.update_of_ne hj] using hs.within j
    · obtain ⟨wj, hagree, hrun⟩ := hs.solo j
      by_cases hj : j = i
      · subst j
        obtain ⟨hreply, heffect⟩ := handler_agree hl hwi.1 hagree
        refine ⟨(h q wj).2, heffect, ?_⟩
        simp only [hi, run_ask] at hrun
        simpa only [Function.update_self, ← hreply] using hrun
      · refine ⟨wj, fun k hk => ?_, by simpa only [Function.update_of_ne hj] using hrun⟩
        have hkeep := hl.frame q w k (fun ht => disjoint i j (Ne.symm hj) k (hwi.1 k ht) hk)
        rw [hkeep]
        exact hagree k hk
    · rw [hl.frame q w k (fun ht => hk i (hwi.1 k ht))]
      exact hs.outside k hk

theorem private_runPool (hs : Private h view touches ok F pool start s) (schedule : List ι) :
    Private h view touches ok F pool start (runPool h schedule s) := by
  induction schedule generalizing s with
  | nil => exact hs
  | cons i schedule ih => exact ih (private_step hl hok disjoint hs i)

variable (hp : ∀ i, Within touches ok (F i) (pool i)) (start : W)

include hp

/-- Every complete interleaving gives each program its solo result and leaves
each footprint as the solo run would. -/
theorem runPool_settled (schedule : List ι) {result : ι → A}
    (hfin : Finished (runPool h schedule (pool, start)) result) :
    (∀ i, result i = (run h (pool i) start).1) ∧
      Settled h view F pool start (runPool h schedule (pool, start)).2 := by
  have hs := private_runPool hl hok disjoint (private_start h view pool start hp) schedule
  have hsolo : ∀ i, result i = (run h (pool i) start).1 ∧
      Agree view (F i) (runPool h schedule (pool, start)).2 (run h (pool i) start).2 := by
    intro i
    obtain ⟨w, hagree, hrun⟩ := hs.solo i
    rw [hfin i] at hrun
    rw [← hrun]
    exact ⟨rfl, fun k hk => (hagree k hk).symm⟩
  exact ⟨fun i => (hsolo i).1, fun i => (hsolo i).2, hs.outside⟩

omit [DecidableEq ι] in
/-- Running whole programs in any order without repetition: programs already
run have settled, programs still to run see their footprint untouched. -/
theorem runSerial_agree (order : List ι) (nodup : order.Nodup) {w : W}
    (fresh : ∀ i ∈ order, Agree view (F i) w start) :
    (runSerial h pool order w).1 = order.map (fun i => (run h (pool i) start).1) ∧
      (∀ i ∈ order, Agree view (F i) (runSerial h pool order w).2 (run h (pool i) start).2) ∧
      ∀ k, (∀ i ∈ order, k ∉ F i) → view (runSerial h pool order w).2 k = view w k := by
  induction order generalizing w with
  | nil => exact ⟨rfl, by simp, fun _ _ => rfl⟩
  | cons i order ih =>
    obtain ⟨hnot, hnodup⟩ := List.nodup_cons.mp nodup
    obtain ⟨hfirst, hworld⟩ := run_agree hl hok (hp i) (fresh i List.mem_cons_self)
    have hrest : ∀ j ∈ order, Agree view (F j) (run h (pool i) w).2 start := by
      intro j hj k hk
      have hne : i ≠ j := fun heq => hnot (heq ▸ hj)
      rw [run_frame hl hok (hp i) w (fun hki => disjoint i j hne k hki hk)]
      exact fresh j (List.mem_cons_of_mem _ hj) k hk
    obtain ⟨hres, hin, hout⟩ := ih hnodup hrest
    refine ⟨?_, fun j hj => ?_, fun k hk => ?_⟩
    · simp only [runSerial, List.map_cons, hres, hfirst]
    · rcases List.mem_cons.mp hj with rfl | hj
      · intro k hk
        have hlater : ∀ l ∈ order, k ∉ F l := fun l hlo =>
          disjoint j l (fun heq => hnot (heq ▸ hlo)) k hk
        exact (hout k hlater).trans (hworld k hk)
      · exact hin j hj
    · have hkeep := hout k (fun j hj => hk j (List.mem_cons_of_mem _ hj))
      exact hkeep.trans (run_frame hl hok (hp i) w (hk i List.mem_cons_self))

omit [DecidableEq ι] in
theorem runSerial_settled {order : List ι} (nodup : order.Nodup) (all : ∀ i, i ∈ order) :
    (runSerial h pool order start).1 = order.map (fun i => (run h (pool i) start).1) ∧
      Settled h view F pool start (runSerial h pool order start).2 := by
  obtain ⟨hres, hin, hout⟩ := runSerial_agree hl hok disjoint hp start order nodup
    (fun _ _ _ _ => rfl)
  exact ⟨hres, fun i => hin i (all i), fun k hk => hout k (fun i _ => hk i)⟩

/-- The schedule is invisible: a complete interleaving and a serial execution
in any order give every program the same result and reach the same world. -/
theorem interleaving_eq_serial (schedule : List ι) {result : ι → A}
    (hfin : Finished (runPool h schedule (pool, start)) result)
    {order : List ι} (nodup : order.Nodup) (all : ∀ i, i ∈ order) :
    (runSerial h pool order start).1 = order.map result ∧
      ∀ k, view (runPool h schedule (pool, start)).2 k =
        view (runSerial h pool order start).2 k := by
  obtain ⟨hres, hpool⟩ := runPool_settled hl hok disjoint hp start schedule hfin
  obtain ⟨hser, hserial⟩ := runSerial_settled hl hok disjoint hp start nodup all
  refine ⟨?_, settled_unique hpool hserial⟩
  rw [hser]
  exact List.map_congr_left (fun i _ => (hres i).symm)

end Pool
end DisjointPools
