import Mathlib.Data.List.Perm.Basic

/-!
# Programs that act through typed requests

A program is a tree of requests; each request has its own reply type, and the
reply selects the rest of the program. A handler answers requests against a
world. The same program can therefore be run alone, interleaved with others,
or studied under every reply at once. Nothing here depends on what the
requests mean.
-/

namespace RequestPrograms

universe u v w x y

/-- A finite-depth program over requests `Req`, replies `Rep` and result `A`. -/
inductive Prog (Req : Type u) (Rep : Req → Type v) (A : Type w) where
  | done (a : A)
  | ask (q : Req) (next : Rep q → Prog Req Rep A)

/-- A handler answers one request and moves the world. -/
abbrev Handler (Req : Type u) (Rep : Req → Type v) (W : Type x) :=
  (q : Req) → W → Rep q × W

/-- A request together with the reply it received. -/
abbrev Event {Req : Type u} (Rep : Req → Type v) := Sigma Rep

namespace Prog

variable {Req : Type u} {Rep : Req → Type v} {A B : Type w} {W : Type x}

def bind (p : Prog Req Rep A) (next : A → Prog Req Rep B) : Prog Req Rep B :=
  match p with
  | .done a => next a
  | .ask q rest => .ask q (fun r => (rest r).bind next)

instance : Monad (Prog Req Rep) where
  pure := .done
  bind := bind

/-- The program consisting of a single request. -/
def request (q : Req) : Prog Req Rep (Rep q) := .ask q .done

@[simp] theorem pure_eq (a : A) : (pure a : Prog Req Rep A) = .done a := rfl

@[simp] theorem done_bind (a : A) (next : A → Prog Req Rep B) :
    (Prog.done a >>= next) = next a := rfl

@[simp] theorem ask_bind (q : Req) (rest : Rep q → Prog Req Rep A)
    (next : A → Prog Req Rep B) :
    (Prog.ask q rest >>= next) = .ask q (fun r => rest r >>= next) := rfl

@[simp] theorem request_bind {Rep : Req → Type w} (q : Req) (next : Rep q → Prog Req Rep B) :
    (request q >>= next) = .ask q next := rfl

/-- The result of a finished program. -/
def value : Prog Req Rep A → Option A
  | .done a => some a
  | .ask _ _ => none

variable {p : Prog Req Rep A} {a : A}

theorem value_eq_some : p.value = some a ↔ p = .done a := by
  cases p <;> simp [value]

def run (h : Handler Req Rep W) : Prog Req Rep A → W → A × W
  | .done a, w => (a, w)
  | .ask q next, w => run h (next (h q w).1) (h q w).2

/-- The requests made by a run, each with its reply. -/
def trace (h : Handler Req Rep W) : Prog Req Rep A → W → List (Event Rep)
  | .done _, _ => []
  | .ask q next, w => ⟨q, (h q w).1⟩ :: trace h (next (h q w).1) (h q w).2

variable (h : Handler Req Rep W)

@[simp] theorem run_done (a : A) (w : W) : run h (.done a) w = (a, w) := rfl

@[simp] theorem run_ask (q : Req) (next : Rep q → Prog Req Rep A) (w : W) :
    run h (.ask q next) w = run h (next (h q w).1) (h q w).2 := rfl

theorem run_bind (p : Prog Req Rep A) (next : A → Prog Req Rep B) (w : W) :
    run h (p >>= next) w = run h (next (run h p w).1) (run h p w).2 := by
  induction p generalizing w with
  | done a => rfl
  | ask q rest ih => exact ih (h q w).1 (h q w).2

theorem trace_bind (p : Prog Req Rep A) (next : A → Prog Req Rep B) (w : W) :
    trace h (p >>= next) w = trace h p w ++ trace h (next (run h p w).1) (run h p w).2 := by
  induction p generalizing w with
  | done a => rfl
  | ask q rest ih =>
    rw [ask_bind]
    simp only [trace, run, List.cons_append]
    rw [ih]

/-- Every reply in a trace was given by the handler in some world. -/
theorem trace_reply (p : Prog Req Rep A) (w : W) {e : Event Rep} (he : e ∈ trace h p w) :
    ∃ w', e.2 = (h e.1 w').1 := by
  induction p generalizing w with
  | done a => cases he
  | ask q next ih =>
    rcases List.mem_cons.mp he with rfl | he
    · exact ⟨w, rfl⟩
    · exact ih _ _ he

/-- The world after a list of requests, whatever program issued them. -/
def replay (h : Handler Req Rep W) (t : List (Event Rep)) (w : W) : W :=
  t.foldl (fun w e => (h e.1 w).2) w

theorem run_world (p : Prog Req Rep A) (w : W) : (run h p w).2 = replay h (trace h p w) w := by
  induction p generalizing w with
  | done a => rfl
  | ask q next ih => exact ih _ _

/-- The replies of `t` are those the handler gives when the requests of `t`
are made one after the other. -/
def Replays (h : Handler Req Rep W) : List (Event Rep) → W → Prop
  | [], _ => True
  | ⟨q, r⟩ :: t, w => r = (h q w).1 ∧ Replays h t (h q w).2

theorem trace_replays (p : Prog Req Rep A) (w : W) : Replays h (trace h p w) w := by
  induction p generalizing w with
  | done a => trivial
  | ask q next ih => exact ⟨rfl, ih _ _⟩

/-- What every request of `t` keeps is kept by all of them together. -/
theorem replay_keeps {β : Type y} {h : Handler Req Rep W} (observe : W → β)
    {t : List (Event Rep)} {w : W} (hr : Replays h t w)
    (keep : ∀ q w', ⟨q, (h q w').1⟩ ∈ t → observe (h q w').2 = observe w') :
    observe (replay h t w) = observe w := by
  induction t generalizing w with
  | nil => rfl
  | cons e t ih =>
    obtain ⟨q, r⟩ := e
    obtain ⟨rfl, hr⟩ := hr
    have hrest := ih hr (fun q' w' hmem => keep q' w' (List.mem_cons_of_mem _ hmem))
    exact hrest.trans (keep q w List.mem_cons_self)

/-- `Exec p t a`: under the replies recorded in `t` the program `p` makes
exactly the requests of `t` and returns `a`. No handler is involved. -/
inductive Exec : Prog Req Rep A → List (Event Rep) → A → Prop where
  | done (a : A) : Exec (.done a) [] a
  | ask {q : Req} {next : Rep q → Prog Req Rep A} {r : Rep q}
      {t : List (Event Rep)} {a : A} (tail : Exec (next r) t a) :
      Exec (.ask q next) (⟨q, r⟩ :: t) a

theorem run_exec (p : Prog Req Rep A) (w : W) :
    Exec p (trace h p w) (run h p w).1 := by
  induction p generalizing w with
  | done a => exact .done a
  | ask q next ih => exact .ask (ih _ _)

variable {t : List (Event Rep)}

theorem exec_done {b : A} (he : Exec (.done a : Prog Req Rep A) t b) : t = [] ∧ b = a := by
  cases he
  exact ⟨rfl, rfl⟩

theorem exec_ask {q : Req} {next : Rep q → Prog Req Rep A} (he : Exec (.ask q next) t a) :
    ∃ r t', t = ⟨q, r⟩ :: t' ∧ Exec (next r) t' a := by
  cases he with
  | ask tail => exact ⟨_, _, rfl, tail⟩

theorem exec_request_bind {Rep : Req → Type w} {q : Req} {next : Rep q → Prog Req Rep B}
    {t : List (Event Rep)} {b : B} (he : Exec (request q >>= next) t b) :
    ∃ r t', t = ⟨q, r⟩ :: t' ∧ Exec (next r) t' b :=
  exec_ask he

theorem exec_bind {next : A → Prog Req Rep B} {b : B} (he : Exec (p >>= next) t b) :
    ∃ t₁ a t₂, t = t₁ ++ t₂ ∧ Exec p t₁ a ∧ Exec (next a) t₂ b := by
  induction p generalizing t with
  | done a => exact ⟨[], a, t, rfl, .done a, he⟩
  | ask q rest ih =>
    obtain ⟨r, t', rfl, tail⟩ := exec_ask he
    obtain ⟨t₁, a, t₂, rfl, h₁, h₂⟩ := ih r tail
    exact ⟨⟨q, r⟩ :: t₁, a, t₂, rfl, .ask h₁, h₂⟩

/-- Whatever replies the program gets, what it asked and what it returns are
related by `Q`. -/
def Ensures (Q : List (Event Rep) → A → Prop) (p : Prog Req Rep A) : Prop :=
  ∀ t a, Exec p t a → Q t a

theorem ensures_done {Q : List (Event Rep) → A → Prop} (h : Q [] a) :
    (.done a : Prog Req Rep A).Ensures Q := by
  intro t b he
  obtain ⟨rfl, rfl⟩ := exec_done he
  exact h

theorem ensures_ask {Q : List (Event Rep) → A → Prop} {q : Req} {next : Rep q → Prog Req Rep A}
    (h : ∀ r, (next r).Ensures fun t a => Q (⟨q, r⟩ :: t) a) : (Prog.ask q next).Ensures Q := by
  intro t a he
  obtain ⟨r, t', rfl, tail⟩ := exec_ask he
  exact h r t' a tail

theorem ensures_request_bind {Rep : Req → Type w} {Q : List (Event Rep) → B → Prop} {q : Req}
    {next : Rep q → Prog Req Rep B} (h : ∀ r, (next r).Ensures fun t b => Q (⟨q, r⟩ :: t) b) :
    (request q >>= next).Ensures Q :=
  ensures_ask h

theorem ensures_bind {R : List (Event Rep) → A → Prop} {Q : List (Event Rep) → B → Prop}
    {next : A → Prog Req Rep B} (hp : p.Ensures R)
    (hnext : ∀ t a, R t a → (next a).Ensures fun t' b => Q (t ++ t') b) :
    (p >>= next).Ensures Q := by
  intro t b he
  obtain ⟨t₁, a, t₂, rfl, h₁, h₂⟩ := exec_bind he
  exact hnext t₁ a (hp t₁ a h₁) t₂ b h₂

/-- Every request reachable through replies satisfying `ok` satisfies `allowed`. -/
def Uses (ok : (q : Req) → Rep q → Prop) (allowed : Req → Prop) : Prog Req Rep A → Prop
  | .done _ => True
  | .ask q next => allowed q ∧ ∀ r, ok q r → (next r).Uses ok allowed

section Uses
variable {ok : (q : Req) → Rep q → Prop} {allowed : Req → Prop}
variable {p : Prog Req Rep A}

theorem uses_bind {next : A → Prog Req Rep B}
    (hp : p.Uses ok allowed) (hnext : ∀ a, (next a).Uses ok allowed) :
    (p >>= next).Uses ok allowed := by
  induction p with
  | done a => exact hnext a
  | ask q rest ih => exact ⟨hp.1, fun r hr => ih r (hp.2 r hr)⟩

theorem uses_request_bind {Rep : Req → Type w} {ok : (q : Req) → Rep q → Prop} {q : Req}
    {next : Rep q → Prog Req Rep B} (hq : allowed q)
    (hnext : ∀ r, ok q r → (next r).Uses ok allowed) : (request q >>= next).Uses ok allowed :=
  ⟨hq, hnext⟩

/-- The rest of a program only matters for the results the first part can have. -/
theorem uses_bind_exec {next : A → Prog Req Rep B} (hp : p.Uses ok allowed)
    (hnext : ∀ a t, Exec p t a → (∀ e ∈ t, ok e.1 e.2) → (next a).Uses ok allowed) :
    (p >>= next).Uses ok allowed := by
  induction p with
  | done a => exact hnext a [] (.done a) (by simp)
  | ask q rest ih =>
    refine ⟨hp.1, fun r hr => ih r (hp.2 r hr) (fun a t he hok => ?_)⟩
    refine hnext a (⟨q, r⟩ :: t) (.ask he) (fun e hmem => ?_)
    rcases List.mem_cons.mp hmem with rfl | hmem
    · exact hr
    · exact hok e hmem

theorem uses_exec (hp : p.Uses ok allowed) {a : A}
    (he : Exec p t a) (hok : ∀ e ∈ t, ok e.1 e.2) : ∀ e ∈ t, allowed e.1 := by
  induction he with
  | done a => exact fun e hmem => absurd hmem List.not_mem_nil
  | ask tail ih =>
    intro e hmem
    have hrest := ih (hp.2 _ (hok _ List.mem_cons_self)) fun e he =>
      hok e (List.mem_cons_of_mem _ he)
    rcases List.mem_cons.mp hmem with rfl | hmem
    · exact hp.1
    · exact hrest e hmem

/-- What holds of every event of the requests a program may make holds of all
it makes. -/
theorem ensures_forall {P : Event Rep → Prop}
    (hp : p.Uses (fun _ _ => True) fun q => ∀ r, P ⟨q, r⟩) :
    p.Ensures fun t _ => ∀ e ∈ t, P e :=
  fun _ _ he e hmem => uses_exec hp he (fun _ _ => trivial) e hmem e.2

theorem uses_trace {h : Handler Req Rep W} (hok : ∀ q w, ok q (h q w).1)
    (hp : p.Uses ok allowed) (w : W) {e : Event Rep} (he : e ∈ trace h p w) : allowed e.1 := by
  induction p generalizing w with
  | done a => cases he
  | ask q next ih =>
    rcases List.mem_cons.mp he with rfl | he
    · exact hp.1
    · exact ih _ (hp.2 _ (hok q w)) _ he

end Uses

/-- Run a list of programs one after the other. -/
def sequence : List (Prog Req Rep A) → Prog Req Rep (List A)
  | [] => .done []
  | p :: ps => do
    let a ← p
    let as ← sequence ps
    return a :: as

/-- Run a pool of programs under a schedule: each entry lets the named program
make its next request. Entries naming a finished program are ignored, and what
is left when the schedule ends runs in order, so every interleaving arises. -/
def interleave : List Nat → List (Prog Req Rep A) → Prog Req Rep (List A)
  | [], ps => sequence ps
  | i :: schedule, ps =>
    match ps[i]? with
    | some (.ask q next) => .ask q (fun r => interleave schedule (ps.set i (next r)))
    | _ => interleave schedule ps

variable {ps : List (Prog Req Rep A)}

theorem uses_sequence {ok : (q : Req) → Rep q → Prop} {allowed : Req → Prop}
    (hps : ∀ p ∈ ps, p.Uses ok allowed) : (sequence ps).Uses ok allowed := by
  induction ps with
  | nil => trivial
  | cons p ps ih =>
    refine uses_bind (hps p List.mem_cons_self) (fun a => ?_)
    exact uses_bind (ih (fun p hp => hps p (List.mem_cons_of_mem _ hp))) (fun _ => trivial)

theorem uses_interleave {ok : (q : Req) → Rep q → Prop} {allowed : Req → Prop}
    (schedule : List Nat) (hps : ∀ p ∈ ps, p.Uses ok allowed) :
    (interleave schedule ps).Uses ok allowed := by
  induction schedule generalizing ps with
  | nil => exact uses_sequence hps
  | cons i schedule ih =>
    rw [interleave]
    split
    · rename_i q next hi
      have hp := hps _ (List.mem_of_getElem? hi)
      refine ⟨hp.1, fun r hr => ih (fun p hmem => ?_)⟩
      rcases List.mem_or_eq_of_mem_set hmem with hmem | rfl
      · exact hps p hmem
      · exact hp.2 r hr
    · exact ih hps

/-- The executions of a pool: one execution per program, with the requests of
the pool in some order that contains them all. -/
def Execs : List (Prog Req Rep A) → List (Event Rep) → List A → Prop
  | [], t, as => t = [] ∧ as = []
  | p :: ps, t, as => ∃ t₁ a t₂ as', as = a :: as' ∧ Exec p t₁ a ∧
      Execs ps t₂ as' ∧ t.Perm (t₁ ++ t₂)

variable {as : List A}

theorem exec_sequence (he : Exec (sequence ps) t as) : Execs ps t as := by
  induction ps generalizing t as with
  | nil => exact exec_done he
  | cons p ps ih =>
    obtain ⟨t₁, a, t₂, rfl, h₁, h₂⟩ := exec_bind he
    obtain ⟨t₃, as', t₄, rfl, h₃, h₄⟩ := exec_bind h₂
    obtain ⟨rfl, rfl⟩ := exec_done h₄
    exact ⟨t₁, a, t₃, as', rfl, h₁, ih h₃, by rw [List.append_nil]⟩

/-- A request made by the program at position `i` can be put in front of its
execution without disturbing the others. -/
theorem execs_ask {i : Nat} {q : Req}
    {next : Rep q → Prog Req Rep A} (hi : ps[i]? = some (.ask q next)) {r : Rep q}
    (he : Execs (ps.set i (next r)) t as) :
    Execs ps (⟨q, r⟩ :: t) as := by
  induction ps generalizing i t as with
  | nil => cases hi
  | cons p ps ih =>
    cases i with
    | zero =>
      obtain rfl : p = .ask q next := by simpa using hi
      obtain ⟨t₁, a, t₂, as', rfl, h₁, h₂, hperm⟩ := he
      exact ⟨⟨q, r⟩ :: t₁, a, t₂, as', rfl, .ask h₁, h₂, hperm.cons _⟩
    | succ i =>
      obtain ⟨t₁, a, t₂, as', rfl, h₁, h₂, hperm⟩ := he
      exact ⟨t₁, a, ⟨q, r⟩ :: t₂, as', rfl, h₁, ih (by simpa using hi) h₂,
        (hperm.cons _).trans List.perm_middle.symm⟩

theorem exec_interleave {schedule : List Nat} (he : Exec (interleave schedule ps) t as) :
    Execs ps t as := by
  induction schedule generalizing ps t with
  | nil => exact exec_sequence he
  | cons i schedule ih =>
    rw [interleave] at he
    split at he
    · rename_i q next hi
      obtain ⟨r, t', rfl, tail⟩ := exec_ask he
      exact execs_ask hi (ih tail)
    · exact ih he

/-- The programs of a pool have executions of their own, which make up its results
and its events. -/
theorem execs_parts (he : Execs ps t as) :
    ∃ runs : List (Prog Req Rep A × List (Event Rep) × A),
      (∀ r ∈ runs, Exec r.1 r.2.1 r.2.2) ∧ ps = runs.map (·.1) ∧ as = runs.map (·.2.2) ∧
        ∀ e, e ∈ t ↔ ∃ r ∈ runs, e ∈ r.2.1 := by
  induction ps generalizing t as with
  | nil =>
    obtain ⟨rfl, rfl⟩ := he
    exact ⟨[], nofun, rfl, rfl, by simp⟩
  | cons p ps ih =>
    obtain ⟨t₁, a, t₂, as', rfl, h₁, h₂, hperm⟩ := he
    obtain ⟨runs, hruns, rfl, rfl, hmem⟩ := ih h₂
    refine ⟨(p, t₁, a) :: runs, List.forall_mem_cons.mpr ⟨h₁, hruns⟩, rfl, rfl, fun e => ?_⟩
    rw [hperm.mem_iff, List.mem_append, hmem, List.exists_mem_cons_iff]

end Prog
end RequestPrograms
