import Mathlib.Data.List.Basic

/-!
# Runs of a system whose actions may be disabled

`step s a` is `none` where the action `a` cannot be taken in `s`. A run takes
one action after another; it exists only if each of them is enabled when its
turn comes.
-/

namespace EnabledRuns

universe u v

variable {S : Type u} {A : Type v}

def exec (step : S → A → Option S) (s : S) (actions : List A) : Option S :=
  actions.foldlM step s

variable {step : S → A → Option S} {s t : S} {a : A} {actions before after : List A}

theorem exec_cons : exec step s (a :: actions) = (step s a).bind (exec step · actions) := rfl

theorem exec_append :
    exec step s (before ++ after) = (exec step s before).bind (exec step · after) :=
  List.foldlM_append

variable {u : S}

theorem exec_cons_of (h : step s a = some u) :
    exec step s (a :: actions) = exec step u actions := by
  rw [exec_cons, h, Option.bind_some]

theorem exec_append_of (h : exec step s before = some u) :
    exec step s (before ++ after) = exec step u after := by
  rw [exec_append, h, Option.bind_some]

theorem exec_cons_some (h : exec step s (a :: actions) = some t) :
    ∃ u, step s a = some u ∧ exec step u actions = some t :=
  Option.bind_eq_some_iff.mp h

theorem exec_append_some (h : exec step s (before ++ after) = some t) :
    ∃ u, exec step s before = some u ∧ exec step u after = some t := by
  rw [exec_append] at h
  exact Option.bind_eq_some_iff.mp h

variable {p : S → Prop}

/-- What every action of the run keeps holds at its end. -/
theorem exec_keeps (kept : ∀ s a t, a ∈ actions → p s → step s a = some t → p t)
    (holds : p s) (h : exec step s actions = some t) : p t := by
  induction actions generalizing s with
  | nil =>
    cases h
    exact holds
  | cons a rest ih =>
    obtain ⟨u, first, others⟩ := exec_cons_some h
    refine ih (fun s b t hmem => kept s b t (List.mem_cons_of_mem a hmem)) ?_ others
    exact kept s a u List.mem_cons_self holds first

/-- Where an action of the run is taken, what the others keep still holds. -/
theorem exec_enabled (kept : ∀ s a t, a ∈ actions → p s → step s a = some t → p t)
    (holds : p s) (h : exec step s actions = some t) (hmem : a ∈ actions) :
    ∃ u v rest, p u ∧ step u a = some v ∧ rest ⊆ actions ∧ exec step v rest = some t := by
  obtain ⟨before, after, rfl⟩ := List.append_of_mem hmem
  obtain ⟨u, first, others⟩ := exec_append_some h
  obtain ⟨v, taken, others⟩ := exec_cons_some others
  refine ⟨u, v, after, ?_, taken, fun b hb => by simp [hb], others⟩
  exact exec_keeps (fun s b t hb => kept s b t (List.mem_append_left _ hb)) holds first

/-- A run of allowed actions leads from the first state to the second. -/
def Reaches (step : S → A → Option S) (allowed : A → Prop) (s t : S) : Prop :=
  ∃ actions, (∀ a ∈ actions, allowed a) ∧ exec step s actions = some t

variable {allowed : A → Prop}

theorem Reaches.refl (s : S) : Reaches step allowed s s := ⟨[], nofun, rfl⟩

theorem Reaches.head (ok : allowed a) (first : step s a = some u)
    (rest : Reaches step allowed u t) : Reaches step allowed s t := by
  obtain ⟨actions, all, h⟩ := rest
  exact ⟨a :: actions, List.forall_mem_cons.mpr ⟨ok, all⟩, (exec_cons_of first).trans h⟩

theorem Reaches.trans (first : Reaches step allowed s u)
    (rest : Reaches step allowed u t) : Reaches step allowed s t := by
  obtain ⟨before, all, h⟩ := first
  obtain ⟨after, all', h'⟩ := rest
  refine ⟨before ++ after, fun a ha => ?_, (exec_append_of h).trans h'⟩
  exact (List.mem_append.mp ha).elim (all a) (all' a)

theorem Reaches.keeps (kept : ∀ s a t, allowed a → p s → step s a = some t → p t)
    (h : Reaches step allowed s t) (holds : p s) : p t := by
  obtain ⟨actions, all, h⟩ := h
  exact exec_keeps (fun s a t ha => kept s a t (all a ha)) holds h

theorem Reaches.single (ok : allowed a) (first : step s a = some u) : Reaches step allowed s u :=
  .head ok first (.refl u)

/-- Wherever allowed actions lead, further ones can still come to the goal. -/
def Live (step : S → A → Option S) (allowed : A → Prop) (goal : S → Prop) (s : S) : Prop :=
  ∀ t, Reaches step allowed s t → ∃ u, Reaches step allowed t u ∧ goal u

variable {q goal : S → Prop}

theorem live_of_keeps (kept : ∀ s a t, allowed a → q s → step s a = some t → q t)
    (possible : ∀ s, q s → ∃ u, Reaches step allowed s u ∧ goal u) (holds : q s) :
    Live step allowed goal s :=
  fun t reached => possible t (reached.keeps kept holds)

theorem not_live_of_keeps (kept : ∀ s a t, allowed a → q s → step s a = some t → q t)
    (excluded : ∀ s, q s → ¬ goal s) (holds : q s) : ¬ Live step allowed goal s := by
  intro live
  obtain ⟨u, reached, hgoal⟩ := live s (.refl s)
  exact excluded u (reached.keeps kept holds) hgoal

/-- Every run of allowed actions comes to an end, and it ends at the goal. -/
structure Terminates (step : S → A → Option S) (allowed : A → Prop) (goal : S → Prop)
    (s : S) : Prop where
  bounded : ∃ n, ∀ actions t, (∀ a ∈ actions, allowed a) → exec step s actions = some t →
    actions.length ≤ n
  ends : ∀ t, Reaches step allowed s t → (∀ a, allowed a → step t a = none) → goal t

theorem terminates_of_decreasing (rank : S → Nat)
    (kept : ∀ s a t, allowed a → q s → step s a = some t → q t)
    (decreases : ∀ s a t, allowed a → q s → step s a = some t → rank t < rank s)
    (ends : ∀ s, q s → (∀ a, allowed a → step s a = none) → goal s) (holds : q s) :
    Terminates step allowed goal s where
  bounded := by
    refine ⟨rank s, fun actions t all h => ?_⟩
    induction actions generalizing s with
    | nil => exact Nat.zero_le _
    | cons a rest ih =>
      obtain ⟨ok, all⟩ := List.forall_mem_cons.mp all
      obtain ⟨u, first, others⟩ := exec_cons_some h
      have hrest := ih (kept s a u ok holds first) all others
      have hless := decreases s a u ok holds first
      rw [List.length_cons]
      omega
  ends := fun t reached => ends t (reached.keeps kept holds)

theorem not_terminates_of_keeps
    (next : ∀ s, q s → ∃ a t, allowed a ∧ step s a = some t ∧ q t) (holds : q s) :
    ¬ Terminates step allowed goal s := by
  intro terminates
  obtain ⟨n, bound⟩ := terminates.bounded
  have long : ∀ k s, q s → ∃ actions t, (∀ a ∈ actions, allowed a) ∧
      exec step s actions = some t ∧ actions.length = k := by
    intro k
    induction k with
    | zero => exact fun s _ => ⟨[], s, nofun, rfl, rfl⟩
    | succ k ih =>
      intro s holds
      obtain ⟨a, u, ok, first, holds⟩ := next s holds
      obtain ⟨actions, t, all, h, length⟩ := ih u holds
      refine ⟨a :: actions, t, List.forall_mem_cons.mpr ⟨ok, all⟩, ?_, congrArg (· + 1) length⟩
      exact (exec_cons_of first).trans h
  obtain ⟨actions, t, all, h, length⟩ := long (n + 1) s holds
  have := bound actions t all h
  omega

/-- Every state that the run comes to, up to the first action that is disabled. -/
def Throughout (step : S → A → Option S) (p : S → Prop) : S → List A → Prop
  | s, [] => p s
  | s, a :: rest => p s ∧ ∀ t, step s a = some t → Throughout step p t rest

/-- Every action that the run takes, in the state in which it is taken. -/
def Along (step : S → A → Option S) (guard : S → A → Prop) : S → List A → Prop
  | _, [] => True
  | s, a :: rest => ∀ t, step s a = some t → guard s a ∧ Along step guard t rest

instance Along.decidable {guard : S → A → Prop} [∀ s a, Decidable (guard s a)] :
    ∀ s actions, Decidable (Along step guard s actions)
  | _, [] => isTrue trivial
  | s, a :: rest =>
    match h : step s a with
    | none => isTrue fun t ht => by cases h.symm.trans ht
    | some u =>
      have : Decidable (Along step guard u rest) := Along.decidable u rest
      decidable_of_iff (guard s a ∧ Along step guard u rest) (by
        constructor
        · intro both t ht
          obtain rfl := Option.some.inj (h.symm.trans ht)
          exact both
        · intro all
          exact all u h)

theorem Throughout.first (h : Throughout step p s actions) : p s := by
  cases actions with
  | nil => exact h
  | cons a rest => exact h.1

theorem Throughout.last (all : Throughout step p s actions)
    (h : exec step s actions = some t) : p t := by
  induction actions generalizing s with
  | nil =>
    cases h
    exact all
  | cons a rest ih =>
    obtain ⟨u, first, others⟩ := exec_cons_some h
    exact ih (all.2 u first) others

/-- What every action keeps holds throughout every run. -/
theorem throughout_of_keeps (good : ∀ s, q s → p s)
    (kept : ∀ s a t, a ∈ actions → q s → step s a = some t → q t) (holds : q s) :
    Throughout step p s actions := by
  induction actions generalizing s with
  | nil => exact good s holds
  | cons a rest ih =>
    refine ⟨good s holds, fun t ht => ih (fun s a t ha => kept s a t (.tail _ ha)) ?_⟩
    exact kept s a t (.head _) holds ht

variable {guard : S → A → Prop}

/-- What guarded actions keep holds throughout a guarded run. -/
theorem throughout_of_along (good : ∀ s, q s → p s)
    (kept : ∀ s a t, q s → guard s a → step s a = some t → q t) (holds : q s)
    (guarded : Along step guard s actions) : Throughout step p s actions := by
  induction actions generalizing s with
  | nil => exact good s holds
  | cons a rest ih =>
    refine ⟨good s holds, fun t ht => ?_⟩
    obtain ⟨first, others⟩ := guarded t ht
    exact ih (kept s a t holds first ht) others

/-- Where the guarded actions are exactly those that keep the property, it holds
throughout a run exactly if the run is guarded. -/
theorem throughout_iff_along (good : ∀ s, q s → p s)
    (kept : ∀ s a t, q s → guard s a → step s a = some t → q t)
    (broken : ∀ s a t, q s → ¬ guard s a → step s a = some t → ¬ p t) (holds : q s) :
    Throughout step p s actions ↔ Along step guard s actions := by
  refine ⟨fun all => ?_, throughout_of_along good kept holds⟩
  induction actions generalizing s with
  | nil => trivial
  | cons a rest ih =>
    intro t ht
    have others := all.2 t ht
    have first : guard s a := by
      by_contra unguarded
      exact broken s a t holds unguarded ht others.first
    exact ⟨first, ih (kept s a t holds first ht) others⟩

end EnabledRuns
