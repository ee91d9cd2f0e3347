import Mathlib.Logic.Basic

/-!
# Runs whose steps meet a guard

A system takes one action after another. A guard says of an action, in the
state it is taken in, whether it is of the expected kind; `Along` says so of
every action of a run. What each guarded step keeps holds at the end of every
guarded run.
-/

namespace GuardedRuns

universe u v

variable {S : Type u} {A : Type v}

def run (step : S → A → S) (s : S) (actions : List A) : S :=
  actions.foldl step s

/-- Every action of the run meets the guard in the state it is taken in. -/
def Along (step : S → A → S) (guard : S → A → Prop) : S → List A → Prop
  | _, [] => True
  | s, a :: rest => guard s a ∧ Along step guard (step s a) rest

instance decidableAlong (step : S → A → S) (guard : S → A → Prop)
    [∀ s a, Decidable (guard s a)] : (s : S) → (actions : List A) →
    Decidable (Along step guard s actions)
  | _, [] => .isTrue trivial
  | s, a :: rest =>
    have := decidableAlong step guard (step s a) rest
    inferInstanceAs (Decidable (_ ∧ _))

variable {step : S → A → S} {guard : S → A → Prop}

theorem run_keeps {Inv : S → Prop} (kept : ∀ s a, Inv s → guard s a → Inv (step s a))
    {s : S} {actions : List A} (holds : Inv s) (along : Along step guard s actions) :
    Inv (run step s actions) := by
  induction actions generalizing s with
  | nil => exact holds
  | cons a rest ih => exact ih (kept s a holds along.1) along.2

theorem along_append {s : S} {before after : List A} :
    Along step guard s (before ++ after) ↔
      Along step guard s before ∧ Along step guard (run step s before) after := by
  induction before generalizing s with
  | nil => exact (iff_of_eq (true_and _)).symm
  | cons a rest ih =>
    change guard s a ∧ Along step guard (step s a) (rest ++ after) ↔ _
    rw [ih, ← and_assoc]
    exact Iff.rfl

end GuardedRuns
