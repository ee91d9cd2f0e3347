import Mathlib.Data.List.Basic

/-!
# Histories in which events are answered

A history is a list of events, the latest last. Some of them are due an answer,
which may depend on what has happened before; the answer comes later.
-/

namespace Histories

universe u

variable {E : Type u} {due : List E → E → Prop} {answer : E → Prop} {history : List E} {e : E}

/-- Every event that is due an answer has one after it. -/
def Answered (due : List E → E → Prop) (answer : E → Prop) (history : List E) : Prop :=
  ∀ before e after, history = before ++ e :: after → due before e → ∃ a ∈ after, answer a

theorem answered_nil : Answered due answer [] := by
  intro before e after h
  cases before <;> cases h

theorem append_cons_concat {before after : List E} {a : E}
    (h : history ++ [e] = before ++ a :: after) :
    (after = [] ∧ before = history ∧ a = e) ∨
      ∃ rest, after = rest ++ [e] ∧ history = before ++ a :: rest := by
  rcases List.eq_nil_or_concat after with rfl | ⟨rest, last, rfl⟩
  · obtain ⟨rfl, same⟩ := List.append_inj' h rfl
    exact .inl ⟨rfl, rfl, (List.cons.inj same).1.symm⟩
  · rw [List.concat_eq_append, ← List.cons_append, ← List.append_assoc] at h
    obtain ⟨earlier, same⟩ := List.append_inj' h rfl
    obtain rfl := (List.cons.inj same).1
    exact .inr ⟨rest, List.concat_eq_append, earlier⟩

/-- The latest event is not due an answer itself, and it either answers all
that were due one or leaves them as they were. -/
theorem answered_concat :
    Answered due answer (history ++ [e]) ↔
      ¬ due history e ∧ (answer e ∨ Answered due answer history) := by
  constructor
  · intro all
    refine ⟨fun last => ?_, ?_⟩
    · obtain ⟨a, ha, -⟩ := all history e [] rfl last
      exact absurd ha List.not_mem_nil
    · by_cases answers : answer e
      · exact .inl answers
      · right
        rintro before d after rfl owed
        obtain ⟨a, ha, answered⟩ := all before d (after ++ [e]) (by simp) owed
        rcases List.mem_append.mp ha with ha | ha
        · exact ⟨a, ha, answered⟩
        · obtain rfl := List.mem_singleton.mp ha
          exact absurd answered answers
  · rintro ⟨latest, others⟩ before d after h owed
    rcases append_cons_concat h with ⟨rfl, rfl, rfl⟩ | ⟨rest, rfl, earlier⟩
    · exact absurd owed latest
    · rcases others with answers | others
      · exact ⟨e, List.mem_append_right rest List.mem_cons_self, answers⟩
      · obtain ⟨a, ha, answered⟩ := others before d rest earlier owed
        exact ⟨a, List.mem_append_left _ ha, answered⟩

/-- An event that is not due an answer leaves all answered as it was. -/
theorem Answered.concat (all : Answered due answer history) (latest : ¬ due history e) :
    Answered due answer (history ++ [e]) :=
  answered_concat.mpr ⟨latest, .inr all⟩

/-- What the latest event adds to a selection. -/
theorem filterMap_concat {α : Type u} (f : E → Option α) (history : List E) (e : E) :
    (history ++ [e]).filterMap f = history.filterMap f ++ (f e).toList := by
  cases h : f e <;> simp [h]

end Histories
