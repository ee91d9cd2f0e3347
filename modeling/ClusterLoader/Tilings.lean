import Mathlib.Data.List.Pairwise
import Mathlib.Order.Lattice

/-!
# Windows that tile an interval

Windows one behind the other, each beginning where the one before ends. From
left to right they do not overlap, and a point lies in one of them exactly if it
lies between the first beginning and the last end.
-/

namespace Tilings

universe u

variable {α : Type u} [LinearOrder α]

structure Window (α : Type u) where
  lo : α
  hi : α

/-- The end of a window belongs to the next one. -/
def Window.Contains (w : Window α) (t : α) : Prop := w.lo ≤ t ∧ t < w.hi

def Tiles : α → List (Window α) → α → Prop
  | a, [], b => a = b
  | a, w :: rest, b => w.lo = a ∧ w.lo ≤ w.hi ∧ Tiles w.hi rest b

variable {a b : α} {windows : List (Window α)}

theorem Tiles.le (h : Tiles a windows b) : a ≤ b := by
  induction windows generalizing a with
  | nil => exact le_of_eq h
  | cons w rest ih =>
    obtain ⟨rfl, hle, hrest⟩ := h
    exact le_trans hle (ih hrest)

theorem Tiles.le_lo (h : Tiles a windows b) : ∀ w ∈ windows, a ≤ w.lo := by
  induction windows generalizing a with
  | nil => exact nofun
  | cons v rest ih =>
    obtain ⟨rfl, hle, hrest⟩ := h
    intro w hw
    rcases List.mem_cons.mp hw with rfl | hmem
    · exact le_refl _
    · exact le_trans hle (ih hrest w hmem)

theorem Tiles.disjoint (h : Tiles a windows b) : windows.Pairwise fun v w => v.hi ≤ w.lo := by
  induction windows generalizing a with
  | nil => exact .nil
  | cons v rest ih =>
    obtain ⟨-, -, hrest⟩ := h
    exact .cons hrest.le_lo (ih hrest)

theorem Tiles.contains_iff (h : Tiles a windows b) (t : α) :
    (∃ w ∈ windows, w.Contains t) ↔ a ≤ t ∧ t < b := by
  induction windows generalizing a with
  | nil =>
    cases h
    constructor
    · rintro ⟨w, hw, _⟩
      cases hw
    · rintro ⟨hle, hlt⟩
      exact absurd hlt (not_lt_of_ge hle)
  | cons v rest ih =>
    obtain ⟨rfl, hle, hrest⟩ := h
    simp only [List.mem_cons, exists_eq_or_imp, ih hrest]
    constructor
    · rintro (⟨hlo, hhi⟩ | ⟨hlo, hhi⟩)
      · exact ⟨hlo, lt_of_lt_of_le hhi hrest.le⟩
      · exact ⟨le_trans hle hlo, hhi⟩
    · rintro ⟨hlo, hhi⟩
      rcases lt_or_ge t v.hi with hlt | hge
      · exact .inl ⟨hlo, hlt⟩
      · exact .inr ⟨hge, hhi⟩

end Tilings
