import Mathlib.Data.List.Basic

/-!
# Writing the fields of a record, more than once

A write sets one field of a record. Two writes of one field leave the later,
and writes of different fields commute. Of a list of writes only the last of
each field counts, and the list changes nothing exactly when none of these
last writes does. What a field is, and how it is read, is left open: a field
that can only be written through a pointer needs no reading function here.
-/

namespace FieldWrites

universe u v w

section Last

variable {F : Type v} {W : Type w} [DecidableEq F]

/-- The write of the field `f` that comes last. -/
def last (field : W → F) (f : F) : List W → Option W
  | [] => none
  | a :: ws => (last field f ws).or (if field a = f then some a else none)

variable {field : W → F} {f : F} {a : W} {ws : List W}

theorem last_cons_of_later {b : W} (h : last field f ws = some b) :
    last field f (a :: ws) = some b := by
  rw [last, h, Option.some_or]

theorem last_cons_self (h : last field (field a) ws = none) :
    last field (field a) (a :: ws) = some a := by
  rw [last, h, Option.none_or, if_pos rfl]

theorem last_cons_other (ws : List W) (h : field a ≠ f) :
    last field f (a :: ws) = last field f ws := by
  rw [last, if_neg h, Option.or_none]

/-- The last write of a field is one of the writes, and it has that field. -/
theorem last_spec (h : last field f ws = some a) : a ∈ ws ∧ field a = f := by
  induction ws with
  | nil => cases h
  | cons b ws ih =>
    cases hlater : last field f ws with
    | some c =>
      rw [last_cons_of_later hlater] at h
      obtain ⟨hmem, hfield⟩ := ih (hlater.trans h)
      exact ⟨List.mem_cons_of_mem _ hmem, hfield⟩
    | none =>
      rw [last, hlater] at h
      split at h
      · rename_i hb
        cases h
        exact ⟨List.mem_cons_self, hb⟩
      · cases h

theorem last_eq_none (h : last field f (a :: ws) = none) :
    field a ≠ f ∧ last field f ws = none := by
  rw [last, Option.or_eq_none_iff] at h
  refine ⟨fun same => ?_, h.1⟩
  rw [if_pos same] at h
  cases h.2

variable (field) in
theorem exists_last (h : a ∈ ws) : ∃ b, last field (field a) ws = some b := by
  cases hlast : last field (field a) ws with
  | some b => exact ⟨b, rfl⟩
  | none =>
    induction ws with
    | nil => cases h
    | cons c ws ih =>
      obtain ⟨other, hrest⟩ := last_eq_none hlast
      rcases List.mem_cons.mp h with rfl | h
      · exact absurd rfl other
      · exact ih h hrest

end Last

/-- Writes that only depend on the field they write. -/
structure Writes (R : Type u) (F : Type v) (W : Type w) where
  field : W → F
  apply : W → R → R
  overwrites : ∀ {a b : W} (r : R), field a = field b → apply a (apply b r) = apply a r
  commutes : ∀ {a b : W} (r : R), field a ≠ field b → apply a (apply b r) = apply b (apply a r)

namespace Writes

variable {R : Type u} {F : Type v} {W : Type w} (writes : Writes R F W)

def applyAll (ws : List W) (r : R) : R :=
  ws.foldl (fun r a => writes.apply a r) r

@[simp] theorem applyAll_cons (a : W) (ws : List W) (r : R) :
    writes.applyAll (a :: ws) r = writes.applyAll ws (writes.apply a r) := rfl

/-- What no write changes is not changed by all of them. -/
theorem read_applyAll {A : Type*} {read : R → A} (frame : ∀ a r, read (writes.apply a r) = read r)
    (ws : List W) (r : R) : read (writes.applyAll ws r) = read r := by
  induction ws generalizing r with
  | nil => rfl
  | cons a ws ih => exact (ih _).trans (frame a r)

/-- A change of the record that each write commutes with, also to another type. -/
theorem applyAll_commutes {R' : Type u} {writes' : Writes R' F W} (change : R → R')
    (commutes : ∀ a r, writes'.apply a (change r) = change (writes.apply a r)) (ws : List W)
    (r : R) : writes'.applyAll ws (change r) = change (writes.applyAll ws r) := by
  induction ws generalizing r with
  | nil => rfl
  | cons a ws ih => rw [applyAll_cons, commutes, ih, applyAll_cons]

section Last
variable [DecidableEq F]
variable {f : F} {a : W} {ws : List W}

/-- A field that no write has reads as before. -/
theorem read_applyAll_unwritten {A : Type*} {read : R → A}
    (frame : ∀ a r, writes.field a ≠ f → read (writes.apply a r) = read r)
    (h : last writes.field f ws = none) (r : R) : read (writes.applyAll ws r) = read r := by
  induction ws generalizing r with
  | nil => rfl
  | cons a ws ih =>
    obtain ⟨other, hrest⟩ := last_eq_none h
    exact (ih hrest _).trans (frame a r other)

/-- A write whose field is written again later might as well not happen. -/
theorem applyAll_written {b : W} (h : last writes.field (writes.field a) ws = some b) (r : R) :
    writes.applyAll ws (writes.apply a r) = writes.applyAll ws r := by
  induction ws generalizing r with
  | nil => cases h
  | cons c ws ih =>
    by_cases same : writes.field c = writes.field a
    · rw [applyAll_cons, writes.overwrites r same, applyAll_cons]
    · rw [last_cons_other ws same] at h
      rw [applyAll_cons, writes.commutes r same, ih h, applyAll_cons]

/-- A write moves in front of writes that all have other fields. -/
theorem apply_applyAll_unwritten (h : last writes.field (writes.field a) ws = none) (r : R) :
    writes.apply a (writes.applyAll ws r) = writes.applyAll ws (writes.apply a r) := by
  induction ws generalizing r with
  | nil => rfl
  | cons b ws ih =>
    obtain ⟨other, hrest⟩ := last_eq_none h
    rw [applyAll_cons, ih hrest, applyAll_cons, writes.commutes r (Ne.symm other)]

/-- The last write of a field is in force after all of them. -/
theorem apply_last_applyAll (h : last writes.field f ws = some a)
    (r : R) : writes.apply a (writes.applyAll ws r) = writes.applyAll ws r := by
  induction ws generalizing r with
  | nil => cases h
  | cons b ws ih =>
    cases hlater : last writes.field f ws with
    | some c =>
      rw [last_cons_of_later hlater] at h
      exact ih (hlater.trans h) _
    | none =>
      have hfield := (last_spec h).2
      rw [last, hlater] at h
      split at h
      · cases h
        rw [← hfield] at hlater
        rw [applyAll_cons, writes.apply_applyAll_unwritten hlater, writes.overwrites r rfl]
      · cases h

/-- A list of writes changes nothing exactly when no last write does. -/
theorem applyAll_eq_self_iff (ws : List W) (r : R) :
    writes.applyAll ws r = r ↔ ∀ f a, last writes.field f ws = some a → writes.apply a r = r := by
  constructor
  · intro h f a hlast
    have inForce := writes.apply_last_applyAll hlast r
    rwa [h] at inForce
  · intro h
    induction ws with
    | nil => rfl
    | cons a ws ih =>
      have hrest := ih (fun f b hlast => h f b (last_cons_of_later hlast))
      cases hlater : last writes.field (writes.field a) ws with
      | some b => rw [applyAll_cons, writes.applyAll_written hlater, hrest]
      | none => rw [applyAll_cons, h _ a (last_cons_self hlater), hrest]

end Last

end Writes

end FieldWrites
