import Mathlib.Data.List.Basic

/-!
# Loops that may fail

A loop over a list that stops at its first error has succeeded exactly if each of
its steps has. What a step may do can depend on what the loop has so far
(`foldlM`) or on its entry alone (`mapM`).
-/

namespace FallibleLoops

universe u v w

variable {ε : Type u} {α : Type v} {β : Type w}

theorem bind_eq_ok {γ : Type w} {x : Except ε β} {f : β → Except ε γ} {c : γ} :
    (x >>= f) = .ok c ↔ ∃ b, x = .ok b ∧ f b = .ok c := by
  cases x with
  | error err => exact ⟨nofun, nofun⟩
  | ok b =>
    change f b = .ok c ↔ _
    simp only [Except.ok.injEq, exists_eq_left']

/-! ## One result for each entry -/

section
variable {f : α → Except ε β} {x : α} {xs : List α} {ys : List β}

theorem mapM_cons_ok : (x :: xs).mapM f = .ok ys ↔
    ∃ y rest, f x = .ok y ∧ xs.mapM f = .ok rest ∧ ys = y :: rest := by
  rw [List.mapM_cons, bind_eq_ok]
  refine exists_congr fun y => ?_
  rw [bind_eq_ok, exists_and_left]
  refine and_congr_right fun _ => exists_congr fun rest => and_congr_right fun _ => ?_
  exact ⟨fun h => (Except.ok.inj h).symm, fun h => congrArg Except.ok h.symm⟩

theorem exists_mapM_ok : (∃ ys, xs.mapM f = .ok ys) ↔ ∀ x ∈ xs, ∃ y, f x = .ok y := by
  induction xs with
  | nil => exact ⟨fun _ => nofun, fun _ => ⟨[], rfl⟩⟩
  | cons x xs ih =>
    simp only [List.forall_mem_cons, ← ih, mapM_cons_ok]
    constructor
    · rintro ⟨_, y, rest, hy, hrest, _⟩
      exact ⟨⟨y, hy⟩, rest, hrest⟩
    · rintro ⟨⟨y, hy⟩, rest, hrest⟩
      exact ⟨_, y, rest, hy, hrest, rfl⟩

theorem mem_of_mapM_ok (h : xs.mapM f = .ok ys) {y : β} :
    y ∈ ys ↔ ∃ x ∈ xs, f x = .ok y := by
  induction xs generalizing ys with
  | nil =>
    cases h
    exact ⟨nofun, nofun⟩
  | cons x xs ih =>
    obtain ⟨y', rest, hy', hrest, rfl⟩ := mapM_cons_ok.mp h
    rw [List.mem_cons, List.exists_mem_cons_iff, ih hrest, hy', Except.ok.injEq, eq_comm]

theorem length_of_mapM_ok (h : xs.mapM f = .ok ys) : ys.length = xs.length := by
  induction xs generalizing ys with
  | nil =>
    cases h
    rfl
  | cons x xs ih =>
    obtain ⟨y, rest, -, hrest, rfl⟩ := mapM_cons_ok.mp h
    rw [List.length_cons, List.length_cons, ih hrest]

end

/-! ## One result for all entries -/

section
variable {f : β → α → Except ε β} {x : α} {xs : List α} {b c : β}

theorem foldlM_cons_ok : (x :: xs).foldlM f b = .ok c ↔
    ∃ mid, f b x = .ok mid ∧ xs.foldlM f mid = .ok c := by
  rw [List.foldlM_cons, bind_eq_ok]

theorem foldlM_concat_ok : (xs ++ [x]).foldlM f b = .ok c ↔
    ∃ mid, xs.foldlM f b = .ok mid ∧ f mid x = .ok c := by
  rw [List.foldlM_append, bind_eq_ok]
  refine exists_congr fun mid => and_congr_right fun _ => ?_
  rw [foldlM_cons_ok]
  constructor
  · rintro ⟨last, hlast, h⟩
    exact hlast.trans h
  · intro h
    exact ⟨c, h, rfl⟩

/-- A loop succeeds if its steps do, whatever it has so far. -/
theorem exists_foldlM_ok (ok : ∀ x ∈ xs, ∀ b, ∃ mid, f b x = .ok mid) (b : β) :
    ∃ c, xs.foldlM f b = .ok c := by
  induction xs generalizing b with
  | nil => exact ⟨b, rfl⟩
  | cons x xs ih =>
    obtain ⟨hfirst, hrest⟩ := List.forall_mem_cons.mp ok
    obtain ⟨mid, hmid⟩ := hfirst b
    obtain ⟨c, hc⟩ := ih hrest mid
    exact ⟨c, foldlM_cons_ok.mpr ⟨mid, hmid, hc⟩⟩

theorem forall_of_foldlM_ok (h : xs.foldlM f b = .ok c) :
    ∀ x ∈ xs, ∃ before after, f before x = .ok after := by
  induction xs generalizing b with
  | nil => exact fun x hx => absurd hx List.not_mem_nil
  | cons x xs ih =>
    obtain ⟨mid, hmid, hrest⟩ := foldlM_cons_ok.mp h
    exact List.forall_mem_cons.mpr ⟨⟨b, mid, hmid⟩, ih hrest⟩

/-- A loop that never fails is a plain fold. -/
theorem foldlM_eq_ok_foldl {g : β → α → β} (ok : ∀ x ∈ xs, ∀ b, f b x = .ok (g b x)) (b : β) :
    xs.foldlM f b = .ok (xs.foldl g b) := by
  induction xs generalizing b with
  | nil => rfl
  | cons x xs ih =>
    obtain ⟨hfirst, hrest⟩ := List.forall_mem_cons.mp ok
    exact foldlM_cons_ok.mpr ⟨g b x, hfirst b, ih hrest (g b x)⟩

end

end FallibleLoops
