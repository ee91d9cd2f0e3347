import Mathlib.Data.Finset.Card

/-!
# Queues that hold an item once

Callers add items, workers take one, work on it and then say that they are done.
An item is queued at most once: adding it again before it is taken does nothing,
and one that is added while a worker has it is queued when that worker is done.
A queue that is shutting down takes no more items and hands out those it has.
-/

namespace DedupQueues

universe u

variable {α : Type u} [DecidableEq α]

structure Queue (α : Type u) where
  queue : List α
  /-- What is to be worked on, queued or not. -/
  dirty : Finset α
  /-- What a worker has. -/
  processing : Finset α
  shuttingDown : Bool

namespace Queue

def empty : Queue α := ⟨[], ∅, ∅, false⟩

def add (q : Queue α) (x : α) : Queue α :=
  if q.shuttingDown || decide (x ∈ q.dirty) then q
  else
    { q with
      dirty := insert x q.dirty
      queue := if x ∈ q.processing then q.queue else q.queue ++ [x] }

/-- No result while the caller waits; no item tells it to stop. -/
def get (q : Queue α) : Option (Option α × Queue α) :=
  match q.queue with
  | [] => if q.shuttingDown then some (none, q) else none
  | x :: rest =>
    some (some x, { q with
      queue := rest
      processing := insert x q.processing
      dirty := q.dirty.erase x })

def done (q : Queue α) (x : α) : Queue α :=
  { q with
    processing := q.processing.erase x
    queue := if x ∈ q.dirty then q.queue ++ [x] else q.queue }

def shutDown (q : Queue α) : Queue α := { q with shuttingDown := true }

/-- What is queued is what is to be worked on and no worker has. -/
structure Valid (q : Queue α) : Prop where
  nodup : q.queue.Nodup
  mem_queue : ∀ x, x ∈ q.queue ↔ x ∈ q.dirty ∧ x ∉ q.processing

variable {q r : Queue α} {x y : α}

theorem add_shuttingDown (h : q.shuttingDown = true) : q.add x = q := by
  rw [add, h, Bool.true_or, if_pos rfl]

@[simp] theorem add_flag : (q.add x).shuttingDown = q.shuttingDown := by
  unfold add
  split <;> rfl

@[simp] theorem add_processing : (q.add x).processing = q.processing := by
  unfold add
  split <;> rfl

theorem mem_dirty_add (h : q.shuttingDown = false) :
    y ∈ (q.add x).dirty ↔ y = x ∨ y ∈ q.dirty := by
  unfold add
  split
  · rename_i skipped
    have present : x ∈ q.dirty := by simpa [h] using skipped
    exact ⟨.inr, fun either => either.elim (fun same => same ▸ present) id⟩
  · exact Finset.mem_insert

/-- An item is queued at once if nobody knows it yet. -/
theorem queue_add (h : q.shuttingDown = false) :
    (q.add x).queue =
      if x ∈ q.dirty ∨ x ∈ q.processing then q.queue else q.queue ++ [x] := by
  unfold add
  by_cases dirty : x ∈ q.dirty
  · simp [dirty]
  · by_cases processing : x ∈ q.processing
    · simp [h, dirty]
    · simp [h, dirty]

theorem get_eq_some (h : q.get = some (some x, r)) :
    ∃ rest, q.queue = x :: rest ∧ r = { q with
      queue := rest
      processing := insert x q.processing
      dirty := q.dirty.erase x } := by
  unfold get at h
  split at h
  · split at h <;> cases h
  · rename_i head rest queued
    cases h
    exact ⟨rest, queued, rfl⟩

theorem get_eq_stop (h : q.get = some (none, r)) :
    q.queue = [] ∧ q.shuttingDown = true ∧ r = q := by
  unfold get at h
  split at h
  · rename_i queued
    split at h
    · cases h
      exact ⟨queued, ‹_›, rfl⟩
    · cases h
  · cases h

/-- A queue that is shutting down lets nobody wait. -/
theorem get_isSome (h : q.shuttingDown = true) : ∃ result, q.get = some result := by
  unfold get
  split
  · exact ⟨_, if_pos h⟩
  · exact ⟨_, rfl⟩

omit [DecidableEq α] in
theorem valid_empty : Valid (empty : Queue α) where
  nodup := List.nodup_nil
  mem_queue := by simp [empty]

section
variable (valid : q.Valid)
include valid

theorem Valid.add : (q.add x).Valid := by
  unfold Queue.add
  split
  · exact valid
  · rename_i fresh
    have notDirty : x ∉ q.dirty := by
      intro dirty
      simp [dirty] at fresh
    have notQueued : x ∉ q.queue := fun queued => notDirty ((valid.mem_queue x).mp queued).1
    by_cases processing : x ∈ q.processing
    · refine ⟨by simpa [processing] using valid.nodup, fun y => ?_⟩
      by_cases same : y = x
      · simp [same, processing, notQueued]
      · simpa [same, processing] using valid.mem_queue y
    · refine ⟨by simpa [processing, List.nodup_append] using
        ⟨valid.nodup, fun y hy same => notQueued (same ▸ hy)⟩, fun y => ?_⟩
      by_cases same : y = x
      · simp [same, processing]
      · simpa [same, processing] using valid.mem_queue y

theorem Valid.get (h : q.get = some (some x, r)) : r.Valid := by
  obtain ⟨rest, queued, rfl⟩ := get_eq_some h
  have nodup := valid.nodup
  rw [queued, List.nodup_cons] at nodup
  refine ⟨nodup.2, fun y => ?_⟩
  have mem := valid.mem_queue y
  rw [queued] at mem
  by_cases same : y = x
  · simp [same, nodup.1]
  · simpa [same] using mem

/-- Only an item that a worker has can be done. -/
theorem Valid.done (held : x ∈ q.processing) : (q.done x).Valid := by
  have notQueued : x ∉ q.queue := fun queued => ((valid.mem_queue x).mp queued).2 held
  unfold Queue.done
  by_cases dirty : x ∈ q.dirty
  · refine ⟨by simpa [dirty, List.nodup_append] using
      ⟨valid.nodup, fun y hy same => notQueued (same ▸ hy)⟩, fun y => ?_⟩
    by_cases same : y = x
    · simp [same, dirty]
    · simpa [same, dirty] using valid.mem_queue y
  · refine ⟨by simpa [dirty] using valid.nodup, fun y => ?_⟩
    by_cases same : y = x
    · simp [same, dirty, notQueued]
    · simpa [same, dirty] using valid.mem_queue y

omit [DecidableEq α] in
theorem Valid.shutDown : q.shutDown.Valid := ⟨valid.nodup, valid.mem_queue⟩

/-- The item that is taken was to be worked on, and no worker had it. -/
theorem Valid.taken (h : q.get = some (some x, r)) :
    x ∈ q.dirty ∧ x ∉ q.processing := by
  obtain ⟨rest, queued, -⟩ := get_eq_some h
  exact (valid.mem_queue x).mp (queued ▸ List.mem_cons_self)

omit [DecidableEq α] in
/-- With nothing queued and nothing in work there is nothing left. -/
theorem Valid.dirty_eq_empty (queued : q.queue = []) (processing : q.processing = ∅) :
    q.dirty = ∅ := by
  refine Finset.eq_empty_of_forall_notMem fun x dirty => ?_
  have mem := (valid.mem_queue x).mpr ⟨dirty, processing ▸ Finset.notMem_empty x⟩
  exact absurd (queued ▸ mem) List.not_mem_nil

end

end Queue

end DedupQueues
