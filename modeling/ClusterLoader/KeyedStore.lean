import Mathlib.Data.List.Nodup
import Mathlib.Data.List.Perm.Subperm

/-!
# Stores with one value per key

A finite store that keeps at most one value for each key: inserting replaces
the value of the same key. The field `unique` makes a store with two values of
one key impossible to build, so a lookup and a search of the entries always
tell the same.
-/

namespace KeyedStore

universe u v

variable {α : Type u} {κ : Type v}

/-- What lies among no more than as many is all of them. -/
theorem mem_of_subset_of_length_le {xs ys : List α} (nodup : xs.Nodup) (sub : xs ⊆ ys)
    (long : ys.length ≤ xs.length) {y : α} (hy : y ∈ ys) : y ∈ xs :=
  ((List.subperm_of_subset nodup sub).perm_of_length_le long).mem_iff.mpr hy

/-- Where elements are told apart by their keys, two choices with the same keys are
the same. -/
theorem map_filter_eq_iff {key : α → κ} {xs : List α} {p q : α → Bool}
    (inj : ∀ x ∈ xs, ∀ y ∈ xs, key x = key y → x = y) :
    (xs.filter p).map key = (xs.filter q).map key ↔ ∀ x ∈ xs, (p x = true ↔ q x = true) := by
  have hsub : ∀ {p q : α → Bool}, (xs.filter p).map key = (xs.filter q).map key →
      ∀ x ∈ xs, p x = true → q x = true := by
    intro p q h x hx hp
    have hmem : key x ∈ (xs.filter q).map key :=
      h ▸ List.mem_map_of_mem (List.mem_filter.mpr ⟨hx, hp⟩)
    obtain ⟨y, hy, hkey⟩ := List.mem_map.mp hmem
    obtain ⟨hy, hq⟩ := List.mem_filter.mp hy
    exact inj y hy x hx hkey ▸ hq
  constructor
  · intro h x hx
    exact ⟨hsub h x hx, hsub h.symm x hx⟩
  · intro h
    exact congrArg _ (List.filter_congr fun x hx => Bool.eq_iff_iff.mpr (h x hx))

theorem filter_eq_iff {xs : List α} {p q : α → Bool} :
    xs.filter p = xs.filter q ↔ ∀ x ∈ xs, (p x = true ↔ q x = true) := by
  have h := @map_filter_eq_iff α α id xs p q fun _ _ _ _ same => same
  rwa [List.map_id, List.map_id] at h

structure Store (key : α → κ) where
  entries : List α
  unique : (entries.map key).Nodup

namespace Store

variable {key : α → κ}

instance : Membership α (Store key) where
  mem s x := x ∈ s.entries

instance [DecidableEq α] (x : α) (s : Store key) : Decidable (x ∈ s) :=
  inferInstanceAs (Decidable (x ∈ s.entries))

def empty : Store key where
  entries := []
  unique := List.nodup_nil

@[simp] theorem notMem_empty (x : α) : x ∉ (empty : Store key) :=
  List.not_mem_nil

variable {s : Store key} {x : α}

theorem eq_of_key {y : α} (hx : x ∈ s) (hy : y ∈ s) (h : key x = key y) : x = y :=
  List.inj_on_of_nodup_map s.unique hx hy h

/-- The entries an index on `p` returns. -/
def select (s : Store key) (p : α → Bool) : List α :=
  s.entries.filter p

@[simp] theorem mem_select {p : α → Bool} : x ∈ s.select p ↔ x ∈ s ∧ p x = true :=
  List.mem_filter

theorem select_nodup (s : Store key) (p : α → Bool) : (s.select p).Nodup :=
  (List.Nodup.of_map key s.unique).filter p

/-- The store with every entry changed, its key kept. -/
def update (s : Store key) (f : α → α) (keeps : ∀ x, key (f x) = key x) : Store key where
  entries := s.entries.map f
  unique := by
    have hkeys : (s.entries.map f).map key = s.entries.map key := by
      rw [List.map_map]
      exact List.map_congr_left fun x _ => keeps x
    exact hkeys ▸ s.unique

variable [DecidableEq κ]

def erase (s : Store key) (k : κ) : Store key where
  entries := s.entries.filter fun y => key y ≠ k
  unique := s.unique.sublist (List.filter_sublist.map key)

variable {k : κ}

@[simp] theorem mem_erase : x ∈ s.erase k ↔ x ∈ s ∧ key x ≠ k := by
  change x ∈ s.entries.filter _ ↔ _
  rw [List.mem_filter, decide_eq_true_iff]
  exact Iff.rfl

def insert (s : Store key) (x : α) : Store key where
  entries := x :: (s.erase (key x)).entries
  unique := by
    rw [List.map_cons, List.nodup_cons]
    refine ⟨?_, (s.erase (key x)).unique⟩
    rintro h
    obtain ⟨y, hy, hk⟩ := List.mem_map.mp h
    exact (mem_erase.mp hy).2 hk

@[simp] theorem mem_insert {y : α} : y ∈ s.insert x ↔ y = x ∨ y ∈ s ∧ key y ≠ key x := by
  change y ∈ x :: _ ↔ _
  rw [List.mem_cons]
  exact or_congr_right mem_erase

def lookup (s : Store key) (k : κ) : Option α :=
  s.entries.find? fun y => key y = k

theorem lookup_eq_some : s.lookup k = some x ↔ x ∈ s ∧ key x = k := by
  constructor
  · intro h
    exact ⟨List.mem_of_find?_eq_some h, by simpa using List.find?_some h⟩
  · rintro ⟨hx, rfl⟩
    cases h : s.lookup (key x) with
    | none => exact absurd (List.find?_eq_none.mp h x hx) (by simp)
    | some y =>
      have hy : key y = key x := by simpa using List.find?_some h
      rw [eq_of_key (List.mem_of_find?_eq_some h) hx hy]

variable {xs : List α}

theorem find?_key_eq_some (unique : (xs.map key).Nodup) :
    (xs.find? fun y => key y = k) = some x ↔ x ∈ xs ∧ key x = k :=
  lookup_eq_some (s := ⟨xs, unique⟩)

theorem lookup_eq_none : s.lookup k = none ↔ ∀ x ∈ s, key x ≠ k := by
  constructor
  · intro h x hx hk
    rw [lookup_eq_some.mpr ⟨hx, hk⟩] at h
    cases h
  · intro h
    cases hl : s.lookup k with
    | none => rfl
    | some x => exact absurd (lookup_eq_some.mp hl).2 (h x (lookup_eq_some.mp hl).1)

@[simp] theorem lookup_empty (k : κ) : (empty : Store key).lookup k = none := rfl

theorem lookup_insert (s : Store key) (x : α) (k : κ) :
    (s.insert x).lookup k = if k = key x then some x else s.lookup k := by
  split
  case isTrue h => exact lookup_eq_some.mpr ⟨mem_insert.mpr (.inl rfl), h.symm⟩
  case isFalse h =>
    ext y
    rw [lookup_eq_some, lookup_eq_some, mem_insert]
    constructor
    · rintro ⟨rfl | ⟨hy, _⟩, hk⟩
      · exact absurd hk.symm h
      · exact ⟨hy, hk⟩
    · rintro ⟨hy, hk⟩
      exact ⟨.inr ⟨hy, fun e => h (hk.symm.trans e)⟩, hk⟩

theorem lookup_erase (s : Store key) (k k' : κ) :
    (s.erase k).lookup k' = if k' = k then none else s.lookup k' := by
  split
  case isTrue h =>
    refine lookup_eq_none.mpr fun y hy hk => ?_
    exact (mem_erase.mp hy).2 (hk.trans h)
  case isFalse h =>
    ext y
    rw [lookup_eq_some, lookup_eq_some, mem_erase]
    constructor
    · rintro ⟨⟨hy, _⟩, hk⟩
      exact ⟨hy, hk⟩
    · rintro ⟨hy, hk⟩
      exact ⟨⟨hy, fun e => h (hk.symm.trans e)⟩, hk⟩

/-- Insert one entry after the other. -/
def insertAll (s : Store key) (xs : List α) : Store key := xs.foldl insert s

omit [DecidableEq κ] in
theorem forall_key_ne (unique : ((x :: xs).map key).Nodup) : ∀ y ∈ xs, key y ≠ key x := by
  rw [List.map_cons, List.nodup_cons] at unique
  intro y hy hk
  exact unique.1 (List.mem_map.mpr ⟨y, hy, hk⟩)

theorem filter_key (unique : (xs.map key).Nodup) (k : κ) :
    xs.filter (fun x => key x = k) = (xs.find? fun x => key x = k).toList := by
  induction xs with
  | nil => rfl
  | cons x xs ih =>
    have others := forall_key_ne unique
    rw [List.filter_cons, List.find?_cons]
    by_cases h : key x = k
    · have hnone : xs.filter (fun y => key y = k) = [] := by
        rw [List.filter_eq_nil_iff]
        intro y hy
        rw [decide_eq_true_iff, ← h]
        exact others y hy
      rw [decide_eq_true h, hnone]
      rfl
    · rw [decide_eq_false h]
      exact ih (List.Nodup.of_cons unique)

/-- How many entries satisfy a predicate. -/
def count (s : Store key) (p : α → Bool) : Nat := s.entries.countP p

theorem count_insert (s : Store key) (x : α) (p : α → Bool) :
    (s.insert x).count p = (s.erase (key x)).count p + (p x).toNat := by
  cases h : p x with
  | true => exact List.countP_cons_of_pos h
  | false => exact List.countP_cons_of_neg (by simp [h])

/-- An entry first, then those of the other keys. -/
theorem entries_perm (hx : x ∈ s) : s.entries.Perm (x :: (s.erase (key x)).entries) := by
  have hself : s.entries.filter (fun y => key y = key x) = [x] := by
    have hlookup := lookup_eq_some.mpr ⟨hx, rfl⟩
    rw [filter_key s.unique (key x)]
    change (s.lookup (key x)).toList = [x]
    rw [hlookup]
    rfl
  have hsplit := List.filter_append_perm (fun y => decide (key y = key x)) s.entries
  rw [hself] at hsplit
  simp only [← decide_not] at hsplit
  exact hsplit.symm

theorem count_of_mem (hx : x ∈ s) (p : α → Bool) :
    s.count p = (s.erase (key x)).count p + (p x).toNat := by
  rw [← count_insert]
  exact (entries_perm hx).countP_eq p

theorem count_erase_of_lookup (absent : s.lookup k = none)
    (p : α → Bool) : (s.erase k).count p = s.count p := by
  have hkept : s.entries.filter (fun y => key y ≠ k) = s.entries := by
    rw [List.filter_eq_self]
    intro y hy
    exact decide_eq_true (lookup_eq_none.mp absent y hy)
  change List.countP p (s.entries.filter fun y => key y ≠ k) = _
  rw [hkept]
  rfl

theorem lookup_insertAll (s : Store key) (unique : (xs.map key).Nodup) (k : κ) :
    (s.insertAll xs).lookup k = ((xs.find? fun x => key x = k).or (s.lookup k)) := by
  induction xs generalizing s with
  | nil => rfl
  | cons x xs ih =>
    have others := forall_key_ne unique
    change ((s.insert x).insertAll xs).lookup k = _
    rw [ih (s.insert x) (List.Nodup.of_cons unique), lookup_insert, List.find?_cons]
    by_cases h : k = key x
    · have hnone : xs.find? (fun y => key y = k) = none := by
        rw [List.find?_eq_none]
        intro y hy
        rw [decide_eq_true_iff, h]
        exact others y hy
      rw [hnone, if_pos h, decide_eq_true h.symm]
      rfl
    · rw [if_neg h, decide_eq_false (Ne.symm h)]

/-- Of two stores put together the second prevails. -/
theorem lookup_insertAll_entries (s t : Store key) (k : κ) :
    (s.insertAll t.entries).lookup k = (t.lookup k).or (s.lookup k) :=
  lookup_insertAll s t.unique k

theorem lookup_update (s : Store key) (f : α → α) (keeps : ∀ x, key (f x) = key x) (k : κ) :
    (s.update f keeps).lookup k = (s.lookup k).map f := by
  change (s.entries.map f).find? _ = _
  rw [List.find?_map]
  simp only [Function.comp_def, keeps]
  rfl

end Store

/-- A store of pairs, read by their first component. -/
abbrev Map (κ : Type u) (V : Type v) := Store (Prod.fst : κ × V → κ)

namespace Map

open Store

variable {κ : Type u} {V : Type v} [DecidableEq κ]

def get (m : Map κ V) (k : κ) : Option V := (m.lookup k).map Prod.snd

def keys (m : Map κ V) : List κ := m.entries.map Prod.fst

def set (m : Map κ V) (k : κ) (v : V) : Map κ V := Store.insert m (k, v)

@[simp] theorem get_empty (k : κ) : get (empty : Map κ V) k = none := rfl

theorem get_set (m : Map κ V) (k k' : κ) (v : V) :
    (m.set k v).get k' = if k' = k then some v else m.get k' := by
  rw [get, set, lookup_insert]
  split <;> rfl

/-- A map that is filled from a list with distinct keys reads the list. -/
theorem get_foldl_set {α : Type*} (key : α → κ) (value : α → V) (m : Map κ V) {xs : List α}
    (unique : (xs.map key).Nodup) (k : κ) :
    (xs.foldl (fun m x => m.set (key x) (value x)) m).get k =
      ((xs.find? fun x => key x = k).map value).or (m.get k) := by
  have hpairs : ((xs.map fun x => (key x, value x)).map Prod.fst).Nodup := by
    rwa [List.map_map]
  have hlookup := lookup_insertAll m hpairs k
  rw [insertAll, List.foldl_map, List.find?_map] at hlookup
  change Option.map Prod.snd (lookup (xs.foldl (fun m x => m.insert (key x, value x)) m) k) = _
  rw [hlookup, Option.map_or, Option.map_map]
  rfl

variable {m : Map κ V}

theorem get_of_mem {e : κ × V} (h : e ∈ m.entries) : m.get e.1 = some e.2 := by
  rw [get, lookup_eq_some.mpr ⟨h, rfl⟩]
  rfl

theorem mem_of_get {k : κ} {v : V} (h : m.get k = some v) : (k, v) ∈ m.entries := by
  obtain ⟨e, he, rfl⟩ := Option.map_eq_some_iff.mp h
  obtain ⟨hmem, rfl⟩ := lookup_eq_some.mp he
  exact hmem

theorem mem_keys {k : κ} : k ∈ m.keys ↔ (m.get k).isSome = true := by
  rw [keys, List.mem_map]
  constructor
  · rintro ⟨e, he, rfl⟩
    rw [get_of_mem he]
    rfl
  · intro h
    cases hl : m.lookup k with
    | none =>
      rw [get, hl] at h
      cases h
    | some e => exact ⟨e, lookup_eq_some.mp hl⟩

theorem entries_eq_nil_iff : m.entries = [] ↔ ∀ k, m.get k = none := by
  constructor
  · intro h k
    rw [get, lookup, h]
    rfl
  · intro h
    refine List.eq_nil_iff_forall_not_mem.mpr fun e he => ?_
    cases (h e.1).symm.trans (get_of_mem he)

theorem filter_entries (m : Map κ V) (k : κ) :
    (m.entries.filter fun e => e.1 = k).map Prod.snd = (m.get k).toList := by
  rw [filter_key m.unique, get, lookup]
  cases m.entries.find? fun e => e.1 = k <;> rfl

/-- The map with every value changed. -/
def adjust (m : Map κ V) (f : κ → V → V) : Map κ V :=
  update m (fun e => (e.1, f e.1 e.2)) fun _ => rfl

theorem get_adjust (m : Map κ V) (f : κ → V → V) (k : κ) :
    (m.adjust f).get k = (m.get k).map (f k) := by
  rw [get, adjust, lookup_update, get]
  cases hl : m.lookup k with
  | none => rfl
  | some e =>
    obtain rfl := (lookup_eq_some.mp hl).2
    rfl

/-- Two maps put together, where the second prevails. -/
def merge (m m' : Map κ V) : Map κ V := insertAll m m'.entries

theorem get_merge (m m' : Map κ V) (k : κ) : (m.merge m').get k = (m'.get k).or (m.get k) := by
  rw [get, merge, lookup_insertAll_entries, get]
  cases m'.lookup k <;> rfl

/-- Fill a map key by key with values that may fail to exist. -/
def fill (g : κ → Option V) (ks : List κ) (m : Map κ V) : Option (Map κ V) :=
  ks.foldlM (fun m k => (g k).map (m.set k)) m

theorem fill_eq_some {g : κ → Option V} {ks : List κ} (defined : ∀ k ∈ ks, (g k).isSome = true)
    (m : Map κ V) :
    ∃ m', fill g ks m = some m' ∧ ∀ k, m'.get k = if k ∈ ks then g k else m.get k := by
  induction ks generalizing m with
  | nil => exact ⟨m, rfl, fun _ => rfl⟩
  | cons k₀ ks ih =>
    obtain ⟨v, hv⟩ := Option.isSome_iff_exists.mp (defined k₀ List.mem_cons_self)
    obtain ⟨m', hfill, hget⟩ := ih (fun k hk => defined k (List.mem_cons_of_mem _ hk))
      (m.set k₀ v)
    refine ⟨m', ?_, fun k => ?_⟩
    · rw [fill, List.foldlM_cons, hv]
      exact hfill
    · rw [hget, get_set]
      by_cases hk : k ∈ ks
      · rw [if_pos hk, if_pos (List.mem_cons_of_mem _ hk)]
      · by_cases same : k = k₀
        · subst same
          rw [if_neg hk, if_pos rfl, if_pos List.mem_cons_self, hv]
        · rw [if_neg hk, if_neg same, if_neg (List.not_mem_cons_of_ne_of_not_mem same hk)]

end Map

end KeyedStore
