import ClusterLoader.ConfigModifier

/-!
# What the configuration modifier leaves alone

Steps are skipped first, where a nil step ends the program if there is a name to
compare. Overwrites are read one after another, and the first that cannot be read
ends the program or is returned as an error. After a run without one the last
overwrite of each field is in force and the other fields are as they were, where
those behind a nil pointer count as zero.
-/

namespace ConfigOverwrites

open TestConfig FieldWrites ConfigModifier

/-- The configuration with the node failure configuration allocated. -/
def allocated (c : DecodedConfig) : DecodedConfig := onNodeFailure id c

/-- Whether writing the field goes through the pointer to the node failures. -/
def behindPointer : Leaf → Bool
  | .int .interval | .int .simulatedDowntime => true
  | _ => false

/-- The fields that no overwrite can name with success. -/
def unwritable (c : DecodedConfig) :
    List Dependency × List TuningSetConfig × Option (List String) × ℚ × ℚ :=
  let nodeFailure := c.chaosMonkey.nodeFailure.getD zeroNodeFailure
  (c.dependencies, c.tuningSets, c.chaosMonkey.excludedNodes, nodeFailure.failureRate,
    nodeFailure.jitterFactor)

/-- What the writes make of a configuration. -/
structure Overwritten (skipSteps : List String) (ws : List Overwrite) (c c' : DecodedConfig) :
    Prop where
  steps : c'.steps = c.steps.filter fun s => ∀ step ∈ s, step.name ∉ skipSteps
  last : ∀ leaf w, FieldWrites.last Overwrite.field leaf ws = some w → InForce c' w
  kept : ∀ w : Overwrite, FieldWrites.last Overwrite.field w.field ws = none →
    (InForce (allocated c') w ↔ InForce (allocated c) w)
  others : unwritable c' = unwritable c
  pointer : c'.chaosMonkey.nodeFailure.isSome = true ↔
    c.chaosMonkey.nodeFailure.isSome = true ∨ ∃ w ∈ ws, behindPointer w.field = true

/-- ChangeTest does not panic, and if it succeeds it has done what it should. -/
def Correct (m : ModifierConfig) (c : DecodedConfig) : Prop :=
  (∀ text, changeTest m c ≠ .error (.panic text)) ∧
    ∀ c', changeTest m c = .ok c' →
      Overwritten m.skipSteps (writesOf m.overwriteTestConfig) c c'

/-- The path of the key goes on behind a field that is not a structure. -/
def GoesPast (k : String) : Prop :=
  ∃ front back t, split '.' k = front ++ back ∧ back ≠ [] ∧
    walk k (.struct .config) front = .ok t ∧ ∀ s, t ≠ .struct s

/-- The first overwrite that cannot be read has such a path. -/
def Derails (overwrites : List String) : Prop :=
  ∃ before o after k v, overwrites = before ++ o :: after ∧
    (∀ b ∈ before, ∃ w, readOverwrite b = .ok w) ∧ split '=' o = [k, v] ∧ GoesPast k

/-! ## Panics -/

theorem goesPast_of_panic {k text : String} {t : Target} {path : List String}
    (h : walk k t path = .error (.panic text)) :
    ∃ front back u, path = front ++ back ∧ back ≠ [] ∧ walk k t front = .ok u ∧
      ∀ s, u ≠ .struct s := by
  induction path generalizing t with
  | nil => cases h
  | cons p rest ih =>
    match t with
    | .struct s =>
      cases found : fieldByName s p with
      | none => simp [walk, found] at h
      | some u =>
        simp only [walk, found] at h
        obtain ⟨front, back, v, rfl, more, reached, past⟩ := ih h
        exact ⟨p :: front, back, v, rfl, more, by simpa only [walk, found] using reached, past⟩
    | .leaf l => exact ⟨[], p :: rest, .leaf l, rfl, nofun, rfl, nofun⟩
    | .other kind => exact ⟨[], p :: rest, .other kind, rfl, nofun, rfl, nofun⟩

theorem panics_of_goesPast {k : String} {t u : Target} {front back : List String}
    (reached : walk k t front = .ok u) (past : ∀ s, u ≠ .struct s) (more : back ≠ []) :
    ∃ text, walk k t (front ++ back) = .error (.panic text) := by
  induction front generalizing t with
  | nil =>
    cases reached
    obtain ⟨p, rest, rfl⟩ := List.exists_cons_of_ne_nil more
    match u with
    | .struct s => exact absurd rfl (past s)
    | .leaf l => exact ⟨_, rfl⟩
    | .other kind => exact ⟨_, rfl⟩
  | cons p front ih =>
    match t with
    | .struct s =>
      cases found : fieldByName s p with
      | none => simp [walk, found] at reached
      | some v =>
        simp only [List.cons_append, walk, found] at reached ⊢
        exact ih reached
    | .leaf l => cases reached
    | .other kind => cases reached

theorem overwriteValue_ne_panic (t : Target) (v k text : String) :
    overwriteValue t v k ≠ .error (.panic text) := by
  unfold overwriteValue
  split
  · split <;> exact nofun
  · exact nofun
  · split <;> exact nofun
  · exact nofun

theorem readOverwrite_panics_iff (o : String) :
    (∃ text, readOverwrite o = .error (.panic text)) ↔
      ∃ k v, split '=' o = [k, v] ∧ GoesPast k := by
  unfold readOverwrite
  split
  · rename_i k v hsplit
    constructor
    · rintro ⟨text, h⟩
      cases hwalk : walk k (.struct .config) (split '.' k) with
      | ok t =>
        rw [hwalk] at h
        exact absurd h (overwriteValue_ne_panic t v k text)
      | error e =>
        rw [hwalk] at h
        cases h
        exact ⟨k, v, hsplit, goesPast_of_panic hwalk⟩
    · rintro ⟨k', v', same, front, back, t, path, more, reached, past⟩
      rw [hsplit] at same
      cases same
      obtain ⟨text, h⟩ := panics_of_goesPast reached past more
      exact ⟨text, by rw [path, h]; rfl⟩
  · rename_i other
    constructor
    · rintro ⟨text, h⟩
      cases h
    · rintro ⟨k, v, hsplit, -⟩
      exact absurd hsplit (other k v)

theorem derails_cons (o : String) (rest : List String) :
    Derails (o :: rest) ↔ (∃ k v, split '=' o = [k, v] ∧ GoesPast k) ∨
      (∃ w, readOverwrite o = .ok w) ∧ Derails rest := by
  constructor
  · rintro ⟨before, o', after, k, v, h, read, hsplit, past⟩
    cases before with
    | nil =>
      cases h
      exact .inl ⟨k, v, hsplit, past⟩
    | cons b before =>
      cases h
      obtain ⟨first, others⟩ := List.forall_mem_cons.mp read
      exact .inr ⟨first, before, o', after, k, v, rfl, others, hsplit, past⟩
  · rintro (⟨k, v, hsplit, past⟩ | ⟨first, before, o', after, k, v, rfl, read, hsplit, past⟩)
    · exact ⟨[], o, rest, k, v, rfl, nofun, hsplit, past⟩
    · exact ⟨o :: before, o', after, k, v, rfl, List.forall_mem_cons.mpr ⟨first, read⟩, hsplit,
        past⟩

theorem readAll_panics_iff (overwrites : List String) :
    (∃ text, readAll overwrites = .error (.panic text)) ↔ Derails overwrites := by
  induction overwrites with
  | nil =>
    constructor
    · rintro ⟨text, h⟩
      cases h
    · rintro ⟨before, o, after, k, v, h, -⟩
      cases before <;> cases h
  | cons o rest ih =>
    rw [derails_cons, ← readOverwrite_panics_iff, ← ih, readAll]
    cases readOverwrite o with
    | error e => simp [bind, Except.bind]
    | ok w => cases readAll rest <;> simp [bind, Except.bind, pure, Except.pure]

/-! ## Writes -/

theorem inForce_allocated {w a : Overwrite} (other : a.field ≠ w.field) (c : DecodedConfig) :
    InForce (allocated (a.apply c)) w = InForce (allocated c) w := by
  rcases a with f | f | f <;> rcases w with g | g | g <;> cases f <;> cases g <;>
    first | rfl | exact absurd rfl other

theorem inForce_withSteps (steps : List (Option Step)) (w : Overwrite) (c : DecodedConfig) :
    InForce (allocated (c.withSteps steps)) w = InForce (allocated c) w := by
  rcases w with f | f | f <;> cases f <;> rfl

theorem unwritable_apply (a : Overwrite) (c : DecodedConfig) :
    unwritable (a.apply c) = unwritable c := by
  rcases a with f | f | f <;> cases f <;> rfl

theorem isSome_apply (a : Overwrite) (c : DecodedConfig) :
    (a.apply c).chaosMonkey.nodeFailure.isSome =
      (c.chaosMonkey.nodeFailure.isSome || behindPointer a.field) := by
  rcases a with f | f | f <;> cases f <;> simp [Overwrite.apply, Overwrite.field, behindPointer,
    onNodeFailure]

theorem isSome_applyAll (ws : List Overwrite) (c : DecodedConfig) :
    (configWrites.applyAll ws c).chaosMonkey.nodeFailure.isSome = true ↔
      c.chaosMonkey.nodeFailure.isSome = true ∨ ∃ w ∈ ws, behindPointer w.field = true := by
  induction ws generalizing c with
  | nil => simp [Writes.applyAll]
  | cons a ws ih =>
    rw [Writes.applyAll_cons, ih]
    change (a.apply c).chaosMonkey.nodeFailure.isSome = true ∨ _ ↔ _
    simp [isSome_apply, or_assoc]

variable (skipSteps : List String)

theorem unskipped_iff (s : Option Step) :
    unskipped skipSteps s = decide (∀ step ∈ s, step.name ∉ skipSteps) := by
  cases s <;> simp [unskipped, Entry.nameOf]

theorem overwritten_modified (ws : List Overwrite) (c : DecodedConfig) :
    Overwritten skipSteps ws c (modified skipSteps ws c) where
  steps := by
    rw [modified, applyAll_steps]
    exact List.filter_congr fun s _ => unskipped_iff skipSteps s
  last leaf w h := (apply_eq_self_iff w _).mp (configWrites.apply_last_applyAll h _)
  kept w h := by
    have after := @Writes.read_applyAll_unwritten _ _ _ configWrites _ w.field ws _
      (fun c => InForce (allocated c) w) (fun a c other => inForce_allocated other c) h
      (c.withSteps (c.steps.filter (unskipped skipSteps)))
    exact iff_of_eq (after.trans (inForce_withSteps _ w c))
  others := configWrites.read_applyAll unwritable_apply ws _
  pointer := isSome_applyAll ws _

theorem skippable_iff (steps : List (Option Step)) :
    Skippable skipSteps steps ↔ skipSteps = [] ∨ none ∉ steps := by
  refine or_congr_right ⟨fun all hnone => ?_, fun absent s hs => ?_⟩
  · cases all none hnone
  · cases s with
    | none => exact absurd hs absent
    | some step => rfl

/-- The modifier is correct exactly if the first overwrite that cannot be read
does not go on behind a field that is not a structure, and no step is nil where
there are names to skip. -/
theorem changeTest_correct_iff (m : ModifierConfig) (c : DecodedConfig) :
    Correct m c ↔
      ¬ Derails m.overwriteTestConfig ∧ (m.skipSteps = [] ∨ none ∉ c.steps) := by
  rw [Correct, ← readAll_panics_iff, changeTest_eq, ← skippable_iff]
  by_cases skippable : Skippable m.skipSteps c.steps
  · rw [if_pos skippable, and_iff_left skippable]
    cases h : readAll m.overwriteTestConfig with
    | error e => simp [Except.map]
    | ok ws =>
      obtain rfl := readAll_ok h
      refine ⟨fun _ => by simp, fun _ => ⟨nofun, ?_⟩⟩
      rintro _ ⟨⟩
      exact overwritten_modified m.skipSteps _ c
  · rw [if_neg skippable]
    exact iff_of_false (fun h => h.1 _ rfl) fun h => skippable h.2

/-- A configuration with a name and nothing else. -/
def named (name : String) : DecodedConfig :=
  ⟨name, [], 0, ⟨0, "", none, none, none, none⟩, [], [], ⟨none, none⟩⟩

/-- The path goes on behind the name of the test, which is a text. -/
theorem overwrite_panics :
    changeTest ⟨["Name.First=load"], []⟩ (named "density") =
        .error (.panic "reflect: call of reflect.Value.FieldByName on string Value") ∧
      ¬ Correct ⟨["Name.First=load"], []⟩ (named "density") := by
  have panics : changeTest ⟨["Name.First=load"], []⟩ (named "density") =
      .error (.panic "reflect: call of reflect.Value.FieldByName on string Value") := rfl
  exact ⟨panics, fun correct => correct.1 _ panics⟩

end ConfigOverwrites
