import ClusterLoader.FieldWrites
import ClusterLoader.TestConfig
import Mathlib.Algebra.Group.Nat.Defs

/-!
# The configuration modifier

The command line can name steps to skip and fields of the configuration to
overwrite, the latter as texts like `Namespace.Prefix=custom`. A field is found
by walking the configuration's types along the path; pointers on the way are
followed, and allocated when they are nil. Only texts, booleans and integers
can be written.

Walking past a field that is not a structure panics in the source, as does
asking a nil step for its name. Which field an overwrite writes, and with which
value, depends on its text alone.
-/

namespace ConfigModifier

open TestConfig FieldWrites

structure ModifierConfig where
  overwriteTestConfig : List String
  skipSteps : List String

inductive Failure where
  | error (text : String)
  | panic (text : String)
  deriving DecidableEq

inductive Kind where
  | bool
  | string
  | int32
  | int64
  | float64
  | slice
  | map
  | struct
  deriving DecidableEq

def Kind.text : Kind → String
  | .bool => "bool"
  | .string => "string"
  | .int32 => "int32"
  | .int64 => "int64"
  | .float64 => "float64"
  | .slice => "slice"
  | .map => "map"
  | .struct => "struct"

inductive StringField where
  | name
  | namePrefix
  deriving DecidableEq

inductive IntField where
  | automanagedNamespaces
  | number
  | deleteNamespaceTimeout
  | interval
  | simulatedDowntime
  deriving DecidableEq

inductive BoolField where
  | deleteStaleNamespaces
  | deleteAutomanagedNamespaces
  | enableExistingNamespaces
  deriving DecidableEq

/-- A field that can be written. -/
inductive Leaf where
  | string (f : StringField)
  | int (f : IntField)
  | bool (f : BoolField)
  deriving DecidableEq

inductive Struct where
  | config
  | namespaceConfig
  | chaosMonkey
  | nodeFailure

inductive Target where
  | struct (s : Struct)
  | leaf (l : Leaf)
  | other (k : Kind)

/-- Durations are 64 bits wide, numbers of namespaces 32. -/
def IntField.kind : IntField → Kind
  | .automanagedNamespaces => .int32
  | .number => .int32
  | .deleteNamespaceTimeout => .int64
  | .interval => .int64
  | .simulatedDowntime => .int64

def IntField.bits (f : IntField) : Nat := if f.kind = .int32 then 32 else 64

def Target.kind : Target → Kind
  | .struct _ => .struct
  | .leaf (.string _) => .string
  | .leaf (.int f) => f.kind
  | .leaf (.bool _) => .bool
  | .other k => k

/-- The field of a structure, behind its pointer if it is one. -/
def fieldByName : Struct → String → Option Target
  | .config, "Name" => some (.leaf (.string .name))
  | .config, "Dependencies" => some (.other .slice)
  | .config, "AutomanagedNamespaces" => some (.leaf (.int .automanagedNamespaces))
  | .config, "Namespace" => some (.struct .namespaceConfig)
  | .config, "Steps" => some (.other .slice)
  | .config, "TuningSets" => some (.other .slice)
  | .config, "ChaosMonkey" => some (.struct .chaosMonkey)
  | .namespaceConfig, "Number" => some (.leaf (.int .number))
  | .namespaceConfig, "Prefix" => some (.leaf (.string .namePrefix))
  | .namespaceConfig, "DeleteStaleNamespaces" => some (.leaf (.bool .deleteStaleNamespaces))
  | .namespaceConfig, "DeleteAutomanagedNamespaces" =>
    some (.leaf (.bool .deleteAutomanagedNamespaces))
  | .namespaceConfig, "EnableExistingNamespaces" =>
    some (.leaf (.bool .enableExistingNamespaces))
  | .namespaceConfig, "DeleteNamespaceTimeout" => some (.leaf (.int .deleteNamespaceTimeout))
  | .chaosMonkey, "NodeFailure" => some (.struct .nodeFailure)
  | .chaosMonkey, "ExcludedNodes" => some (.other .map)
  | .nodeFailure, "FailureRate" => some (.other .float64)
  | .nodeFailure, "Interval" => some (.leaf (.int .interval))
  | .nodeFailure, "JitterFactor" => some (.other .float64)
  | .nodeFailure, "SimulatedDowntime" => some (.leaf (.int .simulatedDowntime))
  | _, _ => none

/-- Follow the path of the key `k`. -/
def walk (k : String) : Target → List String → Except Failure Target
  | t, [] => .ok t
  | .struct s, p :: rest =>
    match fieldByName s p with
    | none => .error (.error ("cannot overwrite config for key '" ++ k ++
        "'. Path does not exist"))
    | some t => walk k t rest
  | t, _ :: _ =>
    .error (.panic ("reflect: call of reflect.Value.FieldByName on " ++ t.kind.text ++ " Value"))

inductive NumErr where
  | syntaxError
  | rangeError

def NumErr.text : NumErr → String
  | .syntaxError => "invalid syntax"
  | .rangeError => "value out of range"

/-- The text of a failed conversion; `num` is quoted as it is. -/
def numError (function num : String) (e : NumErr) : String :=
  "strconv." ++ function ++ ": parsing \"" ++ num ++ "\": " ++ e.text

def parseBool (s : String) : Except NumErr Bool :=
  if s ∈ ["1", "t", "T", "true", "TRUE", "True"] then .ok true
  else if s ∈ ["0", "f", "F", "false", "FALSE", "False"] then .ok false
  else .error .syntaxError

/-- The digits after those already read into `n`. The first value above the
largest one ends the loop. -/
def parseDigits (maxVal : Nat) : Nat → List Char → Except NumErr Nat
  | n, [] => .ok n
  | n, c :: rest =>
    if '0' ≤ c ∧ c ≤ '9' then
      let n := 10 * n + (c.toNat - '0'.toNat)
      if n > maxVal then .error .rangeError else parseDigits maxVal n rest
    else .error .syntaxError

def parseUint (bits : Nat) (s : List Char) : Except NumErr Nat :=
  if s = [] then .error .syntaxError else parseDigits (2 ^ bits - 1) 0 s

def parseInt (bits : Nat) (s : String) : Except NumErr Int :=
  match s.toList with
  | '-' :: digits => do
    let un ← parseUint bits digits
    if un > 2 ^ (bits - 1) then .error .rangeError else .ok (-un)
  | '+' :: digits => positive digits
  | digits => positive digits
where
  positive (digits : List Char) : Except NumErr Int := do
    let un ← parseUint bits digits
    if un ≥ 2 ^ (bits - 1) then .error .rangeError else .ok un

/-- What an overwrite writes once its text is read. -/
inductive Overwrite where
  | setString (f : StringField) (v : String)
  | setInt (f : IntField) (v : Int)
  | setBool (f : BoolField) (v : Bool)
  deriving DecidableEq

def cannotParse (v k type : String) (function : String) (e : NumErr) : Failure :=
  .error ("test config overwrite error: Cannot parse '" ++ v ++ "' for key '" ++ k ++ "' to " ++
    type ++ ": " ++ numError function v e)

def overwriteValue (t : Target) (v k : String) : Except Failure Overwrite :=
  match t with
  | .leaf (.bool f) =>
    match parseBool v with
    | .ok boolV => .ok (.setBool f boolV)
    | .error e => .error (cannotParse v k "bool" "ParseBool" e)
  | .leaf (.string f) => .ok (.setString f v)
  | .leaf (.int f) =>
    match parseInt f.bits v with
    | .ok intV => .ok (.setInt f intV)
    | .error e => .error (cannotParse v k "int" "ParseInt" e)
  | t => .error (.error ("unsupported kind: " ++ t.kind.text ++ " for key " ++ k))

def split (separator : Char) (s : String) : List String :=
  (s.toList.splitOn separator).map String.ofList

def readOverwrite (o : String) : Except Failure Overwrite :=
  match split '=' o with
  | [k, v] => do
    let t ← walk k (.struct .config) (split '.' k)
    overwriteValue t v k
  | _ => .error (.error ("not a key=value pair: '" ++ o ++ "'"))

def zeroNodeFailure : NodeFailureConfig := ⟨0, 0, 0, 0⟩

variable {S : Type}

/-- A nil node failure configuration is allocated by the walk. -/
def onNodeFailure (write : NodeFailureConfig → NodeFailureConfig) (c : ConfigOf S) :
    ConfigOf S :=
  let nodeFailure := write (c.chaosMonkey.nodeFailure.getD zeroNodeFailure)
  { c with chaosMonkey := { c.chaosMonkey with nodeFailure := some nodeFailure } }

namespace Overwrite

def apply : Overwrite → ConfigOf S → ConfigOf S
  | .setString .name v, c => { c with name := v }
  | .setString .namePrefix v, c => { c with namespaceConfig.namePrefix := v }
  | .setInt .automanagedNamespaces v, c => { c with automanagedNamespaces := v }
  | .setInt .number v, c => { c with namespaceConfig.number := v }
  | .setInt .deleteNamespaceTimeout v, c =>
    { c with namespaceConfig.deleteNamespaceTimeout := some v }
  | .setInt .interval v, c => onNodeFailure (fun nf => { nf with interval := v }) c
  | .setInt .simulatedDowntime v, c =>
    onNodeFailure (fun nf => { nf with simulatedDowntime := v }) c
  | .setBool .deleteStaleNamespaces v, c =>
    { c with namespaceConfig.deleteStaleNamespaces := some v }
  | .setBool .deleteAutomanagedNamespaces v, c =>
    { c with namespaceConfig.deleteAutomanagedNamespaces := some v }
  | .setBool .enableExistingNamespaces v, c =>
    { c with namespaceConfig.enableExistingNamespaces := some v }

def field : Overwrite → Leaf
  | .setString f _ => .string f
  | .setInt f _ => .int f
  | .setBool f _ => .bool f

end Overwrite

def modifyOverwrite : List String → ConfigOf S → Except Failure (ConfigOf S)
  | [], c => .ok c
  | o :: rest, c => do
    let w ← readOverwrite o
    modifyOverwrite rest (w.apply c)

/-- An entry of a list of steps has a name unless it is a nil pointer. -/
class Entry (S : Type) where
  nameOf : S → Option String

instance : Entry Step := ⟨fun s => some s.name⟩

instance : Entry (Option Step) := ⟨Option.map Step.name⟩

def nilDereference : String := "runtime error: invalid memory address or nil pointer dereference"

section Skipping

variable [Entry S]

/-- The loop over the steps, which reads a name only to compare it. -/
def keptSteps (skipSteps : List String) : List S → Except Failure (List S)
  | [] => .ok []
  | s :: rest =>
    if skipSteps = [] then (keptSteps skipSteps rest).map (s :: ·)
    else match Entry.nameOf s with
      | none => .error (.panic nilDereference)
      | some name =>
        if name ∈ skipSteps then keptSteps skipSteps rest
        else (keptSteps skipSteps rest).map (s :: ·)

def modifySkipSteps (skipSteps : List String) (c : ConfigOf S) : Except Failure (ConfigOf S) :=
  (keptSteps skipSteps c.steps).map c.withSteps

def changeTest (m : ModifierConfig) (c : ConfigOf S) : Except Failure (ConfigOf S) := do
  let c ← modifySkipSteps m.skipSteps c
  modifyOverwrite m.overwriteTestConfig c

/-- No name is asked of a nil step. -/
def Skippable (skipSteps : List String) (steps : List S) : Prop :=
  skipSteps = [] ∨ ∀ s ∈ steps, (Entry.nameOf s).isSome = true

instance (skipSteps : List String) (steps : List S) : Decidable (Skippable skipSteps steps) :=
  inferInstanceAs (Decidable (_ ∨ _))

def unskipped (skipSteps : List String) (s : S) : Bool :=
  (Entry.nameOf s).all fun name => name ∉ skipSteps

theorem keptSteps_eq (skipSteps : List String) (steps : List S) :
    keptSteps skipSteps steps =
      if Skippable skipSteps steps then .ok (steps.filter (unskipped skipSteps))
      else .error (.panic nilDereference) := by
  induction steps with
  | nil => rw [if_pos (.inr nofun), keptSteps, List.filter_nil]
  | cons s rest ih =>
    rw [keptSteps, ih]
    by_cases hskip : skipSteps = []
    · have hkept : unskipped skipSteps s = true := by
        cases hname : Entry.nameOf s <;> simp [unskipped, hname, hskip]
      rw [if_pos hskip, if_pos (.inl hskip), if_pos (.inl hskip), List.filter_cons, if_pos hkept]
      rfl
    · have hiff : ∀ l : List S, Skippable skipSteps l ↔ ∀ s ∈ l, (Entry.nameOf s).isSome = true :=
        fun l => or_iff_right hskip
      rw [if_neg hskip]
      cases hname : Entry.nameOf s with
      | none => simp [hiff, hname]
      | some name =>
        by_cases named : name ∈ skipSteps
        · simp [hiff, hname, named, unskipped]
        · simp only [named, if_false, hiff, List.forall_mem_cons, hname, Option.isSome_some,
            true_and, List.filter_cons, unskipped, Option.all_some, not_false_eq_true,
            decide_true, if_true]
          split <;> rfl

end Skipping

/-- The writes that the overwrites stand for, in their order. -/
def readAll : List String → Except Failure (List Overwrite)
  | [] => .ok []
  | o :: rest => do
    let w ← readOverwrite o
    let ws ← readAll rest
    return w :: ws

/-- The writes that can be read. -/
def writesOf (overwrites : List String) : List Overwrite :=
  overwrites.filterMap fun o => (readOverwrite o).toOption

theorem readAll_ok {overwrites : List String} {ws : List Overwrite}
    (h : readAll overwrites = .ok ws) : ws = writesOf overwrites := by
  induction overwrites generalizing ws with
  | nil =>
    cases h
    rfl
  | cons o rest ih =>
    rw [readAll] at h
    cases ho : readOverwrite o with
    | error e =>
      rw [ho] at h
      cases h
    | ok w =>
      cases hrest : readAll rest with
      | error e =>
        rw [ho, hrest] at h
        cases h
      | ok ws' =>
        rw [ho, hrest] at h
        cases h
        rw [ih hrest, writesOf, writesOf, List.filterMap_cons, ho]
        rfl

def configWrites : Writes (ConfigOf S) Leaf Overwrite where
  field := Overwrite.field
  apply := Overwrite.apply
  overwrites := by
    intro a b c same
    rcases a with f | f | f <;> rcases b with g | g | g <;> cases same <;> cases f <;> rfl
  commutes := by
    intro a b c different
    rcases a with f | f | f <;> rcases b with g | g | g <;> cases f <;> cases g <;>
      first | rfl | exact absurd rfl different

variable (w : Overwrite)

@[simp] theorem apply_steps (c : ConfigOf S) : (w.apply c).steps = c.steps := by
  rcases w with f | f | f <;> cases f <;> rfl

theorem apply_withSteps {S' : Type} (c : ConfigOf S) (steps : List S') :
    w.apply (c.withSteps steps) = (w.apply c).withSteps steps := by
  rcases w with f | f | f <;> cases f <;> rfl

theorem apply_automanagedNamespaces (c : ConfigOf S)
    (other : w.field ≠ .int .automanagedNamespaces) :
    (w.apply c).automanagedNamespaces = c.automanagedNamespaces := by
  rcases w with f | f | f <;> cases f <;> first | rfl | exact absurd rfl other

/-- The field has the value that the overwrite gives it. -/
def InForce (c : ConfigOf S) : Overwrite → Prop
  | .setString .name v => c.name = v
  | .setString .namePrefix v => c.namespaceConfig.namePrefix = v
  | .setInt .automanagedNamespaces v => c.automanagedNamespaces = v
  | .setInt .number v => c.namespaceConfig.number = v
  | .setInt .deleteNamespaceTimeout v => c.namespaceConfig.deleteNamespaceTimeout = some v
  | .setInt .interval v => c.chaosMonkey.nodeFailure.map NodeFailureConfig.interval = some v
  | .setInt .simulatedDowntime v =>
    c.chaosMonkey.nodeFailure.map NodeFailureConfig.simulatedDowntime = some v
  | .setBool .deleteStaleNamespaces v => c.namespaceConfig.deleteStaleNamespaces = some v
  | .setBool .deleteAutomanagedNamespaces v =>
    c.namespaceConfig.deleteAutomanagedNamespaces = some v
  | .setBool .enableExistingNamespaces v => c.namespaceConfig.enableExistingNamespaces = some v

theorem inForce_apply (c : ConfigOf S) : InForce (w.apply c) w := by
  rcases w with f | f | f <;> cases f <;> rfl

theorem apply_inForce {w : Overwrite} {c : ConfigOf S} (h : InForce c w) : w.apply c = c := by
  obtain ⟨name, dependencies, automanaged, ns, steps, tuningSets, nodeFailure, excluded⟩ := c
  rcases w with f | ⟨f, v⟩ | f
  · cases f <;> cases h <;> rfl
  · cases f with
    | interval | simulatedDowntime =>
      obtain ⟨nf, hnf, rfl⟩ := Option.map_eq_some_iff.mp h
      cases hnf
      rfl
    | _ => cases ns; cases h; rfl
  · cases ns
    cases f <;> cases h <;> rfl

/-- An overwrite changes nothing exactly when its value is already there. -/
theorem apply_eq_self_iff (c : ConfigOf S) : w.apply c = c ↔ InForce c w := by
  refine ⟨fun h => ?_, apply_inForce⟩
  have after := inForce_apply w c
  rwa [h] at after

theorem applyAll_steps (ws : List Overwrite) (c : ConfigOf S) :
    (configWrites.applyAll ws c).steps = c.steps :=
  configWrites.read_applyAll apply_steps ws c

theorem applyAll_withSteps {S' : Type} (ws : List Overwrite) (c : ConfigOf S) (steps : List S') :
    configWrites.applyAll ws (c.withSteps steps) =
      (configWrites.applyAll ws c).withSteps steps :=
  configWrites.applyAll_commutes (ConfigOf.withSteps · steps)
    (fun w c => apply_withSteps w c steps) ws c

/-- Overwriting reads all texts, in order, and then writes. -/
theorem modifyOverwrite_eq (overwrites : List String) (c : ConfigOf S) :
    modifyOverwrite overwrites c =
      (readAll overwrites).map fun ws => configWrites.applyAll ws c := by
  induction overwrites generalizing c with
  | nil => rfl
  | cons o rest ih =>
    rw [modifyOverwrite, readAll]
    cases readOverwrite o with
    | error e => rfl
    | ok w =>
      change modifyOverwrite rest (w.apply c) = _
      rw [ih]
      cases readAll rest <;> rfl

/-- What the modifier makes of a configuration once the overwrites are read. -/
def modified [Entry S] (skipSteps : List String) (ws : List Overwrite) (c : ConfigOf S) :
    ConfigOf S :=
  configWrites.applyAll ws (c.withSteps (c.steps.filter (unskipped skipSteps)))

theorem changeTest_eq [Entry S] (m : ModifierConfig) (c : ConfigOf S) :
    changeTest m c =
      if Skippable m.skipSteps c.steps then
        (readAll m.overwriteTestConfig).map fun ws => modified m.skipSteps ws c
      else .error (.panic nilDereference) := by
  rw [changeTest, modifySkipSteps, keptSteps_eq]
  split
  · exact modifyOverwrite_eq _ _
  · rfl

end ConfigModifier
