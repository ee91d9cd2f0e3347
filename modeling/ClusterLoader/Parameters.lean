import ClusterLoader.ConfigModifier
import ClusterLoader.KeyedStore
import Mathlib.Algebra.Ring.Int.Defs

/-!
# Parameters of measurements

A parameter map holds values of any type; the accessors cast them. Integers and
booleans are read from texts as `strconv` reads them, which yields a value also
where it fails. `strconv.ParseFloat` and the conversion of a float to an integer
are left open. Maps are references.
-/

namespace Parameters

open KeyedStore ConfigModifier

variable {F α : Type}

inductive Value (F : Type) where
  | null
  | bool (b : Bool)
  | int (n : Int)
  | float (f : F)
  | string (s : String)
  | map (ref : Nat)
  | other (text : String)

abbrev Dict (F : Type) := Map String (Value F)

inductive Error (F : Type) where
  | keyNotFound (key : String)
  | typeAssertion (value : Value F) (expected : String)

/-- What `strconv` returns: a value, and an error if the text is not of its kind. -/
abbrev Parsed (α : Type) := α × Option NumErr

/-- A number that does not fit is replaced by the nearest one that does. -/
def atoi (s : String) : Parsed Int :=
  match parseInt 64 s with
  | .ok n => (n, none)
  | .error .syntaxError => (0, some .syntaxError)
  | .error .rangeError =>
    (if s.toList.head? = some '-' then -2 ^ 63 else 2 ^ 63 - 1, some .rangeError)

def toBool (s : String) : Parsed Bool :=
  match parseBool s with
  | .ok b => (b, none)
  | .error err => (false, some err)

/-- The accessors for values that may also be given as texts; `cast` is the type
assertion. A text is accepted where its conversion has returned an error. -/
def getAs (cast : Value F → Option α) (parse : String → Parsed α) (expected : String)
    (dict : Dict F) (key : String) : Except (Error F) α :=
  match dict.get key with
  | none => .error (.keyNotFound key)
  | some value =>
    match cast value, value with
    | some a, _ => .ok a
    | none, .string s =>
      match parse s with
      | (a, some _) => .ok a
      | (_, none) => .error (.typeAssertion value expected)
    | none, _ => .error (.typeAssertion value expected)

def getInt (truncate : F → Int) : Dict F → String → Except (Error F) Int :=
  getAs (fun | .int n => some n | .float f => some (truncate f) | _ => none) atoi "an int"

def getFloat64 (parseFloat : String → Parsed F) : Dict F → String → Except (Error F) F :=
  getAs (fun | .float f => some f | _ => none) parseFloat "a float"

def getBool : Dict F → String → Except (Error F) Bool :=
  getAs (fun | .bool b => some b | _ => none) toBool "a bool"

def orDefault (defaultValue : α) : Except (Error F) α → Except (Error F) α
  | .error (.keyNotFound _) => .ok defaultValue
  | result => result

def getIntOrDefault (truncate : F → Int) (dict : Dict F) (key : String) (defaultValue : Int) :
    Except (Error F) Int :=
  orDefault defaultValue (getInt truncate dict key)

def getFloat64OrDefault (parseFloat : String → Parsed F) (dict : Dict F) (key : String)
    (defaultValue : F) : Except (Error F) F :=
  orDefault defaultValue (getFloat64 parseFloat dict key)

def getBoolOrDefault (dict : Dict F) (key : String) (defaultValue : Bool) :
    Except (Error F) Bool :=
  orDefault defaultValue (getBool dict key)

/-! ### Texts -/

/-- The accessor returns what a text at the key is converted to, and an error if it
cannot be converted. -/
def Reads (parse : String → Parsed α) (result : Except (Error F) α) (text : Option (Value F)) :
    Prop :=
  ∀ s, text = some (.string s) →
    match parse s with
    | (a, none) => result = .ok a
    | (_, some _) => ∃ err, result = .error err

variable {cast : Value F → Option α} {parse : String → Parsed α} {expected key : String}
  {dict : Dict F} {d : α}

/-- Every text is treated the wrong way round. -/
theorem reads_getAs_iff (texts : ∀ s, cast (.string s) = none) :
    Reads parse (getAs cast parse expected dict key) (dict.get key) ↔
      ∀ s, dict.get key ≠ some (.string s) := by
  constructor
  · intro reads s found
    have right := reads s found
    simp only [getAs, found, texts] at right
    split at right <;> rename_i parsed <;> simp [parsed] at right
  · intro none s found
    exact absurd found (none s)

theorem orDefault_getAs :
    orDefault d (getAs cast parse expected dict key) =
      if (dict.get key).isNone then .ok d else getAs cast parse expected dict key := by
  cases found : dict.get key with
  | none => simp [getAs, found, orDefault]
  | some value =>
    simp only [getAs, found]
    split
    · rfl
    · split <;> rfl
    · rfl

variable (truncate : F → Int) (parseFloat : String → Parsed F) (dict key)

/-- Each accessor reads a text as it should exactly if there is none at the key;
the default is used exactly if the key is missing. -/
theorem texts_read_iff :
    ((Reads atoi (getInt truncate dict key) (dict.get key) ↔ ∀ s, dict.get key ≠ some (.string s)) ∧
      (Reads parseFloat (getFloat64 parseFloat dict key) (dict.get key) ↔
        ∀ s, dict.get key ≠ some (.string s)) ∧
      (Reads toBool (getBool dict key) (dict.get key) ↔ ∀ s, dict.get key ≠ some (.string s))) ∧
    (∀ d, getIntOrDefault truncate dict key d =
      if (dict.get key).isNone then .ok d else getInt truncate dict key) ∧
    (∀ d, getFloat64OrDefault parseFloat dict key d =
      if (dict.get key).isNone then .ok d else getFloat64 parseFloat dict key) ∧
    ∀ d, getBoolOrDefault dict key d =
      if (dict.get key).isNone then .ok d else getBool dict key := by
  refine ⟨⟨reads_getAs_iff fun _ => rfl, reads_getAs_iff fun _ => rfl,
    reads_getAs_iff fun _ => rfl⟩, ?_, ?_, ?_⟩
  all_goals exact fun _ => orDefault_getAs

/-- A map with a text at the key `a`. -/
def textAt (s : String) : Dict Int := Map.set Store.empty "a" (.string s)

/-- The text of a number or a boolean is rejected, and any other text is read as
zero or false. -/
theorem texts_misread :
    getInt id (textAt "12") "a" = .error (.typeAssertion (.string "12") "an int") ∧
      getInt id (textAt "twelve") "a" = .ok 0 ∧
      getBool (textAt "true") "a" = .error (.typeAssertion (.string "true") "a bool") ∧
      getBool (textAt "yes") "a" = .ok false :=
  ⟨rfl, rfl, rfl, rfl⟩

end Parameters
