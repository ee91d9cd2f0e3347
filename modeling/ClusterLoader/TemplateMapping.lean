import Mathlib.Data.Rat.Defs
import ClusterLoader.FallibleLoops
import ClusterLoader.KeyedStore
import ClusterLoader.LastValues
import Mathlib.Algebra.Group.Int.Defs

/-!
# Template variables

GetMapping collects the variables of templates: the override files one after the
other, the number of nodes, and the environment variables that begin with `CL2_`.
The same key from a file and from the environment is a conflict unless the two
values are deeply equal, which values of different types never are. Files are
decoded by way of JSON, so their numbers are floats; the text of a variable is
tried as an integer before it is tried as a float.

Arrays and objects are left open, and so is `strconv.ParseFloat`. What a file is
decoded to is given by the file. The order in which Go ranges over a map is a
parameter.
-/

namespace TemplateMapping

open FallibleLoops KeyedStore LastValues

/-! ## Values -/

inductive Float64 where
  | nan
  | negInf
  | finite (q : ℚ)
  | posInf
  deriving DecidableEq

/-- A value of a mapping; `J` has the arrays and objects. -/
inductive Value (J : Type) where
  | null
  | bool (b : Bool)
  | int (n : Int)
  | int64 (n : Int)
  | float64 (x : Float64)
  | string (s : String)
  | composite (j : J)
  deriving DecidableEq

/-- What JSON is decoded to: numbers are floats, none of them infinite. -/
inductive Decoded (J : Type) where
  | null
  | bool (b : Bool)
  | number (q : ℚ)
  | string (s : String)
  | composite (j : J)

variable {J : Type}

def Decoded.toValue : Decoded J → Value J
  | .null => .null
  | .bool b => .bool b
  | .number q => .float64 (.finite q)
  | .string s => .string s
  | .composite j => .composite j

section
variable [DecidableEq J]

/-- `reflect.DeepEqual`: the types have to be the same, and what is not a number is
not equal to itself. -/
def deepEqual (a b : Value J) : Bool :=
  match a, b with
  | .float64 .nan, .float64 .nan => false
  | a, b => a = b

end

/-! ## Override files -/

abbrev Mapping (J : Type) := Map String (Value J)

abbrev File (J : Type) := Map String (Decoded J)

inductive Error (J : Type) where
  | creation (err : String)
  | unparsable (keyValue : String)
  | conflict (key : String) (old new : Value J)

/-- A file that cannot be read or decoded fails. The keys of a file are distinct, so
their order does not matter. -/
def updateMappingFromFile (mapping : Mapping J) (file : Except String (File J)) :
    Except (Error J) (Mapping J) :=
  match file with
  | .error err => .error (.creation err)
  | .ok tmpMapping =>
    .ok (tmpMapping.entries.foldl (fun m e => Map.set m e.1 e.2.toValue) mapping)

/-- The files of a test come behind those of all tests. -/
def loadTestOverrides (paths testOverridePaths : List (Except String (File J))) :
    Except (Error J) (Mapping J) := do
  let mapping ← paths.foldlM updateMappingFromFile Store.empty
  testOverridePaths.foldlM updateMappingFromFile mapping

/-! ## The environment -/

/-- `strconv.ParseInt` to base ten: a sign and digits, within 64 bits. -/
def parseInt (str : String) : Option Int :=
  let (negative, digits) :=
    match str.toList with
    | '-' :: digits => (true, digits)
    | '+' :: digits => (false, digits)
    | digits => (false, digits)
  if digits = [] ∨ digits.all Char.isDigit = false then none
  else
    let magnitude : Int := digits.foldl (fun n c => 10 * n + (c.toNat - 48 : Nat)) 0
    let value := if negative then -magnitude else magnitude
    if -2 ^ 63 ≤ value ∧ value < 2 ^ 63 then some value else none

def parseBool (str : String) : Option Bool :=
  if str ∈ ["1", "t", "T", "TRUE", "true", "True"] then some true
  else if str ∈ ["0", "f", "F", "FALSE", "false", "False"] then some false
  else none

section Environment
variable (parseFloat : String → Option Float64)

def unpackStringValue (str : String) : Value J :=
  match parseInt str with
  | some n => .int64 n
  | none =>
    match parseFloat str with
    | some x => .float64 x
    | none =>
      match parseBool str with
      | some b => .bool b
      | none => .string str

def isCL2 (keyValue : String) : Bool := "CL2_".toList.isPrefixOf keyValue.toList

/-- `strings.SplitN(keyValue, "=", 2)`, if that has two parts. -/
def splitN (keyValue : String) : Option (String × String) :=
  match keyValue.toList.dropWhile (· ≠ '=') with
  | _ :: value => some (String.ofList (keyValue.toList.takeWhile (· ≠ '=')), String.ofList value)
  | [] => none

def loadEnv (mapping : Mapping J) (keyValue : String) : Except (Error J) (Mapping J) :=
  if isCL2 keyValue then
    match splitN keyValue with
    | none => .error (.unparsable keyValue)
    | some (key, value) => .ok (mapping.set key (unpackStringValue parseFloat value))
  else .ok mapping

def loadCL2Envs (environ : List String) : Except (Error J) (Mapping J) :=
  environ.foldlM (loadEnv parseFloat) Store.empty

end Environment

/-! ## The mapping -/

section Merge
variable [DecidableEq J]

def mergeEntry (a : Mapping J) (e : String × Value J) : Except (Error J) (Mapping J) :=
  match a.get e.1 with
  | none => .ok (a.set e.1 e.2)
  | some av => if deepEqual av e.2 then .ok a else .error (.conflict e.1 av e.2)

/-- An order of the entries of a map, for ranging over it. -/
structure Ranging (J : Type) where
  entries : Mapping J → List (String × Value J)
  perm : ∀ m, (entries m).Perm m.entries

def mergeMappings (ranging : Ranging J) (a b : Mapping J) : Except (Error J) (Mapping J) :=
  (ranging.entries b).foldlM mergeEntry a

def getMapping (parseFloat : String → Option Float64) (ranging : Ranging J)
    (overridePaths testOverridePaths : List (Except String (File J))) (nodes : Int)
    (environ : List String) : Except (Error J) (Mapping J) := do
  let mapping ← loadTestOverrides overridePaths testOverridePaths
  let mapping := mapping.set "Nodes" (.int nodes)
  let envMapping ← loadCL2Envs parseFloat environ
  mergeMappings ranging mapping envMapping

end Merge

/-! ## What the mapping is to be -/

/-- Variables with distinct names. -/
structure Environment where
  vars : List (String × String)
  nodup : (vars.map Prod.fst).Nodup
  named : ∀ v ∈ vars, '=' ∉ v.1.toList

def Environment.environ (env : Environment) : List String :=
  env.vars.map fun v => v.1 ++ "=" ++ v.2

def Environment.cl2 (env : Environment) : List (String × String) :=
  env.vars.filter fun v => isCL2 v.1

/-- Numbers of all types by their value. -/
def Value.norm : Value J → Value J
  | .int n => .float64 (.finite n)
  | .int64 n => .float64 (.finite n)
  | v => v

/-- The value of a key in the last file that defines it. -/
def fileValue (files : List (File J)) (key : String) : Option (Value J) :=
  (lastSome (fun file => Map.get file key) files).map Decoded.toValue

section Spec
variable (parseFloat : String → Option Float64)

/-- A variable and the files define the same key with different values. -/
def Conflicting (files : List (File J)) (env : Environment) : Prop :=
  ∃ v ∈ env.cl2, ∃ old, fileValue files v.1 = some old ∧
    old.norm ≠ (unpackStringValue parseFloat v.2).norm

/-- The files, the variables and the nodes are in the mapping with their values, and
nothing else is. -/
structure Maps (files : List (File J)) (nodes : Int) (env : Environment) (m : Mapping J) :
    Prop where
  fromFiles : ∀ k old, k ≠ "Nodes" → fileValue files k = some old →
    (m.get k).map Value.norm = some old.norm
  fromEnv : ∀ v ∈ env.cl2,
    (m.get v.1).map Value.norm = some (unpackStringValue parseFloat v.2).norm
  nodeCount : m.get "Nodes" = some (.int nodes)
  only : ∀ k, (m.get k).isSome = true →
    k = "Nodes" ∨ (fileValue files k).isSome = true ∨ ∃ v ∈ env.cl2, v.1 = k

variable [DecidableEq J]

/-- A conflict is reported exactly if there is one, and otherwise everything is mapped. -/
def MergesByValue (ranging : Ranging J) (overrides testOverrides : List (File J)) (nodes : Int)
    (env : Environment) : Prop :=
  ((∃ key old new, getMapping parseFloat ranging (overrides.map .ok) (testOverrides.map .ok) nodes
      env.environ = .error (.conflict key old new)) ↔
    Conflicting parseFloat (overrides ++ testOverrides) env) ∧
  (¬ Conflicting parseFloat (overrides ++ testOverrides) env →
    ∃ m, getMapping parseFloat ranging (overrides.map .ok) (testOverrides.map .ok) nodes
        env.environ = .ok m ∧
      Maps parseFloat (overrides ++ testOverrides) nodes env m)

/-- The text of a variable is an integer, and a file has this number for the same key. -/
def SameInteger (files : List (File J)) (env : Environment) : Prop :=
  ∃ v ∈ env.cl2, ∃ n : Int, parseInt v.2 = some n ∧
    fileValue files v.1 = some (.float64 (.finite n))

end Spec

/-! ## The files -/

/-- A file on top of a mapping. -/
def addFile (mapping : Mapping J) (file : File J) : Mapping J :=
  file.entries.foldl (fun m e => Map.set m e.1 e.2.toValue) mapping

theorem get_addFile (mapping : Mapping J) (file : File J) (k : String) :
    (addFile mapping file).get k = ((Map.get file k).map Decoded.toValue).or (mapping.get k) := by
  have hget : (file.entries.find? fun e => e.1 = k).map (fun e => e.2.toValue) =
      (Map.get file k).map Decoded.toValue := by
    rw [Map.get, Option.map_map]
    rfl
  rw [addFile, Map.get_foldl_set Prod.fst (fun e => e.2.toValue) mapping file.unique, hget]

theorem foldlM_updateMappingFromFile (files : List (File J)) (mapping : Mapping J) :
    (files.map Except.ok).foldlM updateMappingFromFile mapping =
      (.ok (files.foldl addFile mapping) : Except (Error J) (Mapping J)) := by
  rw [List.foldlM_map]
  exact foldlM_eq_ok_foldl (fun _ _ _ => rfl) mapping

theorem get_foldl_addFile (files : List (File J)) (k : String) :
    (files.foldl addFile Store.empty).get k = fileValue files k := by
  induction files using List.reverseRecOn with
  | nil => rfl
  | append_singleton files file ih =>
    rw [List.foldl_concat, get_addFile, ih, fileValue, fileValue, lastSome_concat, Option.map_or]

theorem loadTestOverrides_ok (overrides testOverrides : List (File J)) :
    ∃ m, loadTestOverrides (overrides.map .ok) (testOverrides.map .ok) = .ok m ∧
      ∀ k, m.get k = fileValue (overrides ++ testOverrides) k := by
  refine ⟨(overrides ++ testOverrides).foldl addFile Store.empty, ?_, get_foldl_addFile _⟩
  rw [loadTestOverrides, foldlM_updateMappingFromFile, List.foldl_append]
  exact foldlM_updateMappingFromFile testOverrides _

/-! ## The variables -/

theorem toList_keyValue (key value : String) :
    (key ++ "=" ++ value).toList = key.toList ++ '=' :: value.toList := by
  rw [String.toList_append, String.toList_append, List.append_assoc]
  rfl

theorem splitN_eq {key value : String} (named : '=' ∉ key.toList) :
    splitN (key ++ "=" ++ value) = some (key, value) := by
  have hkey : ∀ c ∈ key.toList, decide (c ≠ '=') = true := by
    intro c hc
    exact decide_eq_true fun h => named (h ▸ hc)
  rw [splitN, toList_keyValue, List.takeWhile_append_of_pos hkey,
    List.dropWhile_append_of_pos hkey]
  simp

/-- The separator is not part of what the name of a variable has to begin with. -/
theorem isCL2_append (key value : String) : isCL2 (key ++ "=" ++ value) = isCL2 key := by
  rw [isCL2, isCL2, toList_keyValue, Bool.eq_iff_iff, List.isPrefixOf_iff_prefix,
    List.isPrefixOf_iff_prefix]
  refine ⟨fun h => ?_, fun h => h.trans (List.prefix_append ..)⟩
  by_cases long : "CL2_".toList.length ≤ key.toList.length
  · exact List.prefix_of_prefix_length_le h (List.prefix_append ..) long
  · have hsplit : key.toList ++ '=' :: value.toList = (key.toList ++ ['=']) ++ value.toList := by
      simp
    have hshort : key.toList ++ ['='] <+: "CL2_".toList := by
      refine List.prefix_of_prefix_length_le (hsplit ▸ List.prefix_append ..) h ?_
      rw [List.length_append, List.length_singleton]
      omega
    have hmem : '=' ∈ "CL2_".toList := hshort.subset (List.mem_append_right _ List.mem_cons_self)
    exact absurd hmem (by decide)

section
variable (parseFloat : String → Option Float64)

def addVar (mapping : Mapping J) (v : String × String) : Mapping J :=
  mapping.set v.1 (unpackStringValue parseFloat v.2)

theorem foldlM_loadEnv {vars : List (String × String)}
    (named : ∀ v ∈ vars, '=' ∉ v.1.toList) (mapping : Mapping J) :
    (vars.map fun v => v.1 ++ "=" ++ v.2).foldlM (loadEnv parseFloat) mapping =
      (.ok ((vars.filter fun v => isCL2 v.1).foldl (addVar parseFloat) mapping) :
        Except (Error J) (Mapping J)) := by
  rw [List.foldlM_map, List.foldl_filter]
  refine foldlM_eq_ok_foldl (fun v hv m => ?_) mapping
  rw [loadEnv, isCL2_append, splitN_eq (named v hv)]
  by_cases h : isCL2 v.1 = true
  · rw [if_pos h, if_pos h]
    rfl
  · rw [if_neg h, if_neg h]

theorem loadCL2Envs_ok (env : Environment) :
    ∃ m : Mapping J, loadCL2Envs parseFloat env.environ = .ok m ∧
      ∀ k val, m.get k = some val ↔
        ∃ v ∈ env.cl2, v.1 = k ∧ unpackStringValue parseFloat v.2 = val := by
  have hnodup : (env.cl2.map Prod.fst).Nodup :=
    (List.filter_sublist.map Prod.fst).nodup env.nodup
  refine ⟨_, foldlM_loadEnv parseFloat env.named _, fun k val => ?_⟩
  have hget := Map.get_foldl_set Prod.fst
    (fun v : String × String => (unpackStringValue parseFloat v.2 : Value J)) Store.empty hnodup k
  refine (iff_of_eq (congrArg (· = some val) hget)).trans ?_
  rw [Map.get_empty, Option.or_none, Option.map_eq_some_iff]
  constructor
  · rintro ⟨v, hv, rfl⟩
    have hk := (Store.find?_key_eq_some hnodup).mp hv
    exact ⟨v, hk.1, hk.2, rfl⟩
  · rintro ⟨v, hv, rfl, rfl⟩
    exact ⟨v, (Store.find?_key_eq_some hnodup).mpr ⟨hv, rfl⟩, rfl⟩

end

/-! ## Equal values of different types -/

theorem exists_decoded {files : List (File J)} {k : String} {old : Value J}
    (h : fileValue files k = some old) : ∃ d : Decoded J, old = d.toValue := by
  obtain ⟨d, _, rfl⟩ := Option.map_eq_some_iff.mp h
  exact ⟨d, rfl⟩

theorem norm_toValue (d : Decoded J) : d.toValue.norm = d.toValue := by
  cases d <;> rfl

theorem toValue_ne_int64 (d : Decoded J) (n : Int) : d.toValue ≠ .int64 n := by
  cases d <;> nofun

variable {parseFloat : String → Option Float64}

theorem norm_unpackStringValue {str : String} (h : parseInt str = none) :
    (unpackStringValue parseFloat str : Value J).norm = unpackStringValue parseFloat str := by
  rw [unpackStringValue, h]
  cases parseFloat str with
  | some x => rfl
  | none => cases parseBool str <;> rfl

section
variable [DecidableEq J]

theorem deepEqual_toValue (d : Decoded J) (w : Value J) :
    deepEqual d.toValue w = decide (d.toValue = w) := by
  cases d <;> cases w <;> rfl

/-- A value of a file is deeply equal to that of a variable unless they differ, or the
variable is read as an integer. -/
theorem deepEqual_eq_false_iff (d : Decoded J) (str : String) :
    deepEqual d.toValue (unpackStringValue parseFloat str) = false ↔
      d.toValue.norm ≠ (unpackStringValue parseFloat str).norm ∨
        ∃ n : Int, parseInt str = some n ∧ d.toValue = .float64 (.finite n) := by
  rw [deepEqual_toValue, decide_eq_false_iff_not, norm_toValue]
  cases h : parseInt str with
  | some n =>
    have hunpack : (unpackStringValue parseFloat str : Value J) = .int64 n := by
      rw [unpackStringValue, h]
    rw [hunpack]
    simp only [toValue_ne_int64, not_false_iff, true_iff, Option.some.injEq, exists_eq_left']
    exact (em _).symm
  | none =>
    rw [norm_unpackStringValue h]
    exact ⟨.inl, fun hor => hor.resolve_right nofun⟩

/-! ## The merge -/

/-- A variable that the mapping has with another value. -/
def Clashes (a : Mapping J) (e : String × Value J) : Prop :=
  ∃ av, a.get e.1 = some av ∧ deepEqual av e.2 = false

/-- An entry that does not clash is set if its key is new, and is there already otherwise. -/
theorem mergeEntry_cases (a : Mapping J) (e : String × Value J) :
    (Clashes a e ∧ ∃ old, mergeEntry a e = .error (.conflict e.1 old e.2)) ∨
    (¬ Clashes a e ∧ ∃ m, mergeEntry a e = .ok m ∧
      ∀ k, m.get k = (a.get k).or (if e.1 = k then some e.2 else none)) := by
  cases hget : a.get e.1 with
  | none =>
    refine .inr ⟨?_, a.set e.1 e.2, by simp only [mergeEntry, hget], fun k => ?_⟩
    · rintro ⟨av, hav, _⟩
      cases hget.symm.trans hav
    · rw [Map.get_set]
      by_cases hk : e.1 = k
      · subst hk
        rw [if_pos rfl, if_pos rfl, hget, Option.none_or]
      · rw [if_neg (Ne.symm hk), if_neg hk, Option.or_none]
  | some av =>
    cases hequal : deepEqual av e.2 with
    | false =>
      refine .inl ⟨⟨av, hget, hequal⟩, av, ?_⟩
      simp only [mergeEntry, hget, hequal, Bool.false_eq_true, if_false]
    | true =>
      refine .inr ⟨?_, a, by simp only [mergeEntry, hget, hequal, if_true], fun k => ?_⟩
      · rintro ⟨av', hget', hne⟩
        obtain rfl := Option.some.inj (hget.symm.trans hget')
        cases hequal.symm.trans hne
      · by_cases hk : e.1 = k
        · subst hk
          rw [hget, Option.some_or]
        · rw [if_neg hk, Option.or_none]

theorem foldlM_mergeEntry {es : List (String × Value J)} (nodup : (es.map Prod.fst).Nodup)
    (a : Mapping J) :
    ((∃ e ∈ es, Clashes a e) ∧
      ∃ key old new, es.foldlM mergeEntry a = .error (.conflict key old new)) ∨
    ((¬ ∃ e ∈ es, Clashes a e) ∧ ∃ m, es.foldlM mergeEntry a = .ok m ∧
      ∀ k, m.get k = (a.get k).or ((es.find? fun e => e.1 = k).map Prod.snd)) := by
  induction es generalizing a with
  | nil => exact .inr ⟨nofun, a, rfl, fun k => (Option.or_none ..).symm⟩
  | cons e rest ih =>
    have hother := Store.forall_key_ne nodup
    have hnodup := List.Nodup.of_cons nodup
    rw [List.exists_mem_cons_iff]
    rcases mergeEntry_cases a e with ⟨clash, old, herror⟩ | ⟨agree, next, hnext, hget⟩
    · refine .inl ⟨.inl clash, e.1, old, e.2, ?_⟩
      rw [List.foldlM_cons, herror]
      rfl
    · have hfold : (e :: rest).foldlM mergeEntry a = rest.foldlM mergeEntry next := by
        rw [List.foldlM_cons, hnext]
        rfl
      -- The keys are distinct, so what is left clashes as it did before.
      have hclash : (∃ e' ∈ rest, Clashes a e') ↔ ∃ e' ∈ rest, Clashes next e' := by
        refine exists_congr fun e' => and_congr_right fun he' => ?_
        rw [Clashes, Clashes, hget, if_neg (hother e' he').symm, Option.or_none]
      rw [or_iff_right agree, hclash, hfold]
      rcases ih hnodup next with hconflict | ⟨hnone, m, hm, hall⟩
      · exact .inl hconflict
      · refine .inr ⟨hnone, m, hm, fun k => ?_⟩
        rw [hall, hget, Option.or_assoc, List.find?_cons]
        by_cases hk : e.1 = k
        · rw [if_pos hk, decide_eq_true hk]
          rfl
        · rw [if_neg hk, decide_eq_false hk, Option.none_or]

/-! ## The whole mapping -/

section
variable (parseFloat : String → Option Float64) (ranging : Ranging J)
  (overrides testOverrides : List (File J)) (nodes : Int) (env : Environment)

theorem cl2_ne_nodes {v : String × String} (hv : v ∈ env.cl2) : v.1 ≠ "Nodes" := by
  intro h
  have hcl2 : isCL2 v.1 = true := (List.mem_filter.mp hv).2
  rw [h] at hcl2
  exact absurd hcl2 (by decide)

/-- What is merged: the files and the nodes on one side, the variables on the other. -/
theorem getMapping_eq : ∃ (a : Mapping J) (es : List (String × Value J)),
    getMapping parseFloat ranging (overrides.map .ok) (testOverrides.map .ok) nodes env.environ =
      es.foldlM mergeEntry a ∧
    (∀ k, a.get k =
      if k = "Nodes" then some (.int nodes) else fileValue (overrides ++ testOverrides) k) ∧
    (es.map Prod.fst).Nodup ∧
    ∀ e, e ∈ es ↔ ∃ v ∈ env.cl2, v.1 = e.1 ∧ unpackStringValue parseFloat v.2 = e.2 := by
  obtain ⟨m, hm, hget⟩ := loadTestOverrides_ok overrides testOverrides
  obtain ⟨envMapping, henv, hvars⟩ := loadCL2Envs_ok (J := J) parseFloat env
  refine ⟨m.set "Nodes" (.int nodes), ranging.entries envMapping, ?_, fun k => ?_, ?_, ?_⟩
  · rw [getMapping, hm]
    rw [henv]
    rfl
  · rw [Map.get_set, hget]
  · exact ((ranging.perm envMapping).map Prod.fst).nodup_iff.mpr envMapping.unique
  · intro e
    rw [(ranging.perm envMapping).mem_iff, ← hvars]
    exact ⟨Map.get_of_mem, Map.mem_of_get⟩

variable {parseFloat overrides testOverrides nodes env} {a : Mapping J}
  {es : List (String × Value J)}
  (files : ∀ k, a.get k =
    if k = "Nodes" then some (.int nodes) else fileValue (overrides ++ testOverrides) k)
  (vars : ∀ e, e ∈ es ↔ ∃ v ∈ env.cl2, v.1 = e.1 ∧ unpackStringValue parseFloat v.2 = e.2)

include files vars

theorem exists_clashes_iff : (∃ e ∈ es, Clashes a e) ↔
    Conflicting parseFloat (overrides ++ testOverrides) env ∨
      SameInteger (overrides ++ testOverrides) env := by
  have hvar : ∀ v ∈ env.cl2, Clashes a (v.1, unpackStringValue parseFloat v.2) ↔
      ∃ old, fileValue (overrides ++ testOverrides) v.1 = some old ∧
        (old.norm ≠ (unpackStringValue parseFloat v.2).norm ∨
          ∃ n : Int, parseInt v.2 = some n ∧ old = .float64 (.finite n)) := by
    intro v hv
    rw [Clashes, files, if_neg (cl2_ne_nodes env hv)]
    refine exists_congr fun old => and_congr_right fun hold => ?_
    obtain ⟨d, rfl⟩ := exists_decoded hold
    exact deepEqual_eq_false_iff d v.2
  constructor
  · rintro ⟨⟨k, val⟩, he, hclash⟩
    obtain ⟨v, hv, rfl, rfl⟩ := (vars _).mp he
    obtain ⟨old, hold, hdiffer | ⟨n, hn, rfl⟩⟩ := (hvar v hv).mp hclash
    · exact .inl ⟨v, hv, old, hold, hdiffer⟩
    · exact .inr ⟨v, hv, n, hn, hold⟩
  · rintro (⟨v, hv, old, hold, hdiffer⟩ | ⟨v, hv, n, hn, hold⟩)
    · exact ⟨_, (vars _).mpr ⟨v, hv, rfl, rfl⟩, (hvar v hv).mpr ⟨old, hold, .inl hdiffer⟩⟩
    · exact ⟨_, (vars _).mpr ⟨v, hv, rfl, rfl⟩, (hvar v hv).mpr ⟨_, hold, .inr ⟨n, hn, rfl⟩⟩⟩

theorem maps_of_no_clash (unique : (es.map Prod.fst).Nodup) (agree : ¬ ∃ e ∈ es, Clashes a e)
    {m : Mapping J}
    (hm : ∀ k, m.get k = (a.get k).or ((es.find? fun e => e.1 = k).map Prod.snd)) :
    Maps parseFloat (overrides ++ testOverrides) nodes env m := by
  refine ⟨fun k old hk hold => ?_, fun v hv => ?_, ?_, fun k hk => ?_⟩
  · rw [hm, files, if_neg hk, hold, Option.some_or, Option.map_some]
  · have hmem := (vars (v.1, unpackStringValue parseFloat v.2)).mpr ⟨v, hv, rfl, rfl⟩
    have hfind := (Store.find?_key_eq_some unique).mpr ⟨hmem, rfl⟩
    rw [hm, hfind]
    cases hget : a.get v.1 with
    | none => rfl
    | some old =>
      have hold := hget
      rw [files, if_neg (cl2_ne_nodes env hv)] at hold
      obtain ⟨d, rfl⟩ := exists_decoded hold
      have hequal : deepEqual d.toValue (unpackStringValue parseFloat v.2) = true := by
        by_contra hne
        exact agree ⟨_, hmem, _, hget, Bool.not_eq_true _ ▸ hne⟩
      rw [deepEqual_toValue, decide_eq_true_iff] at hequal
      rw [Option.some_or, Option.map_some, hequal]
  · rw [hm, files, if_pos rfl, Option.some_or]
  · rw [hm] at hk
    cases hget : a.get k with
    | some val =>
      rw [files] at hget
      by_cases hnodes : k = "Nodes"
      · exact .inl hnodes
      · rw [if_neg hnodes] at hget
        exact .inr (.inl (by rw [hget]; rfl))
    | none =>
      rw [hget] at hk
      obtain ⟨val, hval⟩ := Option.isSome_iff_exists.mp hk
      obtain ⟨e, he, _⟩ := Option.map_eq_some_iff.mp hval
      obtain ⟨hmem, rfl⟩ := (Store.find?_key_eq_some unique).mp he
      obtain ⟨v, hv, heq, _⟩ := (vars e).mp hmem
      exact .inr (.inr ⟨v, hv, heq⟩)

end

/-- Files and variables merge by value exactly where there is a conflict anyway, or no
variable is an integer that a file has for the same key. -/
theorem mergesByValue_iff (parseFloat : String → Option Float64) (ranging : Ranging J)
    (overrides testOverrides : List (File J)) (nodes : Int) (env : Environment) :
    MergesByValue parseFloat ranging overrides testOverrides nodes env ↔
      Conflicting parseFloat (overrides ++ testOverrides) env ∨
        ¬ SameInteger (overrides ++ testOverrides) env := by
  obtain ⟨a, es, hmapping, files, unique, vars⟩ :=
    getMapping_eq parseFloat ranging overrides testOverrides nodes env
  have hclash := exists_clashes_iff files vars
  rw [MergesByValue, hmapping]
  rcases foldlM_mergeEntry unique a with ⟨clash, hconflict⟩ | ⟨agree, m, hm, hget⟩
  · by_cases conflicting : Conflicting parseFloat (overrides ++ testOverrides) env
    · exact ⟨fun _ => .inl conflicting,
        fun _ => ⟨⟨fun _ => conflicting, fun _ => hconflict⟩, fun h => absurd conflicting h⟩⟩
    · have hsame := (hclash.mp clash).resolve_left conflicting
      constructor
      · intro h
        exact absurd (h.1.mp hconflict) conflicting
      · rintro (h | h)
        · exact absurd h conflicting
        · exact absurd hsame h
  · rw [hclash, not_or] at agree
    refine ⟨fun _ => .inr agree.2, fun _ => ⟨⟨?_, fun h => absurd h agree.1⟩, fun _ => ?_⟩⟩
    · rintro ⟨key, old, new, herror⟩
      cases hm.symm.trans herror
    · exact ⟨m, hm, maps_of_no_clash files vars unique (hclash.not.mpr (not_or.mpr agree)) hget⟩

end

/-! ## An equal number that conflicts -/

def inOrder : Ranging Empty := ⟨fun m => m.entries, fun _ => .refl _⟩

def fiveInFile : File Empty := Map.set Store.empty "CL2_PARAM" (.number 5)

def fiveInEnv : Environment where
  vars := [("CL2_PARAM", "5")]
  nodup := by decide
  named := by decide

/-- The number five from a file and from the environment is a conflict. -/
theorem same_number_conflicts :
    (¬ MergesByValue (fun _ => none) inOrder [fiveInFile] [] 100 fiveInEnv) ∧
      getMapping (fun _ => none) inOrder [.ok fiveInFile] [] 100 fiveInEnv.environ =
        .error (.conflict "CL2_PARAM" (.float64 (.finite 5)) (.int64 5)) := by
  have hmapping : getMapping (fun _ => none) inOrder [.ok fiveInFile] [] 100 fiveInEnv.environ =
      .error (.conflict "CL2_PARAM" (.float64 (.finite 5)) (.int64 5)) := rfl
  refine ⟨fun h => ?_, hmapping⟩
  obtain ⟨v, hv, old, hold, hdiffer⟩ := h.1.mp ⟨_, _, _, hmapping⟩
  obtain rfl : v = ("CL2_PARAM", "5") := List.mem_singleton.mp (List.mem_filter.mp hv).1
  have hfile : fileValue ([fiveInFile] ++ []) "CL2_PARAM" = some (.float64 (.finite 5)) := rfl
  obtain rfl := Option.some.inj (hfile.symm.trans hold)
  exact hdiffer rfl

end TemplateMapping
