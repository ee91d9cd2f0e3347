import Mathlib.Data.List.Find
import Mathlib.Data.List.Induction
import ClusterLoader.QueryWindows

/-!
# Generic Prometheus queries

GenericPrometheusQuery groups the samples of its queries into data items by the
values of the dimension labels. The map of items is keyed by the printed list of
these values, which does not always tell two lists apart. The labels of an item
are those of the sample it was made for.

The values of samples and thresholds are those of a linear order, of which some
cannot be written as JSON: infinities are values, and what is not a number never
comes out of a query. What the queries answer is given by their number. The items
stand in the summary in any order. Log output is left out.
-/

namespace GenericQuery

open KeyedStore QueryWindows TransitionTimes

variable {V : Type} [LinearOrder V]

abbrev Metric := Map String String

structure Sample (V : Type) where
  metric : Metric
  value : V

structure Query (V : Type) where
  name : String
  query : String
  threshold : Option V
  lowerBound : Bool
  requireSamples : Bool

structure StartParams (V : Type) where
  metricName : String
  queries : List (Query V)
  unit : String
  dimensions : List String

structure DataItem (V : Type) where
  data : Map String V
  unit : String
  labels : Map String String

inductive Violation (V : Type) where
  | noSamples (name metricName : String)
  | tooManySamples (name key : String) (val prevVal : V)
  | belowThreshold (name : String) (want got : V)
  | aboveThreshold (name : String) (want got : V)

/-! ## Gathering -/

/-- The values of the dimensions; a label that is not there has the empty value. -/
def dimensionValues (metric : Metric) (dimensions : List String) : List String :=
  dimensions.map fun dimension => (metric.get dimension).getD ""

/-- `fmt.Sprintf("%v", s)`. -/
def printed (s : List String) : String := "[" ++ " ".intercalate s ++ "]"

def labelsOf (metric : Metric) (dimensions : List String) : Map String String :=
  dimensions.foldl (fun m dimension => m.set dimension ((metric.get dimension).getD "")) Store.empty

def key (metric : Metric) (dimensions : List String) : String × Map String String :=
  (printed (dimensionValues metric dimensions), labelsOf metric dimensions)

def getOrCreate (dataItems : Map String (DataItem V)) (key unit : String)
    (labels : Map String String) : DataItem V :=
  (dataItems.get key).getD ⟨Store.empty, unit, labels⟩

def validateSample (q : Query V) (val : V) : List (Violation V) :=
  match q.threshold with
  | none => []
  | some threshold =>
    if q.lowerBound = true ∧ val < threshold then [.belowThreshold q.name threshold val]
    else if q.lowerBound = false ∧ threshold < val then [.aboveThreshold q.name threshold val]
    else []

structure State (V : Type) where
  dataItems : Map String (DataItem V)
  errs : List (Violation V)

def State.empty : State V := ⟨Store.empty, []⟩

def addSample (g : StartParams V) (q : Query V) (s : State V) (sample : Sample V) : State V :=
  let (k, labels) := key sample.metric g.dimensions
  let dataItem := getOrCreate s.dataItems k g.unit labels
  match dataItem.data.get q.name with
  | some prevVal =>
    ⟨s.dataItems.set k dataItem,
      s.errs ++ [.tooManySamples q.name k sample.value prevVal] ++ validateSample q sample.value⟩
  | none =>
    ⟨s.dataItems.set k { dataItem with data := dataItem.data.set q.name sample.value },
      s.errs ++ validateSample q sample.value⟩

def addSamples (g : StartParams V) (q : Query V) (samples : List (Sample V)) (s : State V) :
    State V :=
  if samples = [] then
    if q.requireSamples then { s with errs := s.errs ++ [.noSamples q.name g.metricName] } else s
  else samples.foldl (addSample g q) s

/-- What is sent to Prometheus: the duration of the test stands for every `%v`. -/
def boundedQuery (q : Query V) (startTime endTime : Int) : String :=
  q.query.replace "%v" (toPrometheusTime (sub endTime startTime))

abbrev Executor (V : Type) := Nat → String → Int → Except String (List (Sample V))

section Gather
variable (executor : Executor V) (startTime endTime : Int)

/-- The loop over the queries left, the next of which has the number. -/
def gatherFrom (g : StartParams V) : Nat → List (Query V) → State V → Except String (State V)
  | _, [], s => .ok s
  | n, q :: rest, s =>
    match executor n (boundedQuery q startTime endTime) endTime with
    | .error err => .error err
    | .ok samples => gatherFrom g (n + 1) rest (addSamples g q samples s)

/-- JSON has no infinities. -/
def encodable (finite : V → Bool) (dataItems : Map String (DataItem V)) : Bool :=
  dataItems.entries.all fun item => item.2.data.entries.all fun entry => finite entry.2

/-- The data items of the summary and the violations the error is made of. -/
def gather (finite : V → Bool) (g : StartParams V) :
    Except String (List (DataItem V) × List (Violation V)) :=
  match gatherFrom executor startTime endTime g 0 g.queries .empty with
  | .error err => .error err
  | .ok s =>
    if encodable finite s.dataItems then .ok (s.dataItems.entries.map Prod.snd, s.errs)
    else .error "building encoder error"

/-- The queries with what they answer. -/
def Answers : Nat → List (Query V) → List (Query V × List (Sample V)) → Prop
  | _, [], answered => answered = []
  | n, q :: rest, answered => ∃ samples others, answered = (q, samples) :: others ∧
    executor n (boundedQuery q startTime endTime) endTime = .ok samples ∧
      Answers (n + 1) rest others

end Gather

/-! ## The samples one by one -/

/-- The samples in the order in which they come in, each with its query. -/
def incoming (answered : List (Query V × List (Sample V))) : List (Query V × Sample V) :=
  answered.flatMap fun a => a.2.map fun sample => (a.1, sample)

variable {answered : List (Query V × List (Sample V))}

section Loop
variable {executor : Executor V} {startTime endTime : Int}

theorem gatherFrom_eq (g : StartParams V) {n : Nat} {queries : List (Query V)}
    (h : Answers executor startTime endTime n queries answered) (s : State V) :
    gatherFrom executor startTime endTime g n queries s =
      .ok (answered.foldl (fun s a => addSamples g a.1 a.2 s) s) := by
  induction queries generalizing n answered s with
  | nil =>
    subst h
    rfl
  | cons q rest ih =>
    obtain ⟨samples, others, rfl, hanswer, hrest⟩ := h
    rw [gatherFrom, hanswer]
    exact ih hrest _

omit [LinearOrder V] in
theorem Answers.queries {n : Nat} {queries : List (Query V)}
    (h : Answers executor startTime endTime n queries answered) :
    answered.map Prod.fst = queries := by
  induction queries generalizing n answered with
  | nil =>
    subst h
    rfl
  | cons q rest ih =>
    obtain ⟨samples, others, rfl, -, hrest⟩ := h
    rw [List.map_cons, ih hrest]

end Loop

section Incoming
variable (g : StartParams V)

/-- What a sample makes of the data items. -/
def nextItems (dataItems : Map String (DataItem V)) (p : Query V × Sample V) :
    Map String (DataItem V) :=
  (addSample g p.1 ⟨dataItems, []⟩ p.2).dataItems

/-- The violations a sample adds. -/
def newErrs (dataItems : Map String (DataItem V)) (p : Query V × Sample V) :
    List (Violation V) :=
  (addSample g p.1 ⟨dataItems, []⟩ p.2).errs

theorem addSample_eq (q : Query V) (s : State V) (sample : Sample V) :
    addSample g q s sample =
      ⟨nextItems g s.dataItems (q, sample), s.errs ++ newErrs g s.dataItems (q, sample)⟩ := by
  simp only [nextItems, newErrs, addSample]
  split <;> simp

def errsFrom : Map String (DataItem V) → List (Query V × Sample V) → List (Violation V)
  | _, [] => []
  | dataItems, p :: rest => newErrs g dataItems p ++ errsFrom (nextItems g dataItems p) rest

theorem errsFrom_append (dataItems : Map String (DataItem V))
    (samples samples' : List (Query V × Sample V)) :
    errsFrom g dataItems (samples ++ samples') =
      errsFrom g dataItems samples ++
        errsFrom g (samples.foldl (nextItems g) dataItems) samples' := by
  induction samples generalizing dataItems with
  | nil => rfl
  | cons p samples ih => rw [List.cons_append, errsFrom, ih, errsFrom, List.append_assoc]; rfl

theorem foldl_addSample (q : Query V) (samples : List (Sample V)) (s : State V) :
    samples.foldl (addSample g q) s =
      ⟨(samples.map fun sample => (q, sample)).foldl (nextItems g) s.dataItems,
        s.errs ++ errsFrom g s.dataItems (samples.map fun sample => (q, sample))⟩ := by
  induction samples generalizing s with
  | nil => simp [errsFrom]
  | cons sample samples ih =>
    rw [List.foldl_cons, ih, addSample_eq]
    simp [errsFrom]

/-- A query without the samples it requires. -/
def Missing (a : Query V × List (Sample V)) : Prop := a.1.requireSamples = true ∧ a.2 = []

theorem addSamples_spec (a : Query V × List (Sample V)) (s : State V) :
    (addSamples g a.1 a.2 s).dataItems =
        (a.2.map fun sample => (a.1, sample)).foldl (nextItems g) s.dataItems ∧
      ((addSamples g a.1 a.2 s).errs = [] ↔ s.errs = [] ∧ ¬ Missing a ∧
        errsFrom g s.dataItems (a.2.map fun sample => (a.1, sample)) = []) := by
  rw [addSamples]
  split_ifs with hnil hrequired
  · simp [hnil, Missing, hrequired]
  · simp [hnil, Missing, hrequired, errsFrom]
  · rw [foldl_addSample]
    simp [hnil, Missing]

theorem foldl_addSamples (answered : List (Query V × List (Sample V))) (s : State V) :
    (answered.foldl (fun s a => addSamples g a.1 a.2 s) s).dataItems =
        (incoming answered).foldl (nextItems g) s.dataItems ∧
      ((answered.foldl (fun s a => addSamples g a.1 a.2 s) s).errs = [] ↔
        s.errs = [] ∧ (∀ a ∈ answered, ¬ Missing a) ∧
          errsFrom g s.dataItems (incoming answered) = []) := by
  induction answered generalizing s with
  | nil => simp [incoming, errsFrom]
  | cons a answered ih =>
    obtain ⟨hitems, herrs⟩ := addSamples_spec g a s
    obtain ⟨ihitems, iherrs⟩ := ih (addSamples g a.1 a.2 s)
    have hincoming : incoming (a :: answered) =
        (a.2.map fun sample => (a.1, sample)) ++ incoming answered := List.flatMap_cons ..
    rw [List.foldl_cons, ihitems, iherrs, hitems, herrs, hincoming, List.foldl_append,
      errsFrom_append, List.append_eq_nil_iff, List.forall_mem_cons]
    refine ⟨rfl, ?_⟩
    constructor
    · rintro ⟨⟨hs, hmissing, herr⟩, hothers, herrs'⟩
      exact ⟨hs, ⟨hmissing, hothers⟩, herr, herrs'⟩
    · rintro ⟨hs, ⟨hmissing, hothers⟩, herr, herrs'⟩
      exact ⟨⟨hs, hmissing, herr⟩, hothers, herrs'⟩

end Incoming

/-! ## What the items hold -/

variable {samples : List (Query V × Sample V)} {item : DataItem V} {entry : String × DataItem V}

section Items
variable (g : StartParams V)

def items (samples : List (Query V × Sample V)) : Map String (DataItem V) :=
  samples.foldl (nextItems g) Store.empty

/-- The key under which a sample is put. -/
def keyOf (p : Query V × Sample V) : String := printed (dimensionValues p.2.metric g.dimensions)

theorem items_concat (samples : List (Query V × Sample V)) (p : Query V × Sample V) :
    items g (samples ++ [p]) = nextItems g (items g samples) p := by
  rw [items, List.foldl_append]
  rfl

/-- An item with a value for a name that has none yet. -/
def DataItem.put (item : DataItem V) (name : String) (v : V) : DataItem V :=
  ⟨if (item.data.get name).isSome = true then item.data else item.data.set name v, item.unit,
    item.labels⟩

omit [LinearOrder V] in
theorem DataItem.get_put (item : DataItem V) (name name' : String) (v : V) :
    (item.put name v).data.get name' =
      (item.data.get name').or (if name = name' then some v else none) := by
  rw [DataItem.put]
  by_cases hname : name = name'
  · subst hname
    rw [if_pos rfl]
    cases hvalue : item.data.get name with
    | none => simp [Map.get_set]
    | some old => simp [hvalue]
  · rw [if_neg hname, Option.or_none]
    by_cases hsome : (item.data.get name).isSome = true
    · simp only [if_pos hsome]
    · simp only [if_neg hsome]
      rw [Map.get_set, if_neg (Ne.symm hname)]

theorem nextItems_eq (dataItems : Map String (DataItem V)) (p : Query V × Sample V) :
    nextItems g dataItems p = dataItems.set (keyOf g p)
      ((getOrCreate dataItems (keyOf g p) g.unit (labelsOf p.2.metric g.dimensions)).put
        p.1.name p.2.value) := by
  rw [nextItems, addSample, DataItem.put]
  simp only [key, keyOf]
  split
  case h_1 prevVal hprev => simp [hprev]
  case h_2 hnone => simp [hnone]

/-- The first value that came in for a name under a key. -/
def firstValue (samples : List (Query V × Sample V)) (name k : String) : Option V :=
  (samples.find? fun p => p.1.name = name ∧ keyOf g p = k).map fun p => p.2.value

omit [LinearOrder V] in
theorem firstValue_concat (samples : List (Query V × Sample V)) (p : Query V × Sample V)
    (name k : String) :
    firstValue g (samples ++ [p]) name k =
      (firstValue g samples name k).or
        (if p.1.name = name ∧ keyOf g p = k then some p.2.value else none) := by
  rw [firstValue, List.find?_append, Option.map_or, firstValue]
  by_cases hp : p.1.name = name ∧ keyOf g p = k
  · simp [hp]
  · simp [hp]

omit [LinearOrder V] in
theorem firstValue_eq_none {name k : String} :
    firstValue g samples name k = none ↔
      ∀ p ∈ samples, ¬ (p.1.name = name ∧ keyOf g p = k) := by
  rw [firstValue, Option.map_eq_none_iff, List.find?_eq_none]
  simp only [decide_eq_true_eq]

/-- An item as the samples under its key have made it. -/
structure Holds (samples : List (Query V × Sample V)) (k : String) (item : DataItem V) : Prop where
  unit : item.unit = g.unit
  labels : ∃ p ∈ samples, keyOf g p = k ∧ item.labels = labelsOf p.2.metric g.dimensions
  data : ∀ name, item.data.get name = firstValue g samples name k

variable {p : Query V × Sample V}

omit [LinearOrder V] in
theorem Holds.concat (h : Holds g samples (keyOf g p) item) :
    Holds g (samples ++ [p]) (keyOf g p) (item.put p.1.name p.2.value) := by
  obtain ⟨hunit, ⟨q, hq, hqkey, hlabels⟩, hdata⟩ := h
  refine ⟨hunit, ⟨q, List.mem_append_left _ hq, hqkey, hlabels⟩, ?_⟩
  intro name
  rw [DataItem.get_put, hdata, firstValue_concat]
  simp only [and_true]

omit [LinearOrder V] in
/-- The first sample under a key makes its item. -/
theorem Holds.first (absent : ∀ q ∈ samples, keyOf g q ≠ keyOf g p) :
    Holds g (samples ++ [p]) (keyOf g p)
      (DataItem.put ⟨Store.empty, g.unit, labelsOf p.2.metric g.dimensions⟩ p.1.name
        p.2.value) := by
  refine ⟨rfl, ⟨p, List.mem_concat_self, rfl, rfl⟩, ?_⟩
  intro name
  have hfirst : firstValue g samples name (keyOf g p) = none :=
    (firstValue_eq_none g).mpr fun q hq h => absent q hq h.2
  rw [DataItem.get_put, Map.get_empty, firstValue_concat, hfirst]
  simp only [and_true]

omit [LinearOrder V] in
/-- A sample under another key leaves an item as it is. -/
theorem Holds.other {k : String} (h : Holds g samples k item) (hkey : keyOf g p ≠ k) :
    Holds g (samples ++ [p]) k item := by
  obtain ⟨hunit, ⟨q, hq, hqkey, hlabels⟩, hdata⟩ := h
  refine ⟨hunit, ⟨q, List.mem_append_left _ hq, hqkey, hlabels⟩, ?_⟩
  intro name
  have hother : ¬ (p.1.name = name ∧ keyOf g p = k) := fun h => hkey h.2
  rw [firstValue_concat, if_neg hother, Option.or_none]
  exact hdata name

/-- An item is there for each key that has come in, and for no other. -/
theorem get_items (samples : List (Query V × Sample V)) (k : String) :
    match (items g samples).get k with
    | none => ∀ p ∈ samples, keyOf g p ≠ k
    | some item => Holds g samples k item := by
  induction samples using List.reverseRecOn with
  | nil => exact nofun
  | append_singleton samples p ih =>
    rw [items_concat, nextItems_eq, Map.get_set]
    by_cases hkey : k = keyOf g p
    · subst hkey
      cases hitem : (items g samples).get (keyOf g p) with
      | some item =>
        simp only [hitem] at ih
        simp only [getOrCreate, hitem]
        exact ih.concat
      | none =>
        simp only [hitem] at ih
        simp only [getOrCreate, hitem]
        exact Holds.first g ih
    · rw [if_neg hkey]
      cases hitem : (items g samples).get k with
      | none =>
        simp only [hitem] at ih
        exact List.forall_mem_append.mpr ⟨ih, List.forall_mem_singleton.mpr (Ne.symm hkey)⟩
      | some item =>
        simp only [hitem] at ih
        exact Holds.other g ih (Ne.symm hkey)

theorem get_items_isSome {k : String} :
    ((items g samples).get k).isSome = true ↔ ∃ p ∈ samples, keyOf g p = k := by
  have hspec := get_items g samples k
  cases hitem : (items g samples).get k with
  | none =>
    simp only [hitem] at hspec
    simp only [Option.isSome_none, Bool.false_eq_true, false_iff]
    rintro ⟨p, hp, hkey⟩
    exact hspec p hp hkey
  | some item =>
    simp only [hitem] at hspec
    obtain ⟨p, hp, hkey, -⟩ := hspec.labels
    exact ⟨fun _ => ⟨p, hp, hkey⟩, fun _ => rfl⟩

theorem holds_of_mem (h : entry ∈ (items g samples).entries) : Holds g samples entry.1 entry.2 := by
  have hspec := get_items g samples entry.1
  rw [Map.get_of_mem h] at hspec
  exact hspec

/-! ## The violations -/

/-- The value is on the wrong side of the threshold of its query. -/
def WrongSide (p : Query V × Sample V) : Prop :=
  ∃ threshold, p.1.threshold = some threshold ∧
    if p.1.lowerBound = true then p.2.value < threshold else threshold < p.2.value

theorem validateSample_eq_nil (p : Query V × Sample V) :
    validateSample p.1 p.2.value = [] ↔ ¬ WrongSide p := by
  unfold validateSample WrongSide
  cases p.1.threshold with
  | none => simp
  | some threshold =>
    cases p.1.lowerBound with
    | true => by_cases hlow : p.2.value < threshold <;> simp [hlow]
    | false => by_cases hhigh : threshold < p.2.value <;> simp [hhigh]

theorem newErrs_eq_nil (samples : List (Query V × Sample V)) (p : Query V × Sample V) :
    newErrs g (items g samples) p = [] ↔
      (∀ q ∈ samples, ¬ (q.1.name = p.1.name ∧ keyOf g q = keyOf g p)) ∧ ¬ WrongSide p := by
  have hdata : (getOrCreate (items g samples) (keyOf g p) g.unit
      (labelsOf p.2.metric g.dimensions)).data.get p.1.name =
        firstValue g samples p.1.name (keyOf g p) := by
    have hspec := get_items g samples (keyOf g p)
    cases hitem : (items g samples).get (keyOf g p) with
    | some item =>
      simp only [hitem] at hspec
      rw [getOrCreate, hitem]
      exact hspec.data _
    | none =>
      simp only [hitem] at hspec
      rw [getOrCreate, hitem, Option.getD_none, Map.get_empty, eq_comm, firstValue_eq_none]
      exact fun q hq h => hspec q hq h.2
  rw [← firstValue_eq_none, ← hdata, ← validateSample_eq_nil, newErrs, addSample]
  simp only [key, keyOf]
  split
  case h_1 prevVal hprev => simp [hprev]
  case h_2 hprev => simp [hprev]

/-- Without violations no name has come in twice under a key, and no value is on
the wrong side. -/
theorem errsFrom_eq_nil (samples : List (Query V × Sample V)) :
    errsFrom g Store.empty samples = [] ↔
      (samples.map fun p => (p.1.name, keyOf g p)).Nodup ∧ ∀ p ∈ samples, ¬ WrongSide p := by
  induction samples using List.reverseRecOn with
  | nil => simp [errsFrom]
  | append_singleton samples p ih =>
    have hlast : errsFrom g (samples.foldl (nextItems g) Store.empty) [p] =
        newErrs g (items g samples) p := by
      rw [errsFrom, errsFrom, List.append_nil]
      rfl
    rw [errsFrom_append, List.append_eq_nil_iff, hlast, newErrs_eq_nil, List.map_append,
      List.map_singleton, List.nodup_append_comm, List.singleton_append, List.nodup_cons,
      List.mem_map]
    simp only [List.mem_append, List.mem_singleton, or_imp, forall_and, forall_eq, Prod.mk.injEq,
      not_exists, not_and]
    tauto

end Items

/-! ## Grouping by the values of the dimensions -/

section Grouping
variable (g : StartParams V)

def valuesOf (p : Query V × Sample V) : List String := dimensionValues p.2.metric g.dimensions

/-- The values of the dimensions that an item is labelled with. -/
def itemValues (item : DataItem V) : List String :=
  g.dimensions.map fun dimension => (item.labels.get dimension).getD ""

/-- One item for each list of values that occurs, with the first value of each query,
and a violation exactly where there is a reason for one. -/
structure Grouped (answered : List (Query V × List (Sample V))) (dataItems : List (DataItem V))
    (errs : List (Violation V)) : Prop where
  distinct : (dataItems.map (itemValues g)).Nodup
  occurring : ∀ values, values ∈ dataItems.map (itemValues g) ↔
    ∃ p ∈ incoming answered, valuesOf g p = values
  first : ∀ item ∈ dataItems, ∀ a ∈ answered, item.data.get a.1.name =
    (a.2.find? fun s => dimensionValues s.metric g.dimensions = itemValues g item).map Sample.value
  others : ∀ item ∈ dataItems, ∀ name, (∀ a ∈ answered, a.1.name ≠ name) →
    item.data.get name = none
  violated : errs ≠ [] ↔
    (∃ a ∈ answered, ¬ (a.2.map fun s => dimensionValues s.metric g.dimensions).Nodup) ∨
      (∃ p ∈ incoming answered, WrongSide p) ∨ ∃ a ∈ answered, Missing a

/-- No two samples print alike that differ in a dimension. -/
def Separated (answered : List (Query V × List (Sample V))) : Prop :=
  ∀ p ∈ incoming answered, ∀ q ∈ incoming answered, keyOf g p = keyOf g q →
    valuesOf g p = valuesOf g q

/-- The first value of each query for each list of values can be written as JSON. -/
def FirstsFinite (finite : V → Bool) (answered : List (Query V × List (Sample V))) : Prop :=
  ∀ a ∈ answered, ∀ values, ∀ s,
    (a.2.find? fun s => dimensionValues s.metric g.dimensions = values) = some s →
      finite s.value = true

section
variable {g}

omit [LinearOrder V] in
theorem mem_incoming {p : Query V × Sample V} :
    p ∈ incoming answered ↔ ∃ a ∈ answered, p.1 = a.1 ∧ p.2 ∈ a.2 := by
  simp only [incoming, List.mem_flatMap, List.mem_map]
  constructor
  · rintro ⟨a, ha, s, hs, rfl⟩
    exact ⟨a, ha, rfl, hs⟩
  · rintro ⟨a, ha, hq, hs⟩
    exact ⟨a, ha, p.2, hs, by rw [← hq]⟩

theorem get_labelsOf (metric : Metric) (dimensions : List String) (m : Map String String)
    (dimension : String) :
    (dimensions.foldl (fun m dimension => m.set dimension ((metric.get dimension).getD "")) m).get
        dimension =
      if dimension ∈ dimensions then some ((metric.get dimension).getD "")
      else m.get dimension := by
  induction dimensions generalizing m with
  | nil => simp
  | cons d rest ih =>
    rw [List.foldl_cons, ih, Map.get_set]
    by_cases hrest : dimension ∈ rest
    · simp [hrest]
    · by_cases hsame : dimension = d
      · simp [hsame]
      · simp [hsame]

omit [LinearOrder V] in
theorem itemValues_of_labels {metric : Metric} (h : item.labels = labelsOf metric g.dimensions) :
    itemValues g item = dimensionValues metric g.dimensions := by
  refine List.map_congr_left fun dimension hd => ?_
  rw [h, labelsOf, get_labelsOf, if_pos hd]
  rfl

omit [LinearOrder V] in
/-- The values of an item print as its key. -/
theorem Holds.itemValues {k : String} (h : Holds g samples k item) :
    ∃ p ∈ samples, valuesOf g p = GenericQuery.itemValues g item ∧ keyOf g p = k := by
  obtain ⟨p, hp, hkey, hlabels⟩ := h.labels
  exact ⟨p, hp, (itemValues_of_labels hlabels).symm, hkey⟩

omit [LinearOrder V] in
theorem firstValue_cons (a : Query V × List (Sample V))
    (answered : List (Query V × List (Sample V))) (name k : String) :
    firstValue g (incoming (a :: answered)) name k =
      (if a.1.name = name then
        (a.2.find? fun s => printed (dimensionValues s.metric g.dimensions) = k).map Sample.value
      else none).or (firstValue g (incoming answered) name k) := by
  have hincoming : incoming (a :: answered) =
      (a.2.map fun sample => (a.1, sample)) ++ incoming answered := List.flatMap_cons ..
  rw [hincoming, firstValue, List.find?_append, Option.map_or, List.find?_map, Option.map_map]
  congr 1
  by_cases hname : a.1.name = name
  · rw [if_pos hname]
    simp only [Function.comp_def, keyOf, hname, true_and]
  · rw [if_neg hname]
    simp [Function.comp_def, hname]

omit [LinearOrder V] in
theorem firstValue_of_absent {name : String} (absent : ∀ a ∈ answered, a.1.name ≠ name)
    (k : String) :
    firstValue g (incoming answered) name k = none := by
  rw [firstValue_eq_none]
  rintro p hp ⟨hname, -⟩
  obtain ⟨a, ha, hquery, -⟩ := mem_incoming.mp hp
  apply absent a ha
  rw [← hquery, hname]

variable {a : Query V × List (Sample V)}

omit [LinearOrder V] in
/-- With distinct names the first value comes from the samples of the query. -/
theorem firstValue_incoming (names : (answered.map fun a => a.1.name).Nodup) (ha : a ∈ answered)
    (k : String) :
    firstValue g (incoming answered) a.1.name k =
      (a.2.find? fun s => printed (dimensionValues s.metric g.dimensions) = k).map
        Sample.value := by
  induction answered with
  | nil => cases ha
  | cons b answered ih =>
    obtain ⟨fresh, hrest⟩ := List.nodup_cons.mp names
    have hothers : ∀ c ∈ answered, c.1.name ≠ b.1.name := by
      intro c hc hname
      exact fresh (List.mem_map.mpr ⟨c, hc, hname⟩)
    rw [firstValue_cons]
    rcases List.mem_cons.mp ha with rfl | hmem
    · rw [if_pos rfl, firstValue_of_absent hothers, Option.or_none]
    · rw [if_neg (Ne.symm (hothers a hmem)), Option.none_or]
      exact ih hrest hmem

omit [LinearOrder V] in
/-- Where keys tell the values apart, a key can be replaced by its values. -/
theorem Separated.find (h : Separated g answered) (ha : a ∈ answered) {p : Query V × Sample V}
    (hp : p ∈ incoming answered) :
    (a.2.find? fun s => printed (dimensionValues s.metric g.dimensions) = keyOf g p) =
      a.2.find? fun s => dimensionValues s.metric g.dimensions = valuesOf g p := by
  refine List.find?_congr fun s hs => decide_eq_decide.mpr ⟨?_, fun hvalues => ?_⟩
  · exact h (a.1, s) (mem_incoming.mpr ⟨a, ha, rfl, hs⟩) p hp
  · rw [hvalues]
    rfl

omit [LinearOrder V] in
theorem Separated.nodup_iff (h : Separated g answered)
    (names : (answered.map fun a => a.1.name).Nodup) :
    ((incoming answered).map fun p => (p.1.name, keyOf g p)).Nodup ↔
      ∀ a ∈ answered, (a.2.map fun s => dimensionValues s.metric g.dimensions).Nodup := by
  have hblocks : ((incoming answered).map fun p => (p.1.name, keyOf g p)) =
      answered.flatMap fun a => a.2.map fun s =>
        (a.1.name, printed (dimensionValues s.metric g.dimensions)) := by
    rw [incoming, List.map_flatMap]
    simp only [List.map_map]
    rfl
  have hdisjoint : answered.Pairwise (Function.onFun List.Disjoint fun a => a.2.map fun s =>
      (a.1.name, printed (dimensionValues s.metric g.dimensions))) := by
    refine (List.pairwise_map.mp names).imp fun {a b} hne => ?_
    intro entry hentry hentry'
    obtain ⟨s, -, rfl⟩ := List.mem_map.mp hentry
    obtain ⟨s', -, hsame⟩ := List.mem_map.mp hentry'
    exact hne (Prod.mk.inj hsame).1.symm
  rw [hblocks, List.nodup_flatMap, and_iff_left hdisjoint]
  refine forall₂_congr fun a ha => ?_
  have hmap : (a.2.map fun s => (a.1.name, printed (dimensionValues s.metric g.dimensions))) =
      (a.2.map fun s => dimensionValues s.metric g.dimensions).map fun values =>
        (a.1.name, printed values) := by
    rw [List.map_map]
    rfl
  rw [hmap]
  constructor
  · exact List.Nodup.of_map _
  · refine List.Nodup.map_on ?_
    intro values hvalues values' hvalues' hprinted
    obtain ⟨s, hs, rfl⟩ := List.mem_map.mp hvalues
    obtain ⟨s', hs', rfl⟩ := List.mem_map.mp hvalues'
    exact h (a.1, s) (mem_incoming.mpr ⟨a, ha, rfl, hs⟩) (a.1, s')
      (mem_incoming.mpr ⟨a, ha, rfl, hs'⟩) (Prod.mk.inj hprinted).2

omit [LinearOrder V] in
theorem encodable_iff {finite : V → Bool} {dataItems : Map String (DataItem V)} :
    encodable finite dataItems = true ↔ ∀ entry ∈ dataItems.entries, ∀ name v,
      entry.2.data.get name = some v → finite v = true := by
  simp only [encodable, List.all_eq_true]
  constructor
  · intro h entry hentry name v hget
    exact h entry hentry (name, v) (Map.mem_of_get hget)
  · intro h entry hentry e he
    exact h entry hentry e.1 e.2 (Map.get_of_mem he)

/-- The errors that have come up by the end. -/
def errsOf (g : StartParams V) (answered : List (Query V × List (Sample V))) :
    List (Violation V) :=
  (answered.foldl (fun s a => addSamples g a.1 a.2 s) State.empty).errs

theorem gather_eq {executor : Executor V} {startTime endTime : Int} (finite : V → Bool)
    (answers : Answers executor startTime endTime 0 g.queries answered) :
    gather executor startTime endTime finite g =
      if encodable finite (items g (incoming answered)) then
        .ok ((items g (incoming answered)).entries.map Prod.snd, errsOf g answered)
      else .error "building encoder error" := by
  have hitems := (foldl_addSamples g answered .empty).1
  rw [gather, gatherFrom_eq g answers]
  simp only [hitems]
  rfl

theorem errsOf_ne_nil (answered : List (Query V × List (Sample V))) :
    errsOf g answered ≠ [] ↔
      ¬ ((incoming answered).map fun p => (p.1.name, keyOf g p)).Nodup ∨
        (∃ p ∈ incoming answered, WrongSide p) ∨ ∃ a ∈ answered, Missing a := by
  have herrs := (foldl_addSamples g answered .empty).2
  rw [Ne, errsOf, herrs]
  change ¬ (([] : List (Violation V)) = [] ∧ (∀ a ∈ answered, ¬ Missing a) ∧
    errsFrom g Store.empty (incoming answered) = []) ↔ _
  rw [errsFrom_eq_nil, not_and_or, not_and_or, not_and_or]
  push Not
  constructor
  · rintro (h | h | h | h)
    · exact absurd rfl h
    · exact .inr (.inr h)
    · exact .inl h
    · exact .inr (.inl h)
  · rintro (h | h | h)
    · exact .inr (.inr (.inl h))
    · exact .inr (.inr (.inr h))
    · exact .inr (.inl h)

/-- Where keys tell the values apart, an item holds the first values of its own. -/
theorem Separated.data (h : Separated g answered) (names : (answered.map fun a => a.1.name).Nodup)
    (hentry : entry ∈ (items g (incoming answered)).entries) (ha : a ∈ answered) :
    entry.2.data.get a.1.name = (a.2.find? fun s =>
      dimensionValues s.metric g.dimensions = itemValues g entry.2).map Sample.value := by
  have holds := holds_of_mem g hentry
  obtain ⟨p, hp, hvalues, hkey⟩ := holds.itemValues
  rw [holds.data, firstValue_incoming names ha, ← hvalues, ← hkey, h.find ha hp]

theorem grouped_of_separated (h : Separated g answered)
    (names : (answered.map fun a => a.1.name).Nodup) :
    Grouped g answered ((items g (incoming answered)).entries.map Prod.snd)
      (errsOf g answered) := by
  constructor
  case distinct =>
    rw [List.map_map]
    refine List.Nodup.map_on ?_ (List.Nodup.of_map Prod.fst (items g (incoming answered)).unique)
    intro entry hentry entry' hentry' hvalues
    obtain ⟨p, -, hp, hkey⟩ := (holds_of_mem g hentry).itemValues
    obtain ⟨p', -, hp', hkey'⟩ := (holds_of_mem g hentry').itemValues
    apply Store.eq_of_key hentry hentry'
    rw [← hkey, ← hkey']
    exact congrArg printed (hp.trans (hvalues.trans hp'.symm))
  case occurring =>
    intro values
    simp only [List.mem_map, exists_exists_and_eq_and]
    constructor
    · rintro ⟨entry, hentry, rfl⟩
      obtain ⟨p, hp, hvalues, -⟩ := (holds_of_mem g hentry).itemValues
      exact ⟨p, hp, hvalues⟩
    · rintro ⟨p, hp, rfl⟩
      obtain ⟨item, hitem⟩ := Option.isSome_iff_exists.mp
        ((get_items_isSome g).mpr ⟨p, hp, rfl⟩)
      have hentry := Map.mem_of_get hitem
      obtain ⟨p', hp', hvalues, hkey⟩ := (holds_of_mem g hentry).itemValues
      exact ⟨_, hentry, hvalues.symm.trans (h p' hp' p hp hkey)⟩
  case first =>
    intro item hitem a ha
    obtain ⟨entry, hentry, rfl⟩ := List.mem_map.mp hitem
    exact h.data names hentry ha
  case others =>
    intro item hitem name absent
    obtain ⟨entry, hentry, rfl⟩ := List.mem_map.mp hitem
    rw [(holds_of_mem g hentry).data, firstValue_of_absent absent]
  case violated =>
    rw [errsOf_ne_nil, h.nodup_iff names]
    push Not
    exact Iff.rfl

/-- Two items of one key are one item, so each list of values has a key of its own. -/
theorem Grouped.separated {errs : List (Violation V)}
    (h : Grouped g answered ((items g (incoming answered)).entries.map Prod.snd) errs) :
    Separated g answered := by
  have entryOf : ∀ p ∈ incoming answered, ∃ entry ∈ (items g (incoming answered)).entries,
      itemValues g entry.2 = valuesOf g p ∧ entry.1 = keyOf g p := by
    intro p hp
    have hmem := (h.occurring (valuesOf g p)).mpr ⟨p, hp, rfl⟩
    obtain ⟨item, hitem, hvalues⟩ := List.mem_map.mp hmem
    obtain ⟨entry, hentry, rfl⟩ := List.mem_map.mp hitem
    obtain ⟨q, -, hq, hkey⟩ := (holds_of_mem g hentry).itemValues
    refine ⟨entry, hentry, hvalues, ?_⟩
    rw [← hkey]
    exact congrArg printed (hq.trans hvalues)
  intro p hp q hq hsame
  obtain ⟨entry, hentry, hvalues, hkey⟩ := entryOf p hp
  obtain ⟨entry', hentry', hvalues', hkey'⟩ := entryOf q hq
  have hone : entry = entry' :=
    Store.eq_of_key hentry hentry' (hkey.trans (hsame.trans hkey'.symm))
  rw [← hvalues, ← hvalues', hone]

end

/-- Gather groups by the values of the dimensions exactly if no two samples that
differ in them print alike and the values it keeps can be written. -/
theorem gather_groups_iff (finite : V → Bool) (executor : Executor V) (startTime endTime : Int)
    (answered : List (Query V × List (Sample V)))
    (answers : Answers executor startTime endTime 0 g.queries answered)
    (names : (g.queries.map Query.name).Nodup) :
    (∃ dataItems errs, gather executor startTime endTime finite g = .ok (dataItems, errs) ∧
        Grouped g answered dataItems errs) ↔
      Separated g answered ∧ FirstsFinite g finite answered := by
  have hnames : (answered.map fun a => a.1.name).Nodup := by
    rw [← answers.queries, List.map_map] at names
    exact names
  rw [gather_eq finite answers]
  constructor
  · rintro ⟨dataItems, errs, hgather, grouped⟩
    split_ifs at hgather with hencodable
    cases hgather
    have separated := grouped.separated
    refine ⟨separated, ?_⟩
    intro a ha values s hfind
    have hp : (a.1, s) ∈ incoming answered :=
      mem_incoming.mpr ⟨a, ha, rfl, List.mem_of_find?_eq_some hfind⟩
    have hvalues : dimensionValues s.metric g.dimensions = values := by
      simpa using List.find?_some hfind
    obtain ⟨item, hitem, hitemValues⟩ := List.mem_map.mp ((grouped.occurring values).mpr
      ⟨(a.1, s), hp, hvalues⟩)
    obtain ⟨entry, hentry, rfl⟩ := List.mem_map.mp hitem
    refine encodable_iff.mp hencodable entry hentry a.1.name s.value ?_
    rw [separated.data hnames hentry ha, hitemValues, hfind]
    rfl
  · rintro ⟨separated, firsts⟩
    have hencodable : encodable finite (items g (incoming answered)) = true := by
      refine encodable_iff.mpr fun entry hentry name v hget => ?_
      by_cases hname : ∃ a ∈ answered, a.1.name = name
      · obtain ⟨a, ha, rfl⟩ := hname
        rw [separated.data hnames hentry ha] at hget
        obtain ⟨s, hfind, rfl⟩ := Option.map_eq_some_iff.mp hget
        exact firsts a ha _ s hfind
      · push Not at hname
        rw [(holds_of_mem g hentry).data, firstValue_of_absent hname] at hget
        cases hget
    rw [if_pos hencodable]
    exact ⟨_, _, rfl, grouped_of_separated separated hnames⟩

end Grouping

/-! ## Values with blanks -/

def upQuery : Query Int := ⟨"q", "up[%v]", none, false, false⟩

/-- One query, grouped by the labels `a` and `b`. -/
def byTwoLabels : StartParams Int := ⟨"m", [upQuery], "ms", ["a", "b"]⟩

def labelled (a b : String) (value : Int) : Sample Int :=
  ⟨(Map.set Store.empty "a" a).set "b" b, value⟩

/-- What the one query answers. -/
def answer (samples : List (Sample Int)) : Executor Int := fun _ _ _ => .ok samples

theorem answers_answer (samples : List (Sample Int)) :
    Answers (answer samples) 0 60 0 byTwoLabels.queries
      [(upQuery, samples)] :=
  ⟨samples, [], rfl, rfl, rfl⟩

/-- Two samples that differ in both labels make one item and a violation. -/
theorem blanks_collide :
    ((gather (answer [labelled "x y" "z" 1, labelled "x" "y z" 2]) 0 60 (fun _ => true)
      byTwoLabels).map fun r => (r.1.length, r.2.length)) = .ok (1, 1) ∧
      ¬ ∃ dataItems errs, gather (answer [labelled "x y" "z" 1, labelled "x" "y z" 2]) 0 60
          (fun _ => true) byTwoLabels = .ok (dataItems, errs) ∧
        Grouped byTwoLabels [(upQuery, [labelled "x y" "z" 1, labelled "x" "y z" 2])]
          dataItems errs := by
  refine ⟨by decide, ?_⟩
  rintro ⟨dataItems, errs, hgather, grouped⟩
  rw [gather_eq _ (answers_answer _)] at hgather
  cases hgather
  have hvalues := grouped.separated (upQuery, labelled "x y" "z" 1) (by simp [incoming])
    (upQuery, labelled "x" "y z" 2) (by simp [incoming]) (by decide)
  exact absurd hvalues (by decide)

/-- Without blanks the items are those of the values. -/
theorem no_blanks_group :
    ∃ dataItems errs, gather (answer [labelled "x" "y" 1, labelled "x" "z" 2]) 0 60
        (fun _ => true) byTwoLabels = .ok (dataItems, errs) ∧
      Grouped byTwoLabels [(upQuery, [labelled "x" "y" 1, labelled "x" "z" 2])]
        dataItems errs := by
  refine (gather_groups_iff byTwoLabels (fun _ => true) _ 0 60 _ (answers_answer _)
    (by decide)).mpr ⟨?_, fun _ _ _ _ _ => rfl⟩
  intro p hp q hq
  simp only [incoming, List.flatMap_cons, List.flatMap_nil, List.map_cons, List.map_nil,
    List.append_nil, List.mem_cons, List.not_mem_nil, or_false] at hp hq
  rcases hp with rfl | rfl <;> rcases hq with rfl | rfl <;> decide

end GenericQuery
