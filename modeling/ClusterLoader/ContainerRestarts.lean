import Mathlib.Order.MinMax
import ClusterLoader.FallibleLoops
import ClusterLoader.KeyedStore
import ClusterLoader.RegexpSyntax

/-!
# Container restarts

ContainerRestarts asks Prometheus how often each container restarted and reports
those that did so more often than they may. An override names containers by
container, namespace and a pattern for the pod, and allows them more restarts.
The pattern is rewritten to a regular expression, dots escaped and stars turned
into `.*`; every other character stays as it is.

The parameters are given as they were read, with the overrides decoded from YAML
and none of them null. How a sample's value is rounded is left open. The summary
is the list of restarts it is printed from.
-/

namespace ContainerRestarts

open FallibleLoops KeyedStore Regexps RegexpSyntax

structure ContainerInfo where
  container : String
  pod : String
  ns : String
  deriving DecidableEq

structure ContainerRestartsInfo extends ContainerInfo where
  restartCount : Int
  deriving DecidableEq

structure RestartCountOverride extends ContainerInfo where
  allowedRestarts : Int

/-- An override with the expression for its pods. -/
structure CompiledOverride extends RestartCountOverride where
  podNameRegex : Regexp

structure BadContainer where
  ri : ContainerRestartsInfo
  allowedRestarts : Int

def BadContainer.message (bad : BadContainer) : String :=
  "restartCount(\x7bContainer:" ++ bad.ri.container ++ " Pod:" ++ bad.ri.pod ++ " Namespace:" ++
    bad.ri.ns ++ "\x7d) = " ++ toString bad.ri.restartCount ++ ", expected <= " ++
    toString bad.allowedRestarts

/-! ## The overrides -/

/-- `strings.ReplaceAll` for a single character. -/
def replaceAll (old : Char) (new : List Char) (text : List Char) : List Char :=
  text.flatMap fun c => if c = old then new else [c]

def podNamePattern (pod : String) : String :=
  String.ofList (replaceAll '*' ['.', '*'] (replaceAll '.' ['\\', '.'] pod.toList))

section
variable (u : UnicodeTables)

def podNameRegex (pod : String) : Except ErrorCode Regexp :=
  parse u ("^" ++ podNamePattern pod ++ "$")

/-- `regexp.MustCompile` panics with the error. -/
def compileOverride (car : RestartCountOverride) : Except ErrorCode CompiledOverride :=
  (podNameRegex u car.pod).map fun re => ⟨car, re⟩

def getOverrides (overrides : List RestartCountOverride) :
    Except ErrorCode (List CompiledOverride) :=
  overrides.mapM (compileOverride u)

end

/-! ## The restarts -/

structure Sample (V : Type) where
  metric : Map String String
  value : V

def gatherContainerRestarts {V : Type} (round : V → Int) (samples : List (Sample V)) :
    List ContainerRestartsInfo :=
  samples.map fun sample =>
    { container := (sample.metric.get "container").getD ""
      pod := (sample.metric.get "pod").getD ""
      ns := (sample.metric.get "namespace").getD ""
      restartCount := round sample.value }

/-- One turn of the loop over the overrides. -/
def raise (ri : ContainerRestartsInfo) (allowedRestarts : Int) (override : CompiledOverride) :
    Int :=
  if matchString override.podNameRegex ri.pod = true ∧ allowedRestarts < override.allowedRestarts
  then override.allowedRestarts else allowedRestarts

def allowedRestarts (defaultAllowedRestarts : Int) (overrides : List CompiledOverride)
    (ri : ContainerRestartsInfo) : Int :=
  overrides.foldl (raise ri) defaultAllowedRestarts

def validateRestarts (restartsInfos : List ContainerRestartsInfo) (defaultAllowedRestarts : Int)
    (overrides : List CompiledOverride) : List BadContainer :=
  restartsInfos.filterMap fun ri =>
    let allowed := allowedRestarts defaultAllowedRestarts overrides ri
    if ri.restartCount > allowed then some ⟨ri, allowed⟩ else none

inductive Outcome where
  | failed (err : String)
  | panicked (code : ErrorCode)
  | gathered (restarts : List ContainerRestartsInfo) (violation : Option String)

/-- The list is printed with its elements between brackets. -/
def violationOf (badContainers : List BadContainer) : Option String :=
  if badContainers = [] then none
  else some ("container restart count validation: [" ++
    " ".intercalate (badContainers.map BadContainer.message) ++ "]")

def gather {V : Type} (u : UnicodeTables) (round : V → Int)
    (customAllowedRestarts : Except String (List RestartCountOverride))
    (defaultAllowedRestarts : Except String Int) (answer : Except String (List (Sample V))) :
    Outcome :=
  match customAllowedRestarts with
  | .error err => .failed err
  | .ok overrides =>
    match getOverrides u overrides with
    | .error code => .panicked code
    | .ok overrides =>
      match defaultAllowedRestarts with
      | .error err => .failed err
      | .ok allowed =>
        match answer with
        | .error err => .failed err
        | .ok samples =>
          let restarts := gatherContainerRestarts round samples
          .gathered restarts (violationOf (validateRestarts restarts allowed overrides))

/-! ## What the overrides are for -/

/-- A star stands for any text and every other character for itself. -/
def wildcardMatch : List Char → List Char → Bool
  | [], text => text.isEmpty
  | c :: pattern, text =>
    if c = '*' then text.tails.any (wildcardMatch pattern)
    else
      match text with
      | [] => false
      | d :: rest => d == c && wildcardMatch pattern rest

def RestartCountOverride.names (o : RestartCountOverride) (ri : ContainerRestartsInfo) : Bool :=
  o.container == ri.container && o.ns == ri.ns && wildcardMatch o.pod.toList ri.pod.toList

/-- The larger of the default and what the overrides that name the container allow. -/
def mostAllowed (defaultAllowedRestarts : Int) (overrides : List RestartCountOverride)
    (ri : ContainerRestartsInfo) : Int :=
  ((overrides.filter (·.names ri)).map (·.allowedRestarts)).foldl max defaultAllowedRestarts

/-- The overrides are built, and the containers reported are those that restarted
more often than the overrides that name them allow. -/
def ReportedExactly (u : UnicodeTables) (overrides : List RestartCountOverride)
    (defaultAllowedRestarts : Int) (restartsInfos : List ContainerRestartsInfo) : Prop :=
  ∃ compiled, getOverrides u overrides = .ok compiled ∧
    (validateRestarts restartsInfos defaultAllowedRestarts compiled).map (·.ri) =
      restartsInfos.filter fun ri =>
        decide (mostAllowed defaultAllowedRestarts overrides ri < ri.restartCount)

/-- Somewhere in the name of the pod the expression matches. -/
def RegexNames (u : UnicodeTables) (o : RestartCountOverride) (ri : ContainerRestartsInfo) :
    Prop :=
  ∃ re, podNameRegex u o.pod = .ok re ∧ matchString re ri.pod = true

/-- Every pattern compiles, and a container over the default is excused by the
expression of some override if and only if it is by one that names it. -/
structure Apply (u : UnicodeTables) (overrides : List RestartCountOverride)
    (defaultAllowedRestarts : Int) (restartsInfos : List ContainerRestartsInfo) : Prop where
  compile : ∀ o ∈ overrides, ∃ re, podNameRegex u o.pod = .ok re
  excuse : ∀ ri ∈ restartsInfos, defaultAllowedRestarts < ri.restartCount →
    ((∃ o ∈ overrides, RegexNames u o ri ∧ ri.restartCount ≤ o.allowedRestarts) ↔
      ∃ o ∈ overrides, o.names ri = true ∧ ri.restartCount ≤ o.allowedRestarts)

/-! ## The loop over the overrides -/

variable {n : Int}

theorem le_foldl_max {l : List Int} {start : Int} :
    n ≤ l.foldl max start ↔ n ≤ start ∨ ∃ m ∈ l, n ≤ m := by
  induction l generalizing start with
  | nil => simp
  | cons m l ih =>
    rw [List.foldl_cons, ih, le_max_iff, List.exists_mem_cons_iff, or_assoc]

theorem raise_eq (ri : ContainerRestartsInfo) (allowed : Int) (o : CompiledOverride) :
    raise ri allowed o =
      if matchString o.podNameRegex ri.pod = true then max allowed o.allowedRestarts
      else allowed := by
  unfold raise
  by_cases h : matchString o.podNameRegex ri.pod = true
  · simp only [h, true_and, if_true]
    split <;> omega
  · rw [if_neg h, if_neg fun both => h both.1]

variable {ri : ContainerRestartsInfo}

variable {compiled : List CompiledOverride}

theorem le_allowedRestarts {start : Int} : n ≤ allowedRestarts start compiled ri ↔
      n ≤ start ∨ ∃ o ∈ compiled, matchString o.podNameRegex ri.pod = true ∧
        n ≤ o.allowedRestarts := by
  unfold allowedRestarts
  induction compiled generalizing start with
  | nil => simp
  | cons o compiled ih =>
    rw [List.foldl_cons, ih, raise_eq, List.exists_mem_cons_iff]
    by_cases h : matchString o.podNameRegex ri.pod = true
    · rw [if_pos h, le_max_iff, or_assoc]
      simp only [h, true_and]
    · rw [if_neg h]
      simp only [h, Bool.false_eq_true, false_and, false_or]

variable {overrides : List RestartCountOverride}

theorem le_mostAllowed {start : Int} : n ≤ mostAllowed start overrides ri ↔
      n ≤ start ∨ ∃ o ∈ overrides, o.names ri = true ∧ n ≤ o.allowedRestarts := by
  rw [mostAllowed, le_foldl_max]
  simp only [List.mem_map, List.mem_filter]
  constructor
  · rintro (h | ⟨_, ⟨o, ⟨ho, named⟩, rfl⟩, hn⟩)
    · exact .inl h
    · exact .inr ⟨o, ho, named, hn⟩
  · rintro (h | ⟨o, ho, named, hn⟩)
    · exact .inl h
    · exact .inr ⟨_, ⟨o, ⟨ho, named⟩, rfl⟩, hn⟩

theorem mostAllowed_lt_iff {start : Int} : mostAllowed start overrides ri < n ↔
      start < n ∧ ¬ ∃ o ∈ overrides, o.names ri = true ∧ n ≤ o.allowedRestarts := by
  rw [← Int.not_le, le_mostAllowed, not_or, Int.not_le]

theorem map_validateRestarts (restartsInfos : List ContainerRestartsInfo) (start : Int)
    (compiled : List CompiledOverride) :
    (validateRestarts restartsInfos start compiled).map (·.ri) =
      restartsInfos.filter fun ri =>
        decide (allowedRestarts start compiled ri < ri.restartCount) := by
  unfold validateRestarts
  induction restartsInfos with
  | nil => rfl
  | cons ri rest ih =>
    rw [List.filterMap_cons, List.filter_cons]
    by_cases h : ri.restartCount > allowedRestarts start compiled ri
    · simp only [if_pos h, List.map_cons, ih, decide_eq_true h, if_true]
    · simp only [if_neg h, ih, decide_eq_false h, Bool.false_eq_true, if_false]

/-! ## Building the overrides -/

variable {restartsInfos : List ContainerRestartsInfo} {ri : ContainerRestartsInfo}
  {o : RestartCountOverride}

section
variable {u : UnicodeTables}

theorem compileOverride_ok {c : CompiledOverride} :
    compileOverride u o = .ok c ↔ ∃ re, podNameRegex u o.pod = .ok re ∧ c = ⟨o, re⟩ := by
  rw [compileOverride]
  cases podNameRegex u o.pod with
  | error code => exact ⟨nofun, nofun⟩
  | ok re =>
    change Except.ok _ = Except.ok c ↔ _
    simp only [Except.ok.injEq, exists_eq_left', eq_comm]

variable {overrides : List RestartCountOverride}

theorem getOverrides_ok : (∃ compiled, getOverrides u overrides = .ok compiled) ↔
      ∀ o ∈ overrides, ∃ re, podNameRegex u o.pod = .ok re := by
  refine exists_mapM_ok.trans (forall₂_congr fun o _ => ?_)
  simp only [compileOverride_ok]
  constructor
  · rintro ⟨_, re, hre, _⟩
    exact ⟨re, hre⟩
  · rintro ⟨re, hre⟩
    exact ⟨_, re, hre, rfl⟩

/-- What is asked of a compiled override is asked of an override and its expression. -/
theorem exists_getOverrides (h : getOverrides u overrides = .ok compiled)
    (p : CompiledOverride → Prop) : (∃ c ∈ compiled, p c) ↔
      ∃ o ∈ overrides, ∃ re, podNameRegex u o.pod = .ok re ∧ p ⟨o, re⟩ := by
  constructor
  · rintro ⟨c, hc, hp⟩
    obtain ⟨o, ho, hcompile⟩ := (mem_of_mapM_ok h).mp hc
    obtain ⟨re, hre, rfl⟩ := compileOverride_ok.mp hcompile
    exact ⟨o, ho, re, hre, hp⟩
  · rintro ⟨o, ho, re, hre, hp⟩
    exact ⟨_, (mem_of_mapM_ok h).mpr ⟨o, ho, compileOverride_ok.mpr ⟨re, hre, rfl⟩⟩, hp⟩

/-- What the loop allows, by the overrides as they were written. -/
theorem allowedRestarts_lt_iff (h : getOverrides u overrides = .ok compiled) {start : Int} :
    allowedRestarts start compiled ri < ri.restartCount ↔ start < ri.restartCount ∧
      ¬ ∃ o ∈ overrides, RegexNames u o ri ∧ ri.restartCount ≤ o.allowedRestarts := by
  rw [← Int.not_le, le_allowedRestarts, not_or, Int.not_le, exists_getOverrides h]
  simp only [RegexNames, and_assoc, ← exists_and_right]

theorem reportedExactly_iff_apply {start : Int} :
    ReportedExactly u overrides start restartsInfos ↔ Apply u overrides start restartsInfos := by
  have hfilter : ∀ {compiled}, getOverrides u overrides = .ok compiled →
      ((validateRestarts restartsInfos start compiled).map (·.ri) =
        restartsInfos.filter (fun ri => decide (mostAllowed start overrides ri < ri.restartCount)) ↔
      ∀ ri ∈ restartsInfos, start < ri.restartCount →
        ((∃ o ∈ overrides, RegexNames u o ri ∧ ri.restartCount ≤ o.allowedRestarts) ↔
          ∃ o ∈ overrides, o.names ri = true ∧ ri.restartCount ≤ o.allowedRestarts)) := by
    intro compiled h
    rw [map_validateRestarts, filter_eq_iff]
    apply forall₂_congr
    intro ri _
    rw [decide_eq_true_iff, decide_eq_true_iff, allowedRestarts_lt_iff h, mostAllowed_lt_iff,
      and_congr_right_iff]
    exact imp_congr_right fun _ => not_iff_not
  constructor
  · rintro ⟨compiled, h, hreported⟩
    exact ⟨getOverrides_ok.mp ⟨compiled, h⟩, (hfilter h).mp hreported⟩
  · rintro ⟨compile, excuse⟩
    obtain ⟨compiled, h⟩ := getOverrides_ok.mpr compile
    exact ⟨compiled, h, (hfilter h).mpr excuse⟩

end

/-! ## Patterns without other special characters -/

/-- Dots and stars are the only special characters. -/
def Simple (pattern : List Char) : Prop := ∀ c ∈ pattern, c = '.' ∨ c = '*' ∨ c ∉ special

instance (pattern : List Char) : Decidable (Simple pattern) :=
  List.decidableBAll (fun c => c = '.' ∨ c = '*' ∨ c ∉ special) pattern

/-- What a character of the pattern is rewritten to. -/
def rewritten (c : Char) : List Char :=
  if c = '.' then ['\\', '.'] else if c = '*' then ['.', '*'] else [c]

theorem toList_podNamePattern (pod : String) :
    (podNamePattern pod).toList = pod.toList.flatMap rewritten := by
  rw [podNamePattern, String.toList_ofList, replaceAll, replaceAll, List.flatMap_assoc]
  congr 1
  funext c
  unfold rewritten
  by_cases dot : c = '.'
  · rw [if_pos dot, if_pos dot]
    rfl
  · rw [if_neg dot, if_neg dot, List.flatMap_singleton]

section
variable {u : UnicodeTables}

/-- What a character of the pattern leaves on the stack. -/
def piece (u : UnicodeTables) (c : Char) : Regexp :=
  if c = '*' then .repeated (classOf fun c => perl.dotNL || c != 10) 0 none else literalChar u c

theorem rewritten_plain {c : Char} (plain : c ∉ special) : rewritten c = [c] := by
  have dot : c ≠ '.' := fun h => plain (h ▸ by decide)
  have star : c ≠ '*' := fun h => plain (h ▸ by decide)
  rw [rewritten, if_neg dot, if_neg star]

theorem piece_plain {c : Char} (plain : c ∉ special) : piece u c = literalChar u c := by
  have star : c ≠ '*' := fun h => plain (h ▸ by decide)
  rw [piece, if_neg star]

variable {pattern : List Char}

/-- No question mark comes behind the star of a rewritten pattern. -/
theorem dropLazy_rewritten (simple : Simple pattern) :
    dropLazy (pattern.flatMap rewritten ++ ['$']) = pattern.flatMap rewritten ++ ['$'] := by
  cases pattern with
  | nil => rfl
  | cons c pattern =>
    rw [List.flatMap_cons]
    rcases simple c List.mem_cons_self with rfl | rfl | plain
    · rfl
    · rfl
    · rw [rewritten_plain plain]
      unfold dropLazy
      split
      · next heq => exact absurd (by rw [(List.cons.inj heq).1]; decide) plain
      · rfl

theorem parseLoop_rewritten (simple : Simple pattern) {fuel : Nat}
    (enough : (pattern.flatMap rewritten).length + 1 ≤ fuel) (sequence : List Regexp)
    (lastRepeat : Bool) :
    parseLoop u fuel { start with sequence := sequence } lastRepeat
      (pattern.flatMap rewritten ++ ['$']) = .ok { start with
        sequence := .assertion .endText :: (pattern.map (piece u)).reverse ++ sequence } := by
  induction pattern generalizing fuel sequence lastRepeat with
  | nil =>
    cases fuel with
    | zero => cases enough
    | succ fuel => cases fuel <;> rfl
  | cons c pattern ih =>
    have hrest : Simple pattern := fun d hd => simple d (List.mem_cons_of_mem c hd)
    rw [List.flatMap_cons, List.length_append] at enough
    rw [List.flatMap_cons, List.map_cons, List.reverse_cons, ← List.cons_append,
      List.append_assoc, List.append_assoc]
    rcases simple c List.mem_cons_self with rfl | rfl | plain
    · cases fuel with
      | zero => omega
      | succ fuel => exact ih hrest (by change 2 + _ + 1 ≤ _ at enough; omega) _ _
    · match fuel with
      | 0 => omega
      | 1 => change 2 + _ + 1 ≤ _ at enough; omega
      | fuel + 2 =>
        change parseLoop u fuel _ true (dropLazy (pattern.flatMap rewritten ++ ['$'])) = _
        rw [dropLazy_rewritten hrest]
        exact ih hrest (by change 2 + _ + 1 ≤ _ at enough; omega) _ _
    · rw [rewritten_plain plain] at enough ⊢
      cases fuel with
      | zero => omega
      | succ fuel =>
        rw [List.singleton_append, parseLoop, parseToken_plain plain, piece_plain plain]
        exact ih hrest (by change 1 + _ + 1 ≤ _ at enough; omega) _ _

/-- What the pattern is compiled to. -/
def compiledPattern (u : UnicodeTables) (pattern : List Char) : Regexp :=
  .concat (.assertion .beginText)
    ((pattern.map (piece u)).foldr .concat (.concat (.assertion .endText) .emptyMatch))

theorem podNameRegex_simple {pod : String} (simple : Simple pod.toList) :
    podNameRegex u pod = .ok (compiledPattern u pod.toList) := by
  have hloop : parseLoop u ("^" ++ podNamePattern pod ++ "$").length RegexpSyntax.start false
      ("^" ++ podNamePattern pod ++ "$").toList = .ok { RegexpSyntax.start with
        sequence := .assertion .endText :: (pod.toList.map (piece u)).reverse ++
          [.assertion .beginText] } := by
    rw [← String.length_toList, String.toList_append, String.toList_append, toList_podNamePattern]
    have hlength : ("^".toList ++ pod.toList.flatMap rewritten ++ "$".toList).length =
        (pod.toList.flatMap rewritten).length + 1 + 1 := by
      simp
    rw [hlength]
    exact parseLoop_rewritten simple (Nat.le_refl _) _ _
  rw [podNameRegex, parse, hloop]
  refine congrArg Except.ok ?_
  change (_ :: _ ++ [_]).reverse.foldr Regexp.concat Regexp.emptyMatch = _
  simp [compiledPattern]

/-! ## The expression and the wildcard -/

variable {text : List Char}

variable {before after : List Char}

theorem matches_star : Matches (piece u '*') before text after ↔ '\n' ∉ text := by
  rw [piece, if_pos rfl, classOf, matches_repeated_class]
  have hdot : ∀ c : Char, (perl.dotNL || c.toNat != 10) = true ↔ c ≠ '\n' := by
    intro c
    rw [show perl.dotNL = false from rfl, Bool.false_or, bne_iff_ne]
    exact not_congr (Char.toNat_inj (c := c) (d := '\n'))
  simp only [hdot]
  exact ⟨fun h mem => h _ mem rfl, fun h c hc eq => h (eq ▸ hc)⟩

theorem wildcardMatch_star : wildcardMatch ('*' :: pattern) text = true ↔
      ∃ skipped rest, text = skipped ++ rest ∧ wildcardMatch pattern rest = true := by
  simp only [wildcardMatch, if_true, List.any_eq_true, List.mem_tails]
  constructor
  · rintro ⟨rest, ⟨skipped, rfl⟩, h⟩
    exact ⟨skipped, rest, rfl, h⟩
  · rintro ⟨skipped, rest, rfl, h⟩
    exact ⟨rest, ⟨skipped, rfl⟩, h⟩

theorem wildcardMatch_char {c : Char} (star : c ≠ '*') : wildcardMatch (c :: pattern) text = true ↔
      ∃ rest, text = c :: rest ∧ wildcardMatch pattern rest = true := by
  cases text with
  | nil => simp [wildcardMatch, star]
  | cons d text => simp [wildcardMatch, star]

theorem matches_pieces (oneLine : '\n' ∉ text) :
    Matches ((pattern.map (piece u)).foldr .concat (.concat (.assertion .endText) .emptyMatch))
      before text after ↔ wildcardMatch pattern text = true ∧ after = [] := by
  induction pattern generalizing before text with
  | nil => simp [Matches, wildcardMatch, Assertion.holds]
  | cons c pattern ih =>
    rw [List.map_cons, List.foldr_cons, Matches]
    by_cases star : c = '*'
    · subst star
      rw [wildcardMatch_star]
      constructor
      · rintro ⟨skipped, rest, rfl, _, h⟩
        obtain ⟨hrest, rfl⟩ := (ih fun mem => oneLine (List.mem_append_right _ mem)).mp h
        exact ⟨⟨skipped, rest, rfl, hrest⟩, rfl⟩
      · rintro ⟨⟨skipped, rest, rfl, hrest⟩, rfl⟩
        refine ⟨skipped, rest, rfl, matches_star.mpr fun mem => oneLine ?_, ?_⟩
        · exact List.mem_append_left _ mem
        · exact (ih fun mem => oneLine (List.mem_append_right _ mem)).mpr ⟨hrest, rfl⟩
    · rw [wildcardMatch_char star, piece, if_neg star]
      simp only [matches_literalChar]
      constructor
      · rintro ⟨_, rest, rfl, rfl, h⟩
        obtain ⟨hrest, rfl⟩ := (ih fun mem => oneLine (List.mem_append_right _ mem)).mp h
        exact ⟨⟨rest, rfl, hrest⟩, rfl⟩
      · rintro ⟨⟨rest, rfl, hrest⟩, rfl⟩
        refine ⟨[c], rest, rfl, rfl, ?_⟩
        exact (ih fun mem => oneLine (List.mem_cons_of_mem _ mem)).mpr ⟨hrest, rfl⟩

theorem matchString_compiledPattern (pattern : List Char) {name : String}
    (oneLine : '\n' ∉ name.toList) :
    matchString (compiledPattern u pattern) name = true ↔
      wildcardMatch pattern name.toList = true := by
  rw [matchString_iff]
  constructor
  · rintro ⟨before, _, after, hname, first, second, rfl, ⟨rfl, hbegin⟩, h⟩
    -- The anchors leave nothing before the match and nothing behind it.
    obtain rfl : before = [] := by simpa [Assertion.holds] using hbegin
    rw [List.nil_append] at hname
    have hsecond : '\n' ∉ second := fun mem =>
      oneLine (hname ▸ List.mem_append_left _ mem)
    obtain ⟨hmatch, rfl⟩ := (matches_pieces hsecond).mp h
    rwa [hname, List.append_nil]
  · intro h
    refine ⟨[], name.toList, [], by simp, [], name.toList, rfl, ⟨rfl, rfl⟩, ?_⟩
    exact (matches_pieces oneLine).mpr ⟨h, rfl⟩

theorem regexNames_simple (simple : Simple o.pod.toList) (oneLine : '\n' ∉ ri.pod.toList) :
    RegexNames u o ri ↔ wildcardMatch o.pod.toList ri.pod.toList = true := by
  rw [RegexNames, podNameRegex_simple simple]
  simp only [Except.ok.injEq, exists_eq_left', matchString_compiledPattern _ oneLine]

/-- For simple patterns nothing panics, and all that can go wrong is that a
container is excused by an override for another container or namespace. -/
theorem apply_iff_of_simple {overrides : List RestartCountOverride} {start : Int}
    (simple : ∀ o ∈ overrides, Simple o.pod.toList)
    (oneLine : ∀ ri ∈ restartsInfos, '\n' ∉ ri.pod.toList) :
    Apply u overrides start restartsInfos ↔
      ∀ ri ∈ restartsInfos, start < ri.restartCount → ∀ o ∈ overrides,
        wildcardMatch o.pod.toList ri.pod.toList = true → ri.restartCount ≤ o.allowedRestarts →
        ∃ o' ∈ overrides, o'.names ri = true ∧ ri.restartCount ≤ o'.allowedRestarts := by
  constructor
  · intro h ri hri above o ho hmatch hallowed
    exact (h.excuse ri hri above).mp
      ⟨o, ho, (regexNames_simple (simple o ho) (oneLine ri hri)).mpr hmatch, hallowed⟩
  · intro h
    refine ⟨fun o ho => ⟨_, podNameRegex_simple (simple o ho)⟩, fun ri hri above => ⟨?_, ?_⟩⟩
    · rintro ⟨o, ho, hregex, hallowed⟩
      exact h ri hri above o ho
        ((regexNames_simple (simple o ho) (oneLine ri hri)).mp hregex) hallowed
    · rintro ⟨o, ho, named, hallowed⟩
      have hmatch := (Bool.and_eq_true_iff.mp named).2
      exact ⟨o, ho, (regexNames_simple (simple o ho) (oneLine ri hri)).mpr hmatch, hallowed⟩

end

/-- The containers reported are the right ones exactly where every pattern compiles
and every container over the default is excused by an override that names it or by
none. Patterns with no special characters but dots and stars always compile, and
stand for what they say. -/
theorem reportedExactly_iff (u : UnicodeTables) (overrides : List RestartCountOverride)
    (defaultAllowedRestarts : Int) (restartsInfos : List ContainerRestartsInfo) :
    (ReportedExactly u overrides defaultAllowedRestarts restartsInfos ↔
      Apply u overrides defaultAllowedRestarts restartsInfos) ∧
    ((∀ o ∈ overrides, Simple o.pod.toList) → (∀ ri ∈ restartsInfos, '\n' ∉ ri.pod.toList) →
      (ReportedExactly u overrides defaultAllowedRestarts restartsInfos ↔
        ∀ ri ∈ restartsInfos, defaultAllowedRestarts < ri.restartCount → ∀ o ∈ overrides,
          wildcardMatch o.pod.toList ri.pod.toList = true →
          ri.restartCount ≤ o.allowedRestarts →
          ∃ o' ∈ overrides, o'.names ri = true ∧ ri.restartCount ≤ o'.allowedRestarts)) := by
  refine ⟨reportedExactly_iff_apply, fun simple oneLine => ?_⟩
  rw [reportedExactly_iff_apply, apply_iff_of_simple simple oneLine]

theorem violationOf_ne_none {badContainers : List BadContainer} :
    violationOf badContainers ≠ none ↔ badContainers.map (·.ri) ≠ [] := by
  unfold violationOf
  split <;> simp_all

/-- Where the overrides apply, gathering ends in a violation if and only if some
container restarted more often than it may. -/
theorem gather_violation_iff {V : Type} {u : UnicodeTables} {round : V → Int}
    {start : Int} {samples : List (Sample V)}
    (apply : Apply u overrides start (gatherContainerRestarts round samples)) :
    ∃ violation, gather u round (.ok overrides) (.ok start) (.ok samples) =
        .gathered (gatherContainerRestarts round samples) violation ∧
      (violation ≠ none ↔ ∃ ri ∈ gatherContainerRestarts round samples,
        mostAllowed start overrides ri < ri.restartCount) := by
  obtain ⟨compiled, h, hreported⟩ := reportedExactly_iff_apply.mpr apply
  have hgather : gather u round (.ok overrides) (.ok start) (.ok samples) =
      .gathered (gatherContainerRestarts round samples)
        (violationOf (validateRestarts (gatherContainerRestarts round samples) start
          compiled)) := by
    simp only [gather, h]
  refine ⟨_, hgather, ?_⟩
  rw [violationOf_ne_none, hreported, ne_eq]
  simp

/-! ## Where they go wrong -/

def noClasses : UnicodeTables := ⟨fun _ => none, fun _ => []⟩

/-- A pod pattern for another container in another namespace. -/
def sidecars : RestartCountOverride := ⟨⟨"sidecar", "kube-*", "default"⟩, 5⟩

def apiserver : ContainerRestartsInfo :=
  ⟨⟨"kube-apiserver", "kube-apiserver-1", "kube-system"⟩, 3⟩

def apiservers : RestartCountOverride := ⟨⟨"kube-apiserver", "kube-apiserver-*", "kube-system"⟩, 4⟩

def dns : ContainerRestartsInfo := ⟨⟨"coredns", "coredns-1", "kube-system"⟩, 1⟩

def sampleOf (ri : ContainerRestartsInfo) : Sample Int where
  metric := Map.set (Map.set (Map.set Store.empty "container" ri.container) "pod" ri.pod)
    "namespace" ri.ns
  value := ri.restartCount

/-- One override names the API server, the other only matches its pod; neither has
to do with the second container, which is reported. -/
theorem gather_violation_iff_twoContainers :
    gather noClasses id (.ok [sidecars, apiservers]) (.ok 0) (.ok [sampleOf apiserver]) =
      .gathered [apiserver] none ∧
    ∃ violation, gather noClasses id (.ok [sidecars, apiservers]) (.ok 0)
      (.ok [sampleOf apiserver, sampleOf dns]) = .gathered [apiserver, dns] violation ∧
        violation ≠ none := by
  have simple : ∀ o ∈ [sidecars, apiservers], Simple o.pod.toList := by decide +kernel
  have alone : Apply noClasses [sidecars, apiservers] 0
      (gatherContainerRestarts id [sampleOf apiserver]) :=
    (apply_iff_of_simple simple (by decide +kernel)).mpr (by decide +kernel)
  have both : Apply noClasses [sidecars, apiservers] 0
      (gatherContainerRestarts id [sampleOf apiserver, sampleOf dns]) :=
    (apply_iff_of_simple simple (by decide +kernel)).mpr (by decide +kernel)
  obtain ⟨first, gatheredFirst, iffFirst⟩ := gather_violation_iff alone
  obtain ⟨second, gatheredSecond, iffSecond⟩ := gather_violation_iff both
  obtain rfl : first = none :=
    not_not.mp fun violated => absurd (iffFirst.mp violated) (by decide +kernel)
  exact ⟨gatheredFirst, second, gatheredSecond, iffSecond.mpr (by decide +kernel)⟩

/-- An override for sidecars excuses the API server, and a parenthesis in a
pattern panics. -/
theorem excused_by_another :
    (¬ ReportedExactly noClasses [sidecars] 0 [apiserver]) ∧
      ([apiserver].filter fun ri => decide (mostAllowed 0 [sidecars] ri < ri.restartCount)) =
        [apiserver] ∧
      (∃ compiled, getOverrides noClasses [sidecars] = .ok compiled ∧
        (validateRestarts [apiserver] 0 compiled).map (·.ri) = []) ∧
      getOverrides noClasses [⟨⟨"c", "(", "n"⟩, 1⟩] = .error .missingParen := by
  have hwanted : ([apiserver].filter fun ri =>
      decide (mostAllowed 0 [sidecars] ri < ri.restartCount)) = [apiserver] := by
    decide +kernel
  have hgot : ∃ compiled, getOverrides noClasses [sidecars] = .ok compiled ∧
      (validateRestarts [apiserver] 0 compiled).map (·.ri) = [] :=
    ⟨_, rfl, by decide +kernel⟩
  refine ⟨?_, hwanted, hgot, rfl⟩
  rintro ⟨compiled, h, hreported⟩
  obtain ⟨compiled', h', hnone⟩ := hgot
  obtain rfl : compiled' = compiled := Except.ok.inj (h'.symm.trans h)
  rw [hnone] at hreported
  cases hreported

end ContainerRestarts
