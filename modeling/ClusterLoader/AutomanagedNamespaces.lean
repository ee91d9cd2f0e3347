import ClusterLoader.EnabledRuns
import ClusterLoader.FallibleLoops
import ClusterLoader.KeyedStore
import ClusterLoader.RegexpSyntax

/-!
# Automanaged namespaces

The framework makes namespaces called after a prefix and a number, and finds
those of an earlier run by a regular expression that is put together from the
same prefix. The expression is not anchored and the prefix is not quoted.

Namespaces carry a uid, so that one that was deleted and made again by someone
else is told apart from the one this execution has made. The API server accepts
names that are DNS labels only. What others do with namespaces may happen at
any time, also between two turns of the loop that creates them.
-/

namespace AutomanagedNamespaces

open KeyedStore EnabledRuns FallibleLoops Regexps RegexpSyntax

def isLabelChar (c : Char) : Bool := c.isDigit || c.isLower || c == '-'

def isDNS1123Label (name : String) : Bool :=
  let chars := name.toList
  decide (chars.length ≤ 63) && chars.all isLabelChar && chars.head?.any (· != '-') &&
    chars.getLast?.any (· != '-')

structure Namespace where
  name : String
  uid : Nat
  valid : isDNS1123Label name = true

/-- The namespaces that exist. A uid is given once. -/
structure Cluster where
  namespaces : Store Namespace.name
  nextUid : Nat
  fresh : ∀ ns ∈ namespaces, ns.uid < nextUid
  distinct : ∀ ns ∈ namespaces, ∀ ns' ∈ namespaces, ns.uid = ns'.uid → ns = ns'

namespace Cluster

def names (cluster : Cluster) : List String := cluster.namespaces.entries.map Namespace.name

def insert (cluster : Cluster) (name : String) (valid : isDNS1123Label name = true) :
    Cluster where
  namespaces := cluster.namespaces.insert ⟨name, cluster.nextUid, valid⟩
  nextUid := cluster.nextUid + 1
  fresh := by
    intro ns hns
    rcases Store.mem_insert.mp hns with rfl | ⟨hns, _⟩
    · exact Nat.lt_succ_self _
    · exact Nat.lt_succ_of_lt (cluster.fresh ns hns)
  distinct := by
    intro ns hns ns' hns' huid
    rcases Store.mem_insert.mp hns with rfl | ⟨hns, _⟩
    · rcases Store.mem_insert.mp hns' with rfl | ⟨hns', _⟩
      · rfl
      · exact absurd huid (Nat.ne_of_gt (cluster.fresh ns' hns'))
    · rcases Store.mem_insert.mp hns' with rfl | ⟨hns', _⟩
      · exact absurd huid (Nat.ne_of_lt (cluster.fresh ns hns))
      · exact cluster.distinct ns hns ns' hns' huid

/-- A request for a namespace that exists leaves everything as it is. -/
def put (cluster : Cluster) (name : String) (valid : isDNS1123Label name = true) : Cluster :=
  if (cluster.namespaces.lookup name).isNone then cluster.insert name valid else cluster

def erase (cluster : Cluster) (name : String) : Cluster where
  namespaces := cluster.namespaces.erase name
  nextUid := cluster.nextUid
  fresh := fun ns hns => cluster.fresh ns (Store.mem_erase.mp hns).1
  distinct := fun ns hns ns' hns' =>
    cluster.distinct ns (Store.mem_erase.mp hns).1 ns' (Store.mem_erase.mp hns').1

end Cluster

structure Framework where
  automanagedNamespacePrefix : String
  /-- Whether the namespace is to be deleted, for those made or taken over. -/
  automanagedNamespaces : Map String Bool

/-- `fmt.Sprintf("%v-%d", ...)`. -/
def namespaceName (base : String) (i : Nat) : String := base ++ "-" ++ toString i

section
variable (u : UnicodeTables)

def isAutomanagedNamespaceCurrentPrefix (f : Framework) (name : String) :
    Except ErrorCode Bool :=
  matchPattern u (f.automanagedNamespacePrefix ++ "-[1-9][0-9]*") name

def namespaceID : Except ErrorCode Regexp := parse u "^test-[a-z0-9]+-[0-9]+$"

def isStaleAutomanagedNamespace (f : Framework) (name : String) : Bool :=
  match namespaceID u with
  | .ok re => matchString re name && (f.automanagedNamespaces.get name).isNone
  | .error _ => false

/-- The expression compiles, so the branch of `MustCompile` that panics is never taken. -/
example : (namespaceID u).isOk = true := rfl

/-- The lists so far, and the next name that the API server has returned. -/
def sortNamespace (f : Framework) (lists : List String × List String) (name : String) :
    Except ErrorCode (List String × List String) := do
  let matched ← isAutomanagedNamespaceCurrentPrefix u f name
  if matched then return (lists.1 ++ [name], lists.2)
  else if isStaleAutomanagedNamespace u f name then return (lists.1, lists.2 ++ [name])
  else return lists

def listAutomanagedNamespaces (f : Framework) (namespaces : List String) :
    Except ErrorCode (List String × List String) :=
  namespaces.foldlM (sortNamespace u f) ([], [])

inductive Refusal where
  /-- "automanaged namespaces listing failed" -/
  | listingFailed (cause : ErrorCode)
  /-- "pre-existing automanaged namespaces found" -/
  | preExisting
  deriving DecidableEq

/-- The checks of `prepareTestNamespaces`; what they leave over is the list of
stale namespaces. -/
def prepareTestNamespaces (f : Framework) (namespaces : List String)
    (enableExistingNamespaces : Bool) : Except Refusal (List String) :=
  match listAutomanagedNamespaces u f namespaces with
  | .error cause => .error (.listingFailed cause)
  | .ok (current, stale) =>
    if current ≠ [] ∧ enableExistingNamespaces = false then .error .preExisting
    else .ok stale

end

/-! ## The framework at work -/

/-- A call of `CreateAutomanagedNamespaces` on its way. -/
structure Creating where
  index : Nat
  namespaceCount : Nat
  existingNamespaceSet : List String
  allowExistingNamespaces : Bool
  deleteAutomanagedNamespaces : Bool

structure System where
  framework : Framework
  cluster : Cluster
  /-- The namespaces that this execution has created or adopted. -/
  own : List Nat
  creating : Option Creating
  /-- The error of the last call that has ended with one. -/
  createError : Option String

def newFramework (cluster : Cluster) : System where
  framework := ⟨"", Store.empty⟩
  cluster := cluster
  own := []
  creating := none
  createError := none

inductive Action where
  | setAutomanagedNamespacePrefix (nsName : String)
  | createAutomanagedNamespaces (namespaceCount : Nat)
    (allowExistingNamespaces deleteAutomanagedNamespaces : Bool)
  /-- The next turn of the loop, and the error of its request if there is one. -/
  | next (err : Option String)
  /-- `deleteNamespace`, up to the moment it is found gone or the wait is given up. -/
  | delete (name : String) (gone : Bool)
  | foreignCreate (name : String)
  | foreignDelete (name : String)

namespace System

/-- The namespace counts as one of this execution from now on. -/
def adopt (s : System) (c : Creating) (name : String) : System :=
  let f := s.framework
  { s with
    framework := { f with automanagedNamespaces :=
      f.automanagedNamespaces.set name c.deleteAutomanagedNamespaces }
    own := ((s.cluster.namespaces.lookup name).map Namespace.uid).toList ++ s.own
    creating := some { c with index := c.index + 1 } }

def fail (s : System) (text : String) : System :=
  { s with creating := none, createError := some text }

end System

/-- The body of the loop for the name that is next. A name in the snapshot is
adopted or refused; for another one the request also succeeds where someone has
just made the namespace. -/
def createNext (s : System) (c : Creating) (name : String) (err : Option String) :
    Option System :=
  if name ∈ c.existingNamespaceSet then
    if c.allowExistingNamespaces then some (s.adopt c name)
    else some (s.fail ("automanaged namespace " ++ name ++ " already created"))
  else
    match err with
    | none =>
      if valid : isDNS1123Label name = true then
        some ({ s with cluster := s.cluster.put name valid }.adopt c name)
      else none
    | some text => some (s.fail text)

def step (s : System) : Action → Option System
  | .setAutomanagedNamespacePrefix nsName =>
    let f := s.framework
    if s.creating.isNone then
      some { s with framework := { f with automanagedNamespacePrefix := nsName } }
    else none
  | .createAutomanagedNamespaces namespaceCount allow delete =>
    if s.creating.isNone then
      some { s with creating := some ⟨1, namespaceCount, s.cluster.names, allow, delete⟩ }
    else none
  | .next err =>
    match s.creating with
    | none => none
    | some c =>
      if c.namespaceCount < c.index then some { s with creating := none }
      else
        createNext s c (namespaceName s.framework.automanagedNamespacePrefix c.index) err
  | .delete name gone =>
    let f := s.framework
    if s.creating.isNone then
      if gone then
        some { s with
          cluster := s.cluster.erase name
          framework := { f with automanagedNamespaces := f.automanagedNamespaces.erase name } }
      else some s
    else none
  | .foreignCreate name =>
    if valid : isDNS1123Label name = true then
      some { s with cluster := s.cluster.put name valid }
    else none
  | .foreignDelete name => some { s with cluster := s.cluster.erase name }

/-- A name that `CreateAutomanagedNamespaces` can generate. -/
def Generated (base name : String) : Prop := ∃ n, 1 ≤ n ∧ name = namespaceName base n

/-- The first list has exactly the generated names that exist, the second is
apart from it and has no namespace of this execution, and a run that does not
allow existing namespaces is refused only if one of its own exists. -/
structure Recognises (u : UnicodeTables) (s : System) (current stale : List String) : Prop where
  listed : listAutomanagedNamespaces u s.framework s.cluster.names = .ok (current, stale)
  exact : ∀ name, name ∈ current ↔
    name ∈ s.cluster.names ∧ Generated s.framework.automanagedNamespacePrefix name
  disjoint : ∀ name ∈ stale, name ∉ current
  foreign : ∀ ns ∈ s.cluster.namespaces, ns.uid ∈ s.own → ns.name ∉ stale
  refused : ∀ refusal, prepareTestNamespaces u s.framework s.cluster.names false = .error refusal →
    ∃ name ∈ s.cluster.names, Generated s.framework.automanagedNamespacePrefix name

/-- The prefix, a dash and a digit other than zero stand somewhere in the name. -/
def Occurs (base name : String) : Prop :=
  ∃ d : Char, '1' ≤ d ∧ d ≤ '9' ∧ (base.toList ++ ['-', d]) <:+: name.toList

/-- Of a prefix that is also an expression: it is well formed, and there is no
match in the name. -/
def Unmatched (u : UnicodeTables) (base name : String) : Prop :=
  ∃ re, parse u (base ++ "-[1-9][0-9]*") = .ok re ∧ ¬ ∃ before found after,
    name.toList = before ++ (found ++ after) ∧ Matches re before.reverse found after

/-- Where the prefix is free of special characters: no existing name contains
prefix-d unless it is prefix-n as a whole. Otherwise: no existing name has a
match of the prefix as an expression. -/
def Apart (u : UnicodeTables) (s : System) : Prop :=
  if Plain s.framework.automanagedNamespacePrefix.toList then
    ∀ ns ∈ s.cluster.namespaces, Occurs s.framework.automanagedNamespacePrefix ns.name →
      Generated s.framework.automanagedNamespacePrefix ns.name
  else ∀ ns ∈ s.cluster.namespaces, Unmatched u s.framework.automanagedNamespacePrefix ns.name

/-! ## What the expression finds -/

variable {name : String}

section
variable {u : UnicodeTables}

/-- The class `[lo-9]`. -/
def digitFrom (u : UnicodeTables) (lo : Nat) : Regexp :=
  classOf (signed true fun c => false || folded u perl (range lo 57) c)

/-- What `-[1-9][0-9]*` leaves on the stack. -/
def number (u : UnicodeTables) : List Regexp :=
  [.repeated (digitFrom u 48) 0 none, digitFrom u 49, literalChar u '-']

/-- What the pattern for a plain prefix is parsed to. -/
def numbered (u : UnicodeTables) (base : List Char) : Regexp :=
  (base.map (literalChar u)).foldr .concat ((number u).reverse.foldr .concat .emptyMatch)

variable {base : String}

theorem parse_plain (plain : Plain base.toList) :
    parse u (base ++ "-[1-9][0-9]*") = .ok (numbered u base.toList) := by
  have hnumber : ∀ sequence, parseLoop u 12 { RegexpSyntax.start with sequence := sequence }
      false "-[1-9][0-9]*".toList =
        .ok { RegexpSyntax.start with sequence := number u ++ sequence } :=
    fun _ => rfl
  have hloop : parseLoop u (base ++ "-[1-9][0-9]*").length RegexpSyntax.start false
      (base ++ "-[1-9][0-9]*").toList = .ok { RegexpSyntax.start with
        sequence := number u ++ ((base.toList.map (literalChar u)).reverse ++ []) } := by
    rw [String.length_append, String.toList_append]
    exact (parseLoop_plain plain 12 [] _).trans (hnumber _)
  rw [parse, hloop]
  refine congrArg Except.ok ?_
  change (number u ++ _).reverse.foldr Regexp.concat Regexp.emptyMatch = _
  rw [List.append_nil, List.reverse_append, List.reverse_reverse, List.foldr_append]
  rfl

theorem matches_digitFrom {lo : Nat} {before text after : List Char} :
    Matches (digitFrom u lo) before text after ↔ ∃ d : Char, text = [d] ∧ lo ≤ d.toNat ∧
      d.toNat ≤ 57 := by
  rw [digitFrom, classOf, Matches]
  simp only [signed, if_true, Bool.false_or, folded, perl, Bool.false_and, Bool.or_false, range,
    Bool.and_eq_true, decide_eq_true_eq]

theorem digit_iff {d : Char} : '1' ≤ d ∧ d ≤ '9' ↔ 49 ≤ d.toNat ∧ d.toNat ≤ 57 := Iff.rfl

/-- The digits behind the first one need not be looked at. -/
theorem found_iff_occurs :
    (∃ before found after, name.toList = before ++ (found ++ after) ∧
      Matches (numbered u base.toList) before.reverse found after) ↔ Occurs base name := by
  simp only [numbered, matches_literals matches_literalChar]
  constructor
  · rintro ⟨before, _, after, hname, rest, rfl, _, _, rfl, hdash, _, more, rfl, hdigit, _⟩
    obtain rfl := (matches_literalChar ..).mp hdash
    obtain ⟨d, rfl, hd⟩ := matches_digitFrom.mp hdigit
    refine ⟨d, (digit_iff.mpr hd).1, (digit_iff.mpr hd).2, before, more ++ after, ?_⟩
    rw [hname]
    simp only [List.append_assoc, List.cons_append, List.nil_append]
  · rintro ⟨d, hlow, hhigh, before, after, hname⟩
    refine ⟨before, base.toList ++ ['-', d], after, ?_, ['-', d], rfl, ['-'], [d], rfl,
      (matches_literalChar ..).mpr rfl, [d], [], rfl,
      matches_digitFrom.mpr ⟨d, rfl, digit_iff.mp ⟨hlow, hhigh⟩⟩, [], [], rfl, ?_, rfl⟩
    · rw [← hname, List.append_assoc]
    · exact ⟨0, Nat.le_refl 0, nofun, .zero _ _⟩

theorem matchPattern_plain (plain : Plain base.toList) (name : String) :
    ∃ found, matchPattern u (base ++ "-[1-9][0-9]*") name = .ok found ∧
      (found = true ↔ Occurs base name) := by
  refine ⟨matchString (numbered u base.toList) name, ?_, ?_⟩
  · rw [matchPattern, parse_plain plain]
    rfl
  · rw [matchString_iff, found_iff_occurs]

theorem matchPattern_unmatched :
    matchPattern u (base ++ "-[1-9][0-9]*") name = .ok false ↔ Unmatched u base name := by
  rw [matchPattern, Unmatched]
  cases hparse : parse u (base ++ "-[1-9][0-9]*") with
  | error code => exact ⟨nofun, nofun⟩
  | ok re =>
    simp only [Except.ok.injEq, exists_eq_left', ← matchString_iff, Bool.not_eq_true]
    change Except.ok _ = Except.ok _ ↔ _
    rw [Except.ok.injEq]

end

/-- The first digit of a positive number is not zero. -/
theorem first_digit {n : Nat} (positive : 1 ≤ n) :
    ∃ d : Char, ∃ digits, Nat.toDigits 10 n = d :: digits ∧ '1' ≤ d ∧ d ≤ '9' := by
  induction n using Nat.strongRecOn with
  | _ n ih =>
    by_cases small : n < 10
    · have hdigit : ∀ k < 10, 1 ≤ k → '1' ≤ k.digitChar ∧ k.digitChar ≤ '9' := by decide
      exact ⟨n.digitChar, [], Nat.toDigits_of_lt_base small, hdigit n small positive⟩
    · obtain ⟨d, digits, hdigits, hd⟩ := ih (n / 10) (by omega) (by omega)
      refine ⟨d, digits ++ [(n % 10).digitChar], ?_, hd⟩
      rw [Nat.toDigits_of_base_le (by decide) (by omega), hdigits]
      rfl

theorem occurs_of_generated {base name : String} (h : Generated base name) :
    Occurs base name := by
  obtain ⟨n, positive, rfl⟩ := h
  obtain ⟨d, digits, hdigits, hlow, hhigh⟩ := first_digit positive
  refine ⟨d, hlow, hhigh, [], digits, ?_⟩
  have hnumber : (toString n).toList = d :: digits := by
    rw [← hdigits]
    exact Nat.toList_repr
  rw [namespaceName, String.toList_append, hnumber]
  simp

/-- A name with a special character is refused by the API server. -/
theorem plain_of_generated {base : String} {ns : Namespace} (h : Generated base ns.name) :
    Plain base.toList := by
  intro c hc hspecial
  obtain ⟨n, _, hname⟩ := h
  have hmem : c ∈ ns.name.toList := by
    rw [hname, namespaceName]
    simp [hc]
  have hlabel : isLabelChar c = true := by
    have hvalid := ns.valid
    simp only [isDNS1123Label, Bool.and_eq_true, List.all_eq_true] at hvalid
    exact hvalid.1.1.2 c hmem
  have hnone : special.all (fun d => !isLabelChar d) = true := by decide
  have hrefused := List.all_eq_true.mp hnone c hspecial
  rw [hlabel] at hrefused
  cases hrefused

/-! ## The two lists -/

section
variable {u : UnicodeTables} {f : Framework}

theorem sortNamespace_of_matched {matched : Bool}
    (h : isAutomanagedNamespaceCurrentPrefix u f name = .ok matched)
    (lists : List String × List String) :
    sortNamespace u f lists name = .ok
      (lists.1 ++ [name].filter fun _ => matched,
        lists.2 ++ [name].filter fun _ => !matched && isStaleAutomanagedNamespace u f name) := by
  rw [sortNamespace, h]
  cases matched with
  | true => simp [bind, Except.bind, pure, Except.pure]
  | false =>
    cases isStaleAutomanagedNamespace u f name <;> simp [bind, Except.bind, pure, Except.pure]

variable {namespaces : List String}

/-- Where every name gets an answer the lists are filtered out of the names. -/
theorem foldlM_of_matched {found : String → Bool}
    (h : ∀ name ∈ namespaces, isAutomanagedNamespaceCurrentPrefix u f name = .ok (found name))
    (lists : List String × List String) :
    namespaces.foldlM (sortNamespace u f) lists = .ok
      (lists.1 ++ namespaces.filter found,
        lists.2 ++ namespaces.filter fun name =>
          !found name && isStaleAutomanagedNamespace u f name) := by
  induction namespaces generalizing lists with
  | nil => simp [pure, Except.pure]
  | cons name rest ih =>
    have hrest := fun other hother => h other (List.mem_cons_of_mem name hother)
    rw [List.foldlM_cons, sortNamespace_of_matched (h name List.mem_cons_self)]
    refine (ih hrest _).trans ?_
    have hfilter : ∀ p : String → Bool,
        (name :: rest).filter p = ([name].filter fun _ => p name) ++ rest.filter p := by
      intro p
      cases h : p name <;> simp [h]
    rw [hfilter, hfilter, List.append_assoc, List.append_assoc]

/-- A listing that succeeds has had an answer for every name. -/
theorem matched_of_foldlM {lists result : List String × List String}
    (h : namespaces.foldlM (sortNamespace u f) lists = .ok result) :
    ∀ name ∈ namespaces, ∃ matched,
      isAutomanagedNamespaceCurrentPrefix u f name = .ok matched := by
  intro name hname
  obtain ⟨before, after, hsort⟩ := forall_of_foldlM_ok h name hname
  cases hmatched : isAutomanagedNamespaceCurrentPrefix u f name with
  | error code =>
    rw [sortNamespace, hmatched] at hsort
    cases hsort
  | ok matched => exact ⟨matched, rfl⟩

end

/-- The namespaces of this execution that exist are entered in the framework. -/
structure Kept (s : System) : Prop where
  entered : ∀ ns ∈ s.cluster.namespaces, ns.uid ∈ s.own →
    (s.framework.automanagedNamespaces.get ns.name).isSome = true
  given : ∀ uid ∈ s.own, uid < s.cluster.nextUid

/-- Every existing name gets an answer, and the answer is right. -/
def Answered (u : UnicodeTables) (s : System) : Prop :=
  ∀ name ∈ s.cluster.names, ∃ matched,
    isAutomanagedNamespaceCurrentPrefix u s.framework name = .ok matched ∧
      (matched = true ↔ Generated s.framework.automanagedNamespacePrefix name)

theorem recognises_iff_answered {u : UnicodeTables} {s : System} (kept : Kept s) :
    (∃ current stale, Recognises u s current stale) ↔ Answered u s := by
  constructor
  · rintro ⟨current, stale, recognises⟩ name hname
    have hlisted := recognises.listed
    rw [listAutomanagedNamespaces] at hlisted
    have hmatched := matched_of_foldlM hlisted
    choose! found hfound using hmatched
    rw [foldlM_of_matched hfound] at hlisted
    obtain ⟨rfl, rfl⟩ := Prod.mk.inj (Except.ok.inj hlisted)
    refine ⟨found name, hfound name hname, ?_⟩
    have hexact := recognises.exact name
    simpa [hname] using hexact
  · intro answered
    choose! found hfound hexact using answered
    have hlisted : listAutomanagedNamespaces u s.framework s.cluster.names = .ok
        (s.cluster.names.filter found, s.cluster.names.filter fun name =>
          !found name && isStaleAutomanagedNamespace u s.framework name) :=
      foldlM_of_matched hfound ([], [])
    have hcurrent : ∀ name, name ∈ s.cluster.names.filter found ↔
        name ∈ s.cluster.names ∧ Generated s.framework.automanagedNamespacePrefix name := by
      intro name
      rw [List.mem_filter]
      exact and_congr_right fun hname => hexact name hname
    refine ⟨_, _, hlisted, hcurrent, ?_, ?_, ?_⟩
    · intro name hstale hcurrent
      have hfalse := (List.mem_filter.mp hstale).2
      rw [(List.mem_filter.mp hcurrent).2] at hfalse
      cases hfalse
    · intro ns hns hown hstale
      have hfalse := (Bool.and_eq_true_iff.mp (List.mem_filter.mp hstale).2).2
      have hentered := kept.entered ns hns hown
      rw [isStaleAutomanagedNamespace] at hfalse
      split at hfalse
      · rw [Bool.and_eq_true, Option.isNone_iff_eq_none] at hfalse
        rw [hfalse.2] at hentered
        cases hentered
      · cases hfalse
    · intro refusal hrefusal
      rw [prepareTestNamespaces, hlisted] at hrefusal
      simp only at hrefusal
      split at hrefusal
      · rename_i nonempty
        obtain ⟨name, hname⟩ := List.exists_mem_of_ne_nil _ nonempty.1
        exact ⟨name, (hcurrent name).mp hname⟩
      · cases hrefusal

theorem answered_iff_apart {u : UnicodeTables} {s : System} : Answered u s ↔ Apart u s := by
  have hnames : Answered u s ↔ ∀ ns ∈ s.cluster.namespaces, ∃ matched,
      isAutomanagedNamespaceCurrentPrefix u s.framework ns.name = .ok matched ∧
        (matched = true ↔ Generated s.framework.automanagedNamespacePrefix ns.name) := by
    exact List.forall_mem_map
  rw [hnames, Apart]
  split
  case isTrue plain =>
    refine forall₂_congr fun ns _ => ?_
    obtain ⟨found, hfound, hoccurs⟩ := matchPattern_plain (u := u) plain ns.name
    rw [isAutomanagedNamespaceCurrentPrefix, hfound]
    constructor
    · rintro ⟨matched, hmatched, hgenerated⟩ occurs
      obtain rfl := Except.ok.inj hmatched
      exact hgenerated.mp (hoccurs.mpr occurs)
    · intro h
      exact ⟨found, rfl, fun hfound => h (hoccurs.mp hfound),
        fun generated => hoccurs.mpr (occurs_of_generated generated)⟩
  case isFalse special =>
    refine forall₂_congr fun ns _ => ?_
    have hnot : ¬ Generated s.framework.automanagedNamespacePrefix ns.name :=
      fun generated => special (plain_of_generated generated)
    rw [← matchPattern_unmatched, isAutomanagedNamespaceCurrentPrefix]
    constructor
    · rintro ⟨matched, hmatched, hgenerated⟩
      rw [hmatched, Bool.eq_false_iff.mpr fun h => hnot (hgenerated.mp h)]
    · intro h
      exact ⟨false, h, nofun, fun generated => absurd generated hnot⟩

/-! ## Runs -/

namespace Kept

variable {s t : System}

theorem start (cluster : Cluster) : Kept (newFramework cluster) where
  entered := nofun
  given := nofun

section
variable (kept : Kept s)
include kept

theorem put (name : String) (valid : isDNS1123Label name = true) :
    Kept { s with cluster := s.cluster.put name valid } := by
  by_cases absent : (s.cluster.namespaces.lookup name).isNone = true
  · have hput : s.cluster.put name valid = s.cluster.insert name valid := if_pos absent
    rw [hput]
    refine ⟨?_, fun uid huid => Nat.lt_succ_of_lt (kept.given uid huid)⟩
    intro ns hns hown
    rcases Store.mem_insert.mp hns with rfl | ⟨hns, _⟩
    · exact absurd (kept.given _ hown) (Nat.lt_irrefl _)
    · exact kept.entered ns hns hown
  · have hput : s.cluster.put name valid = s.cluster := if_neg absent
    rw [hput]
    exact kept

theorem adopt (c : Creating) (name : String) : Kept (s.adopt c name) := by
  have hadopted : ∀ uid ∈ ((s.cluster.namespaces.lookup name).map Namespace.uid).toList,
      ∃ ns ∈ s.cluster.namespaces, ns.name = name ∧ ns.uid = uid := by
    intro uid huid
    obtain ⟨ns, hlookup, rfl⟩ := Option.map_eq_some_iff.mp (Option.mem_toList.mp huid)
    obtain ⟨hns, hname⟩ := Store.lookup_eq_some.mp hlookup
    exact ⟨ns, hns, hname, rfl⟩
  constructor
  · intro ns hns hown
    change ((s.framework.automanagedNamespaces.set name _).get ns.name).isSome = true
    rw [Map.get_set]
    split
    · rfl
    · rename_i other
      rcases List.mem_append.mp hown with hown | hown
      · obtain ⟨ns', hns', hname, huid⟩ := hadopted _ hown
        obtain rfl := s.cluster.distinct ns hns ns' hns' huid.symm
        exact absurd hname other
      · exact kept.entered ns hns hown
  · intro uid hown
    rcases List.mem_append.mp hown with hown | hown
    · obtain ⟨ns, hns, _, rfl⟩ := hadopted uid hown
      exact s.cluster.fresh ns hns
    · exact kept.given uid hown

theorem erase (name : String) :
    Kept { s with cluster := s.cluster.erase name } :=
  { kept with entered := fun ns hns => kept.entered ns (Store.mem_erase.mp hns).1 }

/-- The entry goes once the namespace is gone. -/
theorem delete (name : String) :
    Kept { s with
      cluster := s.cluster.erase name
      framework := { s.framework with
        automanagedNamespaces := s.framework.automanagedNamespaces.erase name } } where
  entered := by
    intro ns hns hown
    obtain ⟨hns, other⟩ := Store.mem_erase.mp hns
    have hentered := kept.entered ns hns hown
    rw [Map.get, Store.lookup_erase, if_neg other]
    exact hentered
  given := kept.given

theorem createNext {c : Creating} {err : Option String} (h : createNext s c name err = some t) :
    Kept t := by
  unfold AutomanagedNamespaces.createNext at h
  split at h
  · split at h
    · exact Option.some.inj h ▸ kept.adopt c name
    · exact Option.some.inj h ▸ ⟨kept.entered, kept.given⟩
  · split at h
    · split at h
      · rename_i valid
        exact Option.some.inj h ▸ (kept.put name valid).adopt c name
      · cases h
    · exact Option.some.inj h ▸ ⟨kept.entered, kept.given⟩

theorem step {a : Action} (h : step s a = some t) : Kept t := by
  cases a with
  | setAutomanagedNamespacePrefix | createAutomanagedNamespaces =>
    obtain ⟨_, h⟩ := Option.ite_none_right_eq_some.mp h
    exact Option.some.inj h ▸ ⟨kept.entered, kept.given⟩
  | next err =>
    simp only [AutomanagedNamespaces.step] at h
    split at h
    · cases h
    · split at h
      · exact Option.some.inj h ▸ ⟨kept.entered, kept.given⟩
      · exact kept.createNext h
  | delete name gone =>
    obtain ⟨_, h⟩ := Option.ite_none_right_eq_some.mp h
    cases gone with
    | true => exact Option.some.inj h ▸ kept.delete name
    | false => exact Option.some.inj h ▸ kept
  | foreignCreate name =>
    simp only [AutomanagedNamespaces.step] at h
    split at h
    · rename_i valid
      exact Option.some.inj h ▸ kept.put name valid
    · cases h
  | foreignDelete name => exact Option.some.inj h ▸ kept.erase name

end

end Kept

/-- Whatever the framework and others have done before, the namespaces are
recognised exactly if the existing names are apart from the expression. -/
theorem namespaces_recognised_iff (u : UnicodeTables) (cluster : Cluster)
    (actions : List Action) :
    Throughout step
      (fun s => (∃ current stale, Recognises u s current stale) ↔ Apart u s)
      (newFramework cluster) actions :=
  throughout_of_keeps (fun _ kept => (recognises_iff_answered kept).trans answered_iff_apart)
    (fun _ _ _ _ kept h => kept.step h) (Kept.start cluster)

/-- No character is in any table, for concrete runs. -/
def noTables : UnicodeTables := ⟨fun _ => none, fun _ => []⟩

def single (name : String) (valid : isDNS1123Label name = true) : Cluster where
  namespaces := Store.empty.insert ⟨name, 0, valid⟩
  nextUid := 1
  fresh := by
    intro ns hns
    rcases Store.mem_insert.mp hns with rfl | ⟨hns, _⟩
    · exact Nat.lt_succ_self 0
    · exact absurd hns (Store.notMem_empty ns)
  distinct := by
    intro ns hns ns' hns' _
    rcases Store.mem_insert.mp hns with rfl | ⟨hns, _⟩
    · rcases Store.mem_insert.mp hns' with rfl | ⟨hns', _⟩
      · rfl
      · exact absurd hns' (Store.notMem_empty ns')
    · exact absurd hns (Store.notMem_empty ns)

theorem not_generated_of_head {base other : String} (h : base.toList ≠ [])
    (differs : other.toList.head? ≠ base.toList.head?) :
    ∀ name ∈ [other], ¬ Generated base name := by
  rintro _ hname ⟨n, _, rfl⟩
  obtain rfl := List.mem_singleton.mp hname
  refine differs ?_
  rw [namespaceName, String.toList_append, String.toList_append, List.append_assoc,
    List.head?_append_of_ne_nil _ h]

/-- A namespace whose name ends like one of this run, one that the prefix as an
expression matches, and a prefix that is no expression at all: none of the
names this run can generate exists, and it is refused each time. -/
theorem foreign_namespaces_refuse :
    (∃ s, exec step (newFramework (single "latest-1" (by decide)))
        [.setAutomanagedNamespacePrefix "test"] = some s ∧
      listAutomanagedNamespaces noTables s.framework s.cluster.names = .ok (["latest-1"], []) ∧
      prepareTestNamespaces noTables s.framework s.cluster.names false = .error .preExisting ∧
      ∀ name ∈ s.cluster.names, ¬ Generated s.framework.automanagedNamespacePrefix name) ∧
    (∃ s, exec step (newFramework (single "load-7" (by decide)))
        [.setAutomanagedNamespacePrefix "[a-z]+"] = some s ∧
      listAutomanagedNamespaces noTables s.framework s.cluster.names = .ok (["load-7"], []) ∧
      ∀ name ∈ s.cluster.names, ¬ Generated s.framework.automanagedNamespacePrefix name) ∧
    ∃ s, exec step (newFramework (single "default" (by decide)))
        [.setAutomanagedNamespacePrefix "test("] = some s ∧
      prepareTestNamespaces noTables s.framework s.cluster.names false =
        .error (.listingFailed .missingParen) ∧
      ∀ name ∈ s.cluster.names, ¬ Generated s.framework.automanagedNamespacePrefix name := by
  refine ⟨⟨_, rfl, by decide +kernel, by decide +kernel, ?_⟩,
    ⟨_, rfl, by decide +kernel, ?_⟩, _, rfl, by decide +kernel, ?_⟩
  · exact not_generated_of_head (by decide) (by decide)
  · exact not_generated_of_head (by decide) (by decide)
  · exact not_generated_of_head (by decide) (by decide)

end AutomanagedNamespaces
