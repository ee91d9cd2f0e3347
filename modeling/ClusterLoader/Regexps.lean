import Mathlib.Data.List.Infix

/-!
# Regular expressions that look around

What it means that an expression matches a piece of text between what comes
before it and what follows, and a matcher that decides it. Anchors and word
boundaries look at both sides, so a match is not a matter of the piece alone.
What comes before is kept in reverse, the nearest character first.

Whether there is a match somewhere does not depend on which of several matches
is preferred, so greedy and lazy repetition are the same here.
-/

namespace Regexps

inductive Assertion where
  | beginText
  | endText
  | beginLine
  | endLine
  | wordBoundary
  | noWordBoundary

def isWordChar (c : Char) : Bool :=
  ('a' ≤ c && c ≤ 'z') || ('A' ≤ c && c ≤ 'Z') || ('0' ≤ c && c ≤ '9') || c == '_'

def Assertion.holds : Assertion → List Char → List Char → Bool
  | .beginText, before, _ => before.isEmpty
  | .endText, _, after => after.isEmpty
  | .beginLine, before, _ => before.head?.all (· == '\n')
  | .endLine, _, after => after.head?.all (· == '\n')
  | .wordBoundary, before, after => before.head?.any isWordChar != after.head?.any isWordChar
  | .noWordBoundary, before, after => before.head?.any isWordChar == after.head?.any isWordChar

inductive Regexp where
  | emptyMatch
  | charClass (p : Char → Bool)
  | assertion (a : Assertion)
  | concat (r s : Regexp)
  | alternate (r s : Regexp)
  | repeated (r : Regexp) (min : Nat) (max : Option Nat)

/-- So many matches one behind the other. -/
inductive Times (M : List Char → List Char → List Char → Prop) :
    Nat → List Char → List Char → List Char → Prop where
  | zero (before after : List Char) : Times M 0 before [] after
  | succ {n : Nat} {before text rest after : List Char} (first : M before text (rest ++ after))
    (others : Times M n (text.reverse ++ before) rest after) :
    Times M (n + 1) before (text ++ rest) after

def Matches : Regexp → List Char → List Char → List Char → Prop
  | .emptyMatch, _, text, _ => text = []
  | .charClass p, _, text, _ => ∃ c, text = [c] ∧ p c = true
  | .assertion a, before, text, after => text = [] ∧ a.holds before after = true
  | .concat r s, before, text, after => ∃ first second, text = first ++ second ∧
    Matches r before first (second ++ after) ∧ Matches s (first.reverse ++ before) second after
  | .alternate r s, before, text, after => Matches r before text after ∨ Matches s before text after
  | .repeated r min max, before, text, after => ∃ n, min ≤ n ∧ (∀ m, max = some m → n ≤ m) ∧
    Times (Matches r) n before text after

/-! ## The matcher -/

/-- What is asked of the place a match ends at. -/
abbrev Goal := List Char → List Char → Bool

def exactly (body : Goal → Goal) (k : Goal) : Nat → Goal
  | 0 => k
  | n + 1 => body (exactly body k n)

def atMost (body : Goal → Goal) (k : Goal) : Nat → Goal
  | 0 => k
  | n + 1 => fun before after => k before after || body (atMost body k n) before after

/-- As often as possible; a round that consumes nothing is left out. -/
def anyNumber (body : Goal → Goal) (k : Goal) : Nat → Goal
  | 0 => k
  | fuel + 1 => fun before after => k before after ||
    body (fun before' after' => decide (after'.length < after.length) &&
      anyNumber body k fuel before' after') before after

def run : Regexp → Goal → Goal
  | .emptyMatch, k, before, after => k before after
  | .charClass p, k, before, after =>
    match after with
    | [] => false
    | c :: rest => p c && k (c :: before) rest
  | .assertion a, k, before, after => a.holds before after && k before after
  | .concat r s, k, before, after => run r (run s k) before after
  | .alternate r s, k, before, after => run r k before after || run s k before after
  | .repeated r min (some max), k, before, after =>
    decide (min ≤ max) && exactly (run r) (atMost (run r) k (max - min)) min before after
  | .repeated r min none, k, before, after =>
    exactly (run r) (anyNumber (run r) k after.length) min before after

/-- Try at every place from here on. -/
def search (r : Regexp) : List Char → List Char → Bool
  | before, [] => run r (fun _ _ => true) before []
  | before, c :: after =>
    run r (fun _ _ => true) before (c :: after) || search r (c :: before) after

def matchString (r : Regexp) (text : String) : Bool := search r [] text.toList

/-! ## What the matcher decides -/

/-- A match is found from here to a place that meets the goal. -/
def Leads (M : List Char → List Char → List Char → Prop) (k : Goal)
    (before after : List Char) : Prop :=
  ∃ text rest, after = text ++ rest ∧ M before text rest ∧ k (text.reverse ++ before) rest = true

variable {k : Goal} {before after : List Char}

variable {M : List Char → List Char → List Char → Prop}

theorem leads_zero : Leads (Times M 0) k before after ↔ k before after = true := by
  constructor
  · rintro ⟨text, rest, rfl, h, hk⟩
    cases h
    exact hk
  · intro hk
    exact ⟨[], after, rfl, .zero before after, hk⟩

/-- One match and then the others. -/
theorem leads_succ {n : Nat} : Leads (Times M (n + 1)) k before after ↔
      ∃ text rest, after = text ++ rest ∧ M before text rest ∧
        Leads (Times M n) k (text.reverse ++ before) rest := by
  constructor
  · rintro ⟨text, rest, rfl, h, hk⟩
    cases h with
    | @succ _ _ first second _ hfirst others =>
      refine ⟨first, second ++ rest, List.append_assoc .., hfirst, second, rest, rfl, others, ?_⟩
      rw [← List.append_assoc, ← List.reverse_append]
      exact hk
  · rintro ⟨first, after', rfl, hfirst, second, rest, rfl, others, hk⟩
    refine ⟨first ++ second, rest, (List.append_assoc ..).symm, .succ hfirst others, ?_⟩
    rw [List.reverse_append, List.append_assoc]
    exact hk

section
variable {M : List Char → List Char → List Char → Prop} {body : Goal → Goal}
  (spec : ∀ k before after, body k before after = true ↔ Leads M k before after)

include spec

theorem exactly_iff (k : Goal) (n : Nat) (before after : List Char) :
    exactly body k n before after = true ↔ Leads (Times M n) k before after := by
  induction n generalizing before after with
  | zero => exact leads_zero.symm
  | succ n ih =>
    rw [leads_succ, exactly, spec, Leads]
    simp only [ih]

theorem atMost_iff (k : Goal) (n : Nat) (before after : List Char) :
    atMost body k n before after = true ↔
      ∃ m ≤ n, Leads (Times M m) k before after := by
  induction n generalizing before after with
  | zero => simp only [atMost, Nat.le_zero_eq, exists_eq_left, leads_zero]
  | succ n ih =>
    rw [atMost, Bool.or_eq_true, spec, Leads]
    simp only [ih]
    constructor
    · rintro (hk | ⟨text, rest, rfl, h, m, hm, others⟩)
      · exact ⟨0, Nat.zero_le _, leads_zero.mpr hk⟩
      · exact ⟨m + 1, Nat.succ_le_succ hm, leads_succ.mpr ⟨text, rest, rfl, h, others⟩⟩
    · rintro ⟨m, hm, h⟩
      cases m with
      | zero => exact .inl (leads_zero.mp h)
      | succ m =>
        obtain ⟨text, rest, rfl, hfirst, others⟩ := leads_succ.mp h
        exact .inr ⟨text, rest, rfl, hfirst, m, Nat.le_of_succ_le_succ hm, others⟩

theorem leads_of_anyNumber (k : Goal) (fuel : Nat) (before after : List Char)
    (h : anyNumber body k fuel before after = true) :
    ∃ m, Leads (Times M m) k before after := by
  induction fuel generalizing before after with
  | zero => exact ⟨0, leads_zero.mpr h⟩
  | succ fuel ih =>
    rw [anyNumber, Bool.or_eq_true, spec] at h
    rcases h with hk | ⟨text, rest, rfl, hfirst, hothers⟩
    · exact ⟨0, leads_zero.mpr hk⟩
    · obtain ⟨m, others⟩ := ih _ _ (Bool.and_eq_true_iff.mp hothers).2
      exact ⟨m + 1, leads_succ.mpr ⟨text, rest, rfl, hfirst, others⟩⟩

/-- Rounds that consume nothing come back to the same place and can be left
out, so there are no more rounds than characters. -/
theorem anyNumber_of_leads (k : Goal) {m fuel : Nat} {before after : List Char}
    (enough : after.length ≤ fuel) (h : Leads (Times M m) k before after) :
    anyNumber body k fuel before after = true := by
  induction m generalizing fuel before after with
  | zero =>
    have hk := leads_zero.mp h
    cases fuel with
    | zero => exact hk
    | succ fuel =>
      rw [anyNumber, Bool.or_eq_true]
      exact .inl hk
  | succ m ih =>
    obtain ⟨text, rest, rfl, hfirst, others⟩ := leads_succ.mp h
    cases text with
    | nil => exact ih enough others
    | cons c text =>
      rw [List.length_append, List.length_cons] at enough
      cases fuel with
      | zero => omega
      | succ fuel =>
        rw [anyNumber, Bool.or_eq_true, spec]
        refine .inr ⟨c :: text, rest, rfl, hfirst, ?_⟩
        rw [Bool.and_eq_true, decide_eq_true_iff]
        refine ⟨?_, ih (by omega) others⟩
        rw [List.length_append, List.length_cons]
        omega

end

theorem leads_add {n m : Nat} : Leads (Times M (n + m)) k before after ↔
      ∃ text rest, after = text ++ rest ∧ Times M n before text rest ∧
        Leads (Times M m) k (text.reverse ++ before) rest := by
  induction n generalizing before after with
  | zero =>
    rw [Nat.zero_add]
    constructor
    · intro h
      exact ⟨[], after, rfl, .zero before after, h⟩
    · rintro ⟨text, rest, rfl, h, others⟩
      cases h
      exact others
  | succ n ih =>
    rw [Nat.add_right_comm, leads_succ]
    constructor
    · rintro ⟨first, rest, rfl, hfirst, others⟩
      obtain ⟨second, rest, rfl, hsecond, others⟩ := ih.mp others
      refine ⟨first ++ second, rest, (List.append_assoc ..).symm, .succ hfirst hsecond, ?_⟩
      rw [List.reverse_append, List.append_assoc]
      exact others
    · rintro ⟨text, rest, rfl, h, others⟩
      cases h with
      | @succ _ _ first second _ hfirst hsecond =>
        refine ⟨first, second ++ rest, List.append_assoc .., hfirst, ih.mpr ?_⟩
        refine ⟨second, rest, rfl, hsecond, ?_⟩
        rw [← List.append_assoc, ← List.reverse_append]
        exact others

theorem leads_concat {r s : Regexp} :
    Leads (Matches (.concat r s)) k before after ↔ ∃ first rest, after = first ++ rest ∧
      Matches r before first rest ∧ Leads (Matches s) k (first.reverse ++ before) rest := by
  constructor
  · rintro ⟨text, rest, rfl, ⟨first, second, rfl, hfirst, hsecond⟩, hk⟩
    refine ⟨first, second ++ rest, List.append_assoc .., hfirst, second, rest, rfl, hsecond, ?_⟩
    rw [← List.append_assoc, ← List.reverse_append]
    exact hk
  · rintro ⟨first, after, rfl, hfirst, second, rest, rfl, hsecond, hk⟩
    refine ⟨first ++ second, rest, (List.append_assoc ..).symm,
      ⟨first, second, rfl, hfirst, hsecond⟩, ?_⟩
    rw [List.reverse_append, List.append_assoc]
    exact hk

theorem leads_alternate {r s : Regexp} : Leads (Matches (.alternate r s)) k before after ↔
      Leads (Matches r) k before after ∨ Leads (Matches s) k before after := by
  constructor
  · rintro ⟨text, rest, rfl, h | h, hk⟩
    · exact .inl ⟨text, rest, rfl, h, hk⟩
    · exact .inr ⟨text, rest, rfl, h, hk⟩
  · rintro (⟨text, rest, rfl, h, hk⟩ | ⟨text, rest, rfl, h, hk⟩)
    · exact ⟨text, rest, rfl, .inl h, hk⟩
    · exact ⟨text, rest, rfl, .inr h, hk⟩

theorem leads_repeated {r : Regexp} {min : Nat} {max : Option Nat}
    : Leads (Matches (.repeated r min max)) k before after ↔
      ∃ n, (∀ m, max = some m → min + n ≤ m) ∧
        Leads (Times (Matches r) (min + n)) k before after := by
  constructor
  · rintro ⟨text, rest, rfl, ⟨n, hmin, hmax, h⟩, hk⟩
    obtain ⟨n, rfl⟩ := Nat.exists_eq_add_of_le hmin
    exact ⟨n, hmax, text, rest, rfl, h, hk⟩
  · rintro ⟨n, hmax, text, rest, rfl, h, hk⟩
    exact ⟨text, rest, rfl, ⟨min + n, Nat.le_add_right .., hmax, h⟩, hk⟩

theorem run_iff (r : Regexp) (k : Goal) (before after : List Char) :
    run r k before after = true ↔ Leads (Matches r) k before after := by
  induction r generalizing k before after with
  | emptyMatch =>
    constructor
    · intro hk
      exact ⟨[], after, rfl, rfl, hk⟩
    · rintro ⟨text, rest, rfl, rfl, hk⟩
      exact hk
  | charClass p =>
    cases after with
    | nil =>
      constructor
      · nofun
      · rintro ⟨text, rest, hsplit, ⟨c, rfl, _⟩, _⟩
        cases hsplit
    | cons c rest =>
      rw [run, Bool.and_eq_true]
      constructor
      · rintro ⟨hc, hk⟩
        exact ⟨[c], rest, rfl, ⟨c, rfl, hc⟩, hk⟩
      · rintro ⟨text, rest, hsplit, ⟨d, rfl, hd⟩, hk⟩
        obtain ⟨rfl, rfl⟩ := List.cons.inj hsplit
        exact ⟨hd, hk⟩
  | assertion a =>
    rw [run, Bool.and_eq_true]
    constructor
    · rintro ⟨holds, hk⟩
      exact ⟨[], after, rfl, ⟨rfl, holds⟩, hk⟩
    · rintro ⟨text, rest, rfl, ⟨rfl, holds⟩, hk⟩
      exact ⟨holds, hk⟩
  | concat r s ihr ihs =>
    rw [run, ihr, leads_concat, Leads]
    simp only [ihs]
  | alternate r s ihr ihs =>
    rw [run, Bool.or_eq_true, ihr, ihs, leads_alternate]
  | repeated r min max ih =>
    rw [leads_repeated]
    cases max with
    | some max =>
      rw [run, Bool.and_eq_true, decide_eq_true_iff, exactly_iff ih, Leads]
      simp only [atMost_iff ih, leads_add, Option.some.injEq, forall_eq']
      constructor
      · rintro ⟨hle, text, rest, rfl, h, m, hm, others⟩
        exact ⟨m, by omega, text, rest, rfl, h, others⟩
      · rintro ⟨m, hm, text, rest, rfl, h, others⟩
        exact ⟨by omega, text, rest, rfl, h, m, by omega, others⟩
    | none =>
      rw [run, exactly_iff ih]
      simp only [leads_add]
      constructor
      · rintro ⟨text, rest, rfl, h, hany⟩
        obtain ⟨m, others⟩ := leads_of_anyNumber ih k _ _ _ hany
        exact ⟨m, nofun, text, rest, rfl, h, others⟩
      · rintro ⟨m, _, text, rest, rfl, h, others⟩
        refine ⟨text, rest, rfl, h, anyNumber_of_leads ih k ?_ others⟩
        rw [List.length_append]
        exact Nat.le_add_left ..

theorem search_iff (r : Regexp) (before after : List Char) :
    search r before after = true ↔ ∃ skipped text rest, after = skipped ++ (text ++ rest) ∧
      Matches r (skipped.reverse ++ before) text rest := by
  induction after generalizing before with
  | nil =>
    rw [search, run_iff]
    constructor
    · rintro ⟨text, rest, hsplit, h, _⟩
      exact ⟨[], text, rest, hsplit, h⟩
    · rintro ⟨skipped, text, rest, hsplit, h⟩
      obtain ⟨rfl, htext⟩ := List.nil_eq_append_iff.mp hsplit
      exact ⟨text, rest, htext.symm, h, rfl⟩
  | cons c after ih =>
    rw [search, Bool.or_eq_true, run_iff, ih]
    constructor
    · rintro (⟨text, rest, hsplit, h, _⟩ | ⟨skipped, text, rest, rfl, h⟩)
      · exact ⟨[], text, rest, hsplit, h⟩
      · refine ⟨c :: skipped, text, rest, rfl, ?_⟩
        rw [List.reverse_cons, List.append_assoc]
        exact h
    · rintro ⟨skipped, text, rest, hsplit, h⟩
      cases skipped with
      | nil => exact .inl ⟨text, rest, hsplit, h, rfl⟩
      | cons d skipped =>
        obtain ⟨rfl, rfl⟩ := List.cons.inj hsplit
        rw [List.reverse_cons, List.append_assoc] at h
        exact .inr ⟨skipped, text, rest, rfl, h⟩

/-- Somewhere in the text there is a match. -/
theorem matchString_iff (r : Regexp) (text : String) :
    matchString r text = true ↔ ∃ before found after,
      text.toList = before ++ (found ++ after) ∧ Matches r before.reverse found after := by
  rw [matchString, search_iff]
  simp only [List.append_nil]

/-- Characters one behind the other, and then an expression. -/
theorem matches_literals {literal : Char → Regexp}
    (single : ∀ c before text after, Matches (literal c) before text after ↔ text = [c])
    (chars : List Char) (r : Regexp) (before text after : List Char) :
    Matches ((chars.map literal).foldr .concat r) before text after ↔
      ∃ rest, text = chars ++ rest ∧ Matches r (chars.reverse ++ before) rest after := by
  induction chars generalizing before text with
  | nil => simp only [List.map_nil, List.foldr_nil, List.nil_append, List.reverse_nil,
      exists_eq_left']
  | cons c chars ih =>
    rw [List.map_cons, List.foldr_cons, Matches]
    simp only [single, ih, List.reverse_cons, List.append_assoc]
    constructor
    · rintro ⟨_, _, rfl, rfl, rest, rfl, h⟩
      exact ⟨rest, rfl, h⟩
    · rintro ⟨rest, rfl, h⟩
      exact ⟨[c], chars ++ rest, rfl, rfl, rest, rfl, h⟩

/-- Any number of characters of a class. -/
theorem matches_repeated_class {p : Char → Bool} {text : List Char} :
    Matches (.repeated (.charClass p) 0 none) before text after ↔ ∀ c ∈ text, p c = true := by
  constructor
  · rintro ⟨n, _, _, h⟩
    induction h with
    | zero => nofun
    | succ first _ ih =>
      obtain ⟨c, rfl, hc⟩ := first
      exact List.forall_mem_cons.mpr ⟨hc, ih (Nat.zero_le _) nofun⟩
  · intro h
    refine ⟨text.length, Nat.zero_le _, nofun, ?_⟩
    induction text generalizing before with
    | nil => exact .zero before after
    | cons c text ih =>
      obtain ⟨hc, htext⟩ := List.forall_mem_cons.mp h
      exact .succ ⟨c, rfl, hc⟩ (ih htext)

end Regexps
