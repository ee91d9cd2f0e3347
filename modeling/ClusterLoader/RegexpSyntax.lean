import ClusterLoader.Regexps

/-!
# The syntax of Go's regular expressions

`regexp/syntax.Parse` with the flags of `regexp.Compile`: a loop over the text
that pushes what it reads and folds the stack at bars and closing parentheses.
Texts are valid UTF-8. What the Unicode tables say is left open. The limits on
the size and the depth of an expression are not modelled, and the expression
that an error quotes is left out.
-/

namespace RegexpSyntax

open Regexps

inductive ErrorCode where
  | internalError
  | invalidCharRange
  | invalidEscape
  | invalidNamedCapture
  | invalidPerlOp
  | invalidRepeatOp
  | invalidRepeatSize
  | missingBracket
  | missingParen
  | missingRepeatArgument
  | trailingBackslash
  | unexpectedParen
  deriving DecidableEq

structure UnicodeTables where
  /-- The category or script of a name, as a set of code points. -/
  table : String → Option (Nat → Bool)
  /-- The code points that differ from this one in case only. -/
  orbit : Nat → List Nat

structure Flags where
  foldCase : Bool
  oneLine : Bool
  dotNL : Bool
  nonGreedy : Bool

def perl : Flags := ⟨false, true, false, false⟩

/-- What lies outside the parenthesis that is open, and the flags in force there. -/
structure Group where
  sequence : List Regexp
  alternatives : List Regexp
  flags : Flags

/-- What has been read of the innermost open group. The last item comes first. -/
structure State where
  flags : Flags
  sequence : List Regexp
  alternatives : List Regexp
  groups : List Group

def start : State := ⟨perl, [], [], []⟩

section
variable (u : UnicodeTables)

/-! ## Sets of characters -/

def range (lo hi : Nat) (c : Nat) : Bool := decide (lo ≤ c) && decide (c ≤ hi)

def folded (flags : Flags) (set : Nat → Bool) (c : Nat) : Bool :=
  set c || (flags.foldCase && (u.orbit c).any set)

def signed (positive : Bool) (set : Nat → Bool) (c : Nat) : Bool :=
  if positive then set c else !set c

def classOf (set : Nat → Bool) : Regexp := .charClass fun c => set c.toNat

def digitSet : Nat → Bool := range 48 57
def lowerSet : Nat → Bool := range 97 122
def upperSet : Nat → Bool := range 65 90
def wordSet (c : Nat) : Bool := digitSet c || lowerSet c || upperSet c || c == 95
def spaceSet (c : Nat) : Bool := c == 9 || c == 10 || c == 12 || c == 13 || c == 32
def graphSet : Nat → Bool := range 33 126

/-- A set, and whether it or its complement is meant. -/
def perlGroup : Char → Option (Bool × (Nat → Bool))
  | 'd' => some (true, digitSet)
  | 'D' => some (false, digitSet)
  | 's' => some (true, spaceSet)
  | 'S' => some (false, spaceSet)
  | 'w' => some (true, wordSet)
  | 'W' => some (false, wordSet)
  | _ => none

def posixGroup (name : String) : Option (Nat → Bool) :=
  if name = "alnum" then some fun c => digitSet c || lowerSet c || upperSet c
  else if name = "alpha" then some fun c => lowerSet c || upperSet c
  else if name = "ascii" then some (range 0 127)
  else if name = "blank" then some fun c => c == 9 || c == 32
  else if name = "cntrl" then some fun c => range 0 31 c || c == 127
  else if name = "digit" then some digitSet
  else if name = "graph" then some graphSet
  else if name = "lower" then some lowerSet
  else if name = "print" then some (range 32 126)
  else if name = "punct" then
    some fun c => graphSet c && !(digitSet c || lowerSet c || upperSet c)
  else if name = "space" then some fun c => range 9 13 c || c == 32
  else if name = "upper" then some upperSet
  else if name = "word" then some wordSet
  else if name = "xdigit" then some fun c => digitSet c || range 97 102 c || range 65 70 c
  else none

/-! ## Reading pieces of an expression -/

/-- `strings.Cut`: what stands before and after the first separator. -/
def cut (separator : List Char) : List Char → Option (List Char × List Char)
  | [] => if separator.isEmpty then some ([], []) else none
  | c :: rest =>
    if separator.isPrefixOf (c :: rest) then some ([], (c :: rest).drop separator.length)
    else (cut separator rest).map fun found => (c :: found.1, found.2)

def unhex (c : Char) : Option Nat :=
  if '0' ≤ c ∧ c ≤ '9' then some (c.toNat - 48)
  else if 'a' ≤ c ∧ c ≤ 'f' then some (c.toNat - 87)
  else if 'A' ≤ c ∧ c ≤ 'F' then some (c.toNat - 55)
  else none

/-- The digits of `\x` in braces, at least one of them. -/
def hexInBraces (value count : Nat) : List Char → Option (Nat × List Char)
  | [] => none
  | c :: rest =>
    if c = '}' then if count = 0 then none else some (value, rest)
    else
      match unhex c with
      | none => none
      | some digit =>
        if value * 16 + digit > 0x10FFFF then none
        else hexInBraces (value * 16 + digit) (count + 1) rest

def isOctal (c : Char) : Bool := '0' ≤ c && c ≤ '7'

/-- Up to so many further octal digits. -/
def octal : Nat → Nat → List Char → Nat × List Char
  | more + 1, value, c :: rest =>
    if isOctal c then octal more (value * 8 + (c.toNat - 48)) rest else (value, c :: rest)
  | _, value, rest => (value, rest)

/-- What stands behind a backslash, as a single character. -/
def parseEscape : List Char → Except ErrorCode (Nat × List Char)
  | [] => .error .trailingBackslash
  | 'a' :: rest => .ok (7, rest)
  | 'f' :: rest => .ok (12, rest)
  | 'n' :: rest => .ok (10, rest)
  | 'r' :: rest => .ok (13, rest)
  | 't' :: rest => .ok (9, rest)
  | 'v' :: rest => .ok (11, rest)
  | '0' :: rest => .ok (octal 2 0 rest)
  | 'x' :: '{' :: rest =>
    match hexInBraces 0 0 rest with
    | some found => .ok found
    | none => .error .invalidEscape
  | 'x' :: c :: d :: rest =>
    match unhex c, unhex d with
    | some x, some y => .ok (x * 16 + y, rest)
    | _, _ => .error .invalidEscape
  | c :: rest =>
    if isOctal c then
      -- A single digit is a back reference, which is not supported.
      if rest.head?.any isOctal then .ok (octal 2 (c.toNat - 48) rest)
      else .error .invalidEscape
    else if c.toNat < 128 && !(c.isAlphanum) then .ok (c.toNat, rest)
    else .error .invalidEscape

/-- `\p` and `\P`, from the name on. -/
def parseUnicodeClass (flags : Flags) (positive : Bool) (t : List Char) :
    Except ErrorCode ((Nat → Bool) × List Char) :=
  let named : Option (List Char × List Char) :=
    match t with
    | [] => none
    | '{' :: rest => cut ['}'] rest
    | c :: rest => some ([c], rest)
  match named with
  | none => .error .invalidCharRange
  | some (name, rest) =>
    let (positive, name) :=
      match name with
      | '^' :: name => (!positive, name)
      | name => (positive, name)
    match u.table (String.ofList name) with
    | none => .error .invalidCharRange
    | some set => .ok (signed positive (folded u flags set), rest)

/-- A set that is written with a backslash, or nothing if the backslash begins
a single character. -/
def parseClassEscape (flags : Flags) : List Char →
    Except ErrorCode (Option ((Nat → Bool) × List Char))
  | 'p' :: rest => (parseUnicodeClass u flags true rest).map some
  | 'P' :: rest => (parseUnicodeClass u flags false rest).map some
  | c :: rest =>
    .ok ((perlGroup c).map fun group => (signed group.1 (folded u flags group.2), rest))
  | [] => .ok none

def parseClassChar : List Char → Except ErrorCode (Nat × List Char)
  | [] => .error .missingBracket
  | '\\' :: rest => parseEscape rest
  | c :: rest => .ok (c.toNat, rest)

/-- `[:name:]` inside brackets, from the name on. -/
def parseNamedClass (flags : Flags) (t : List Char) :
    Except ErrorCode (Option ((Nat → Bool) × List Char)) :=
  match cut [':', ']'] t with
  | none => .ok none
  | some (name, rest) =>
    let (positive, name) :=
      match name with
      | '^' :: name => (false, name)
      | name => (true, name)
    match posixGroup (String.ofList name) with
    | none => .error .invalidCharRange
    | some set => .ok (some (signed positive (folded u flags set), rest))

/-- A character or a range inside brackets. -/
def parseClassRange (flags : Flags) (t : List Char) :
    Except ErrorCode ((Nat → Bool) × List Char) := do
  let (lo, rest) ← parseClassChar t
  match rest with
  | '-' :: c :: more =>
    if c = ']' then return (folded u flags (range lo lo), rest)
    else
      let (hi, rest) ← parseClassChar (c :: more)
      if hi < lo then throw .invalidCharRange
      else return (folded u flags (range lo hi), rest)
  | _ => return (folded u flags (range lo lo), rest)

/-- One item of a class in brackets. -/
def parseClassItem (flags : Flags) (t : List Char) :
    Except ErrorCode ((Nat → Bool) × List Char) := do
  let named ← match t with
    | '[' :: ':' :: rest => parseNamedClass u flags rest
    | '\\' :: rest => parseClassEscape u flags rest
    | _ => .ok none
  match named with
  | some found => return found
  | none => parseClassRange u flags t

/-- The items up to the closing bracket, which is an item where it comes first. -/
def parseClassItems (flags : Flags) : Nat → Bool → (Nat → Bool) → List Char →
    Except ErrorCode ((Nat → Bool) × List Char)
  | 0, _, _, _ => .error .missingBracket
  | fuel + 1, first, set, t =>
    if t.head? = some ']' ∧ first = false then .ok (set, t.tail)
    else do
      let (item, rest) ← parseClassItem u flags t
      parseClassItems flags fuel false (fun c => set c || item c) rest

/-- A class, from behind its opening bracket. -/
def parseClass (flags : Flags) (t : List Char) : Except ErrorCode (Regexp × List Char) := do
  let (positive, t) :=
    match t with
    | '^' :: rest => (false, rest)
    | t => (true, t)
  let (set, rest) ← parseClassItems u flags (t.length + 1) true (fun _ => false) t
  return (classOf (signed positive set), rest)

def parseInt (t : List Char) : Option (Nat × List Char) :=
  let digits := t.takeWhile Char.isDigit
  if digits.isEmpty ∨ (2 ≤ digits.length ∧ digits.head? = some '0') then none
  else some (digits.foldl (fun n c => n * 10 + (c.toNat - 48)) 0, t.drop digits.length)

/-- The counts of a repetition, from behind its opening brace. -/
def parseRepeat (t : List Char) : Option (Nat × Option Nat × List Char) := do
  let (min, rest) ← parseInt t
  match rest with
  | '}' :: rest => return (min, some min, rest)
  | ',' :: '}' :: rest => return (min, none, rest)
  | ',' :: rest =>
    let (max, rest) ← parseInt rest
    match rest with
    | '}' :: rest => return (min, some max, rest)
    | _ => none
  | _ => none

/-- The counts of repetitions inside one another are limited together. -/
def repeatIsValid : Regexp → Nat → Bool
  | .repeated r min max, n =>
    match max with
    | some 0 => true
    | _ =>
      let m := max.getD min
      decide (m ≤ n) && repeatIsValid r (if 0 < m then n / m else n)
  | .concat r s, n => repeatIsValid r n && repeatIsValid s n
  | .alternate r s, n => repeatIsValid r n && repeatIsValid s n
  | _, _ => true

/-! ## The stack -/

namespace State

def push (s : State) (r : Regexp) : State := { s with sequence := r :: s.sequence }

def literal (s : State) (c : Nat) : State :=
  s.push (classOf (folded u s.flags (range c c)))

def concat (s : State) : Regexp := s.sequence.reverse.foldr .concat .emptyMatch

def alternate (s : State) : Regexp := s.alternatives.foldl (fun r a => .alternate a r) s.concat

def parseVerticalBar (s : State) : State :=
  { s with alternatives := s.concat :: s.alternatives, sequence := [] }

def openGroup (s : State) (flags : Flags) : State :=
  ⟨flags, [], [], ⟨s.sequence, s.alternatives, s.flags⟩ :: s.groups⟩

def parseRightParen (s : State) : Except ErrorCode State :=
  match s.groups with
  | [] => .error .unexpectedParen
  | g :: groups => .ok ⟨g.flags, s.alternate :: g.sequence, g.alternatives, groups⟩

/-- A repetition behind another one is refused: `lastRepeat` says that there is one. -/
def repeatLast (s : State) (min : Nat) (max : Option Nat) (lastRepeat : Bool) :
    Except ErrorCode State :=
  if lastRepeat then .error .invalidRepeatOp
  else
    match s.sequence with
    | [] => .error .missingRepeatArgument
    | r :: rest =>
      if (2 ≤ min ∨ 2 ≤ max.getD 0) ∧ repeatIsValid (.repeated r min max) 1000 = false then
        .error .invalidRepeatSize
      else .ok { s with sequence := .repeated r min max :: rest }

end State

/-- A question mark behind a repetition asks for the lazy one. -/
def dropLazy : List Char → List Char
  | '?' :: rest => rest
  | t => t

def isValidCaptureName (name : List Char) : Bool :=
  !name.isEmpty && name.all fun c => c == '_' || c.isAlphanum

structure FlagChange where
  flags : Flags
  negative : Bool
  sawFlag : Bool

/-- The letters behind `(?`. -/
def parsePerlFlags (s : State) : FlagChange → List Char → Except ErrorCode (State × List Char)
  | _, [] => .error .invalidPerlOp
  | f, 'i' :: rest =>
    parsePerlFlags s { f with flags.foldCase := !f.negative, sawFlag := true } rest
  | f, 'm' :: rest =>
    parsePerlFlags s { f with flags.oneLine := f.negative, sawFlag := true } rest
  | f, 's' :: rest =>
    parsePerlFlags s { f with flags.dotNL := !f.negative, sawFlag := true } rest
  | f, 'U' :: rest =>
    parsePerlFlags s { f with flags.nonGreedy := !f.negative, sawFlag := true } rest
  | f, '-' :: rest =>
    if f.negative then .error .invalidPerlOp
    else parsePerlFlags s { f with negative := true, sawFlag := false } rest
  | f, ':' :: rest =>
    if f.negative && !f.sawFlag then .error .invalidPerlOp else .ok (s.openGroup f.flags, rest)
  | f, ')' :: rest =>
    if f.negative && !f.sawFlag then .error .invalidPerlOp
    else .ok ({ s with flags := f.flags }, rest)
  | _, _ => .error .invalidPerlOp

/-- A named group, from behind its opening angle bracket. -/
def parseNamedGroup (s : State) (t : List Char) : Except ErrorCode (State × List Char) :=
  match cut ['>'] t with
  | none => .error .invalidNamedCapture
  | some (name, rest) =>
    if isValidCaptureName name then .ok (s.openGroup s.flags, rest)
    else .error .invalidNamedCapture

/-- What begins with a backslash outside brackets. -/
def parseBackslash (s : State) (t : List Char) : Except ErrorCode (State × List Char) :=
  match t with
  | 'A' :: rest => .ok (s.push (.assertion .beginText), rest)
  | 'b' :: rest => .ok (s.push (.assertion .wordBoundary), rest)
  | 'B' :: rest => .ok (s.push (.assertion .noWordBoundary), rest)
  | 'z' :: rest => .ok (s.push (.assertion .endText), rest)
  | 'C' :: _ => .error .invalidEscape
  | 'Q' :: rest =>
    let (quoted, rest) := (cut ['\\', 'E'] rest).getD (rest, [])
    .ok (quoted.foldl (fun s c => s.literal u c.toNat) s, rest)
  | t => do
    match ← parseClassEscape u s.flags t with
    | some (set, rest) => return (s.push (classOf set), rest)
    | none =>
      let (c, rest) ← parseEscape t
      return (s.literal u c, rest)

/-- One turn of the loop: the new state, whether what was read is a repetition,
and what is left to read. -/
def parseToken (s : State) (lastRepeat : Bool) (c : Char) (t : List Char) :
    Except ErrorCode (State × Bool × List Char) :=
  match c with
  | '(' =>
    match t with
    | '?' :: 'P' :: '<' :: rest => (parseNamedGroup s rest).map fun r => (r.1, false, r.2)
    | '?' :: '<' :: rest => (parseNamedGroup s rest).map fun r => (r.1, false, r.2)
    | '?' :: rest => (parsePerlFlags s ⟨s.flags, false, false⟩ rest).map fun r =>
      (r.1, false, r.2)
    | t => .ok (s.openGroup s.flags, false, t)
  | '|' => .ok (s.parseVerticalBar, false, t)
  | ')' => s.parseRightParen.map fun s => (s, false, t)
  | '^' =>
    .ok (s.push (.assertion (if s.flags.oneLine then .beginText else .beginLine)), false, t)
  | '$' => .ok (s.push (.assertion (if s.flags.oneLine then .endText else .endLine)), false, t)
  | '.' => .ok (s.push (classOf fun c => s.flags.dotNL || c != 10), false, t)
  | '[' => (parseClass u s.flags t).map fun r => (s.push r.1, false, r.2)
  | '*' => (s.repeatLast 0 none lastRepeat).map fun s => (s, true, dropLazy t)
  | '+' => (s.repeatLast 1 none lastRepeat).map fun s => (s, true, dropLazy t)
  | '?' => (s.repeatLast 0 (some 1) lastRepeat).map fun s => (s, true, dropLazy t)
  | '{' =>
    match parseRepeat t with
    | none => .ok (s.literal u '{'.toNat, false, t)
    | some (min, max, rest) =>
      if 1000 < min ∨ 1000 < max.getD 0 ∨ max.any (· < min) then .error .invalidRepeatSize
      else (s.repeatLast min max lastRepeat).map fun s => (s, true, dropLazy rest)
  | '\\' => (parseBackslash u s t).map fun r => (r.1, false, r.2)
  | c => .ok (s.literal u c.toNat, false, t)

/-- Every turn reads a character at least, so the length of the text is fuel enough. -/
def parseLoop : Nat → State → Bool → List Char → Except ErrorCode State
  | _, s, _, [] => .ok s
  | 0, _, _, _ :: _ => .error .internalError
  | fuel + 1, s, lastRepeat, c :: t => do
    let (s, lastRepeat, rest) ← parseToken u s lastRepeat c t
    parseLoop fuel s lastRepeat rest

def parse (text : String) : Except ErrorCode Regexp := do
  let s ← parseLoop u text.length start false text.toList
  if s.groups.isEmpty then return s.alternate else throw .missingParen

/-- `regexp.MatchString`. -/
def matchPattern (pattern name : String) : Except ErrorCode Bool :=
  (parse u pattern).map (matchString · name)

/-! ## Texts without special characters -/

/-- The characters that `regexp.QuoteMeta` escapes. -/
def special : List Char := "\\.+*?()|[]\x7b\x7d^$".toList

/-- Read as an expression such a text stands for itself. -/
def Plain (text : List Char) : Prop := ∀ c ∈ text, c ∉ special

instance (text : List Char) : Decidable (Plain text) :=
  inferInstanceAs (Decidable (∀ c ∈ text, c ∉ special))

variable {u}

theorem parseToken_plain {c : Char} (plain : c ∉ special) (s : State) (lastRepeat : Bool)
    (t : List Char) :
    parseToken u s lastRepeat c t = .ok (s.literal u c.toNat, false, t) := by
  unfold parseToken
  split
  all_goals first | exact absurd (by decide) plain | rfl

/-- What a plain text leaves on the stack. -/
def literalChar (u : UnicodeTables) (c : Char) : Regexp :=
  classOf (folded u perl (range c.toNat c.toNat))

theorem parseLoop_plain {text : List Char} (plain : Plain text) (fuel : Nat)
    (sequence : List Regexp) (rest : List Char) :
    parseLoop u (text.length + fuel) { start with sequence := sequence } false (text ++ rest) =
      parseLoop u fuel
        { start with sequence := (text.map (literalChar u)).reverse ++ sequence } false rest := by
  induction text generalizing sequence with
  | nil => rw [List.length_nil, Nat.zero_add]; rfl
  | cons c text ih =>
    rw [List.length_cons, Nat.add_right_comm, List.cons_append, parseLoop,
      parseToken_plain (plain c List.mem_cons_self)]
    refine (ih (fun d hd => plain d (List.mem_cons_of_mem c hd)) _).trans ?_
    rw [List.map_cons, List.reverse_cons, List.append_assoc]
    rfl

theorem matches_literalChar (c : Char) (before text after : List Char) :
    Matches (literalChar u c) before text after ↔ text = [c] := by
  have hset : ∀ d : Char, folded u perl (range c.toNat c.toNat) d.toNat = true ↔ d = c := by
    intro d
    simp only [folded, perl, Bool.false_and, Bool.or_false, range, Bool.and_eq_true,
      decide_eq_true_eq]
    constructor
    · rintro ⟨h₁, h₂⟩
      exact Char.toNat_inj.mp (Nat.le_antisymm h₂ h₁)
    · rintro rfl
      exact ⟨Nat.le_refl _, Nat.le_refl _⟩
  rw [literalChar, classOf, Matches]
  simp only [hset]
  constructor
  · rintro ⟨d, rfl, rfl⟩
    rfl
  · rintro rfl
    exact ⟨c, rfl, rfl⟩

end

end RegexpSyntax
