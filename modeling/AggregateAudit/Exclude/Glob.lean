import AggregateAudit.Text.Search

/-!
# Globs

A glob is a pattern for whole paths.  `?` stands for one character and `*` for any
number of them, slashes included; `[…]` stands for one character of a class and
`[!…]` for one that is not of the class.  `**` stands for any number of whole
components, and it must itself be a whole component of the pattern.  Every other
character stands for itself.

A pattern that misses one of these requirements has a fault, and the fault says
where: positions count characters from zero.
-/

namespace AggregateAudit
namespace Glob

/-! ## Patterns -/

/-- The characters from `low` to `high`.  A single character is the range from
itself to itself, and a range may be empty. -/
structure Range where
  low : Char
  high : Char
  deriving DecidableEq

def Range.contains (r : Range) (c : Char) : Bool := r.low ≤ c && c ≤ r.high

/-- A part of a pattern. -/
inductive Token where
  | char (c : Char)
  | anyChar
  /-- `*`: any characters. -/
  | anySequence
  /-- `**`, with the slash behind it: any whole components. -/
  | anyComponents
  | within (class_ : List Range)
  | outside (class_ : List Range)
  deriving DecidableEq

/-- The requirements that a pattern can miss. -/
inductive Requirement where
  | starCount
  | wholeComponent
  | closedClass
  deriving DecidableEq

namespace Requirement

def message : Requirement → String
  | starCount => "wildcards are either regular `*` or recursive `**`"
  | wholeComponent => "recursive wildcards must form a single path component"
  | closedClass => "invalid range pattern"

end Requirement

/-- The requirement that a pattern misses, and where it misses it. -/
structure Fault where
  position : Nat
  requirement : Requirement
  deriving DecidableEq

def Fault.message (f : Fault) : String :=
  "Pattern syntax error near position " ++ toString f.position ++ ": " ++ f.requirement.message

/-! ## Reading a pattern -/

/-- The ranges of a class: `a-z` is a range, and any other character stands for
itself. -/
def ranges : List Char → List Range
  | low :: '-' :: high :: rest => ⟨low, high⟩ :: ranges rest
  | c :: rest => ⟨c, c⟩ :: ranges rest
  | [] => []

/-- The inside of a class whose bracket has been read: everything up to the next
closing bracket, where the first character does not count as one. -/
def classInside? : List Char → Option (List Char)
  | [] => none
  | first :: rest =>
    if rest.contains ']' then some (first :: rest.takeWhile (· ≠ ']')) else none

/-- The class whose bracket has been read, and how many characters it takes behind
that bracket. -/
def class? : List Char → Option (Token × Nat)
  | '!' :: cs => (classInside? cs).map fun inside => (.outside (ranges inside), inside.length + 2)
  | cs => (classInside? cs).map fun inside => (.within (ranges inside), inside.length + 1)

/-- The tokens of the rest of a pattern.  `position` counts the characters in front
of it, the last of which is `before`; the first `skip` characters belong to a token
that has been read. -/
def tokensFrom (position : Nat) (before : Option Char) :
    (skip : Nat) → List Char → Except Fault (List Token)
  | _, [] => .ok []
  | skip + 1, c :: cs => tokensFrom (position + 1) (some c) skip cs
  | 0, c :: cs =>
    let go (token : Token) (taken : Nat) : Except Fault (List Token) :=
      (tokensFrom (position + 1) (some c) taken cs).map (token :: ·)
    if c = '?' then go .anyChar 0
    else if c = '[' then
      match class? cs with
      | some (token, taken) => go token taken
      | none => .error ⟨position, .closedClass⟩
    else if c ≠ '*' then go (.char c) 0
    else
      match cs with
      | '*' :: '*' :: _ => .error ⟨position + 2, .starCount⟩
      | '*' :: rest =>
        if before = none ∨ before = some '/' then
          match rest with
          | [] => go .anyComponents 1
          | '/' :: _ => go .anyComponents 2
          | _ :: _ => .error ⟨position + 2, .wholeComponent⟩
        else .error ⟨position - 1, .wholeComponent⟩
      | _ => go .anySequence 0

/-- The tokens of a pattern. -/
def parse (pattern : String) : Except Fault (List Token) := tokensFrom 0 none 0 pattern.toList

/-! ## Matching -/

/-- What is left of a text behind any number of its characters. -/
def suffixes : List Char → List (List Char)
  | [] => [[]]
  | c :: cs => (c :: cs) :: suffixes cs

/-- What is left of a text behind any number of its slashes: the places where a
component may begin. -/
def behindSlashes : List Char → List (List Char)
  | [] => []
  | c :: cs => if c = '/' then cs :: behindSlashes cs else behindSlashes cs

/-- What may be left of a text behind whole components: the text itself, what
follows one of its slashes, or nothing. -/
def behindComponents (s : List Char) : List (List Char) := s :: (behindSlashes s ++ [[]])

/-- Whether a character fits a token that stands for one character. -/
def Token.fits (c : Char) : Token → Bool
  | char d => c = d
  | anyChar => true
  | within class_ => class_.any (·.contains c)
  | outside class_ => !class_.any (·.contains c)
  | anySequence => false
  | anyComponents => false

/-- Whether tokens match a whole text. -/
def matchAll : List Token → List Char → Bool
  | [], s => s.isEmpty
  | .anySequence :: ts, s => (suffixes s).any (matchAll ts)
  | .anyComponents :: ts, s => (behindComponents s).any (matchAll ts)
  | _ :: _, [] => false
  | t :: ts, c :: cs => t.fits c && matchAll ts cs

/-! ## Verdicts on all suffixes

Trying one way after the other to divide a text among the stars of a pattern takes
too long if there are many stars.  Whether a pattern matches a text is found together
with whether it matches each suffix of the text, token by token from the last one on:
then every token looks at every character once. -/

/-- For each place of a row of verdicts, whether a verdict there or later is good. -/
def anyLater : List Bool → List Bool
  | [] => []
  | b :: bs =>
    let later := anyLater bs
    (b || later.headD false) :: later

/-- For each suffix of a text, whether the verdict behind one of its slashes is good,
or the one at the end. -/
def anyBehindSlash : List Char → List Bool → List Bool
  | c :: cs, _ :: rest =>
    let later := anyBehindSlash cs rest
    ((c = '/' && rest.headD false) || later.headD false) :: later
  | _, rest => rest

/-- For each suffix of a text, whether its first character satisfies `p` and the
verdict behind that character is good. -/
def nextFits (p : Char → Bool) : List Char → List Bool → List Bool
  | c :: cs, _ :: rest => (p c && rest.headD false) :: nextFits p cs rest
  | _, _ => [false]

/-- The verdicts on all suffixes of a text with one more token in front. -/
def Token.verdicts (s : List Char) (rest : List Bool) : Token → List Bool
  | anySequence => anyLater rest
  | anyComponents => rest.zipWith (· || ·) (anyBehindSlash s rest)
  | t => nextFits (fun c => t.fits c) s rest

/-- For each suffix of a text, the longest first, whether tokens match it. -/
def verdicts : List Token → List Char → List Bool
  | [], s => (suffixes s).map List.isEmpty
  | t :: ts, s => t.verdicts s (verdicts ts s)

/-- The first suffix of a text is the text. -/
theorem suffixes_eq_cons (s : List Char) : suffixes s = s :: (suffixes s).tail := by
  cases s <;> rfl

/-- The first verdict is the one on the whole text. -/
theorem headD_map_suffixes (f : List Char → Bool) (s : List Char) :
    ((suffixes s).map f).headD false = f s := by
  rw [suffixes_eq_cons]
  rfl

theorem anyLater_map (f : List Char → Bool) (s : List Char) :
    anyLater ((suffixes s).map f) = (suffixes s).map fun r => (suffixes r).any f := by
  induction s with
  | nil => simp [suffixes, anyLater]
  | cons c cs ih =>
    simp only [suffixes, List.map_cons, anyLater, ih, List.any_cons]
    rw [headD_map_suffixes]

theorem anyBehindSlash_map (f : List Char → Bool) (s : List Char) :
    anyBehindSlash s ((suffixes s).map f)
      = (suffixes s).map fun r => (behindSlashes r ++ [[]]).any f := by
  induction s with
  | nil => simp [suffixes, anyBehindSlash, behindSlashes]
  | cons c cs ih =>
    simp only [suffixes, List.map_cons, anyBehindSlash, ih, headD_map_suffixes]
    by_cases h : c = '/' <;> simp [behindSlashes, h]

theorem nextFits_map (p : Char → Bool) (f : List Char → Bool) (s : List Char) :
    nextFits p s ((suffixes s).map f)
      = (suffixes s).map fun r => match r with
        | [] => false
        | c :: cs => p c && f cs := by
  induction s with
  | nil => simp [suffixes, nextFits]
  | cons c cs ih => simp only [suffixes, List.map_cons, nextFits, ih, headD_map_suffixes]

/-- The verdicts are the answers of `matchAll` on the suffixes. -/
theorem verdicts_eq_map (ts : List Token) (s : List Char) :
    verdicts ts s = (suffixes s).map (matchAll ts) := by
  induction ts with
  | nil => simp only [verdicts]; congr
  | cons t ts ih =>
    have single (h : ∀ r, matchAll (t :: ts) r = match r with
        | [] => false
        | c :: cs => t.fits c && matchAll ts cs) :
        nextFits (fun c => t.fits c) s (verdicts ts s)
          = (suffixes s).map (matchAll (t :: ts)) := by
      rw [ih, nextFits_map]
      exact List.map_congr_left fun r _ => (h r).symm
    cases t with
    | anySequence =>
      simp only [verdicts, Token.verdicts, ih, anyLater_map]
      exact List.map_congr_left fun r _ => by rw [matchAll]
    | anyComponents =>
      simp only [verdicts, Token.verdicts, ih, anyBehindSlash_map, List.zipWith_map,
        List.zipWith_self]
      exact List.map_congr_left fun r _ => by rw [matchAll, behindComponents, List.any_cons]
    | char d => exact single fun r => by cases r <;> rfl
    | anyChar => exact single fun r => by cases r <;> rfl
    | within class_ => exact single fun r => by cases r <;> rfl
    | outside class_ => exact single fun r => by cases r <;> rfl

/-- Whether tokens match a whole text, found with the verdicts on its suffixes. -/
def isMatch (ts : List Token) (s : List Char) : Bool := (verdicts ts s).headD false

theorem isMatch_eq_matchAll (ts : List Token) (s : List Char) : isMatch ts s = matchAll ts s := by
  rw [isMatch, verdicts_eq_map, headD_map_suffixes]

end Glob
end AggregateAudit
