import AggregateAudit.Exclude.Glob
import AggregateAudit.Path

/-!
# Excluding files

An exclude pattern keeps files out of an analysis.  It is a glob for the file's
path below the analysed directory, and it is also a plain fragment: what is left of
it without its `**`s excludes every path in which it occurs.  The path is looked at
with a slash in front, so that `/bin/` finds the directory `bin` at the top too,
and the glob is tried with and without that slash.
-/

namespace AggregateAudit

/-- A pattern that excludes files. -/
structure Exclusion where
  glob : List Glob.Token
  /-- The text that excludes every path in which it occurs, unless it is empty. -/
  fragment : List Char
  deriving DecidableEq

namespace Exclusion

/-- A text without its pairs of stars. -/
def withoutDoubleStars : List Char → List Char
  | '*' :: '*' :: rest => withoutDoubleStars rest
  | c :: rest => c :: withoutDoubleStars rest
  | [] => []

/-- The exclusion that a pattern describes. -/
def parse (pattern : String) : Except Glob.Fault Exclusion :=
  (Glob.parse pattern).map fun glob => ⟨glob, withoutDoubleStars pattern.toList⟩

/-- The exclusions that a row of patterns describes, or the fault of the first
pattern that has one. -/
def parseAll : List String → Except Glob.Fault (List Exclusion)
  | [] => .ok []
  | p :: ps => do
    let e ← parse p
    let es ← parseAll ps
    .ok (e :: es)

/-- Whether an exclusion matches a path that is written with a slash in front. -/
def matchesSlashed (e : Exclusion) (path : List Char) : Bool :=
  Glob.isMatch e.glob path
    || Glob.isMatch e.glob (path.dropWhile (· = '/'))
    || (!e.fragment.isEmpty && Text.occurs e.fragment path)

/-- A path below the analysed directory as exclusions see it: as it is shown, with a
slash in front, and with slashes for backslashes. -/
def slashed (path : Path) : List Char :=
  '/' :: path.display.toList.map fun c => if c = '\\' then '/' else c

/-- Whether an exclusion matches a path below the analysed directory. -/
def excludes (e : Exclusion) (path : Path) : Bool := e.matchesSlashed (slashed path)

end Exclusion
end AggregateAudit
