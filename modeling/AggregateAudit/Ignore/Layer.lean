import AggregateAudit.Ignore.Repository

/-!
# Layers of ignore files

Every directory from the root of the file tree down to the one that holds a path
has a layer of ignore files, and each file sees the path from its own directory.
There are three kinds of ignore file.  Of one kind the deepest file that has a
verdict decides, and between the kinds `.ignore` decides before `.gitignore`, and
that before the excludes of a repository.  What none of them decides is left to the
user's own file.
-/

namespace AggregateAudit
namespace Ignore

/-- The ignore files of one directory. -/
structure Layer where
  /-- The name of the directory. -/
  name : Path
  plain : IgnoreFile := {}
  git : IgnoreFile := {}
  repository : IgnoreFile := {}

/-- The names of the ignore files that stand in their directory. -/
def plainName : Path := ".ignore"

def gitName : Path := ".gitignore"

/-- How ignore files are looked for. -/
structure Scope where
  tree : FileTree
  /-- The working directory, from which names in repositories are seen. -/
  cwd : Path
  /-- Whether `.gitignore` counts. -/
  respectGit : Bool

namespace Scope

/-- The ignore file at a path; one that cannot be read is empty. -/
def read (s : Scope) (path : Path) : IgnoreFile :=
  match s.tree.readBytes s.cwd path with
  | .ok bytes => .ofBytes bytes
  | .error _ => {}

/-- The layer of the directory at a location. -/
def layer (s : Scope) (location : List Path) : Layer :=
  let directory := FileTree.pathOf location
  { name := location.getLastD ""
    plain := s.read (Path.join directory plainName)
    git := if s.respectGit then s.read (Path.join directory gitName) else {}
    repository :=
      match excludesPath s.tree s.cwd directory with
      | .ok path => s.read path
      | .error _ => {} }

/-- The layers of all directories above a location, the deepest one first. -/
def layersAbove (s : Scope) (location : List Path) : List Layer :=
  (List.range location.length).reverse.map fun n => s.layer (location.take n)

end Scope

/-! ## Verdicts -/

/-- The verdict of the deepest file of one kind that has one.  `path` is the path
below the first layer's directory. -/
def verdictOf (kind : Layer → IgnoreFile) (isDirectory : Bool) :
    (layers : List Layer) → (path : List UInt8) → Option Verdict
  | [], _ => none
  | layer :: outer, path =>
    match (kind layer).verdict isDirectory path with
    | some v => some v
    | none => verdictOf kind isDirectory outer (layer.name.bytes ++ Path.slash :: path)

/-- Whether a path is ignored, given the layers from its directory upwards, its name in
that directory, and what the user's own file says. -/
def isIgnored (layers : List Layer) (isDirectory : Bool) (name : Path)
    (last : Option Verdict) : Bool :=
  let verdict (kind : Layer → IgnoreFile) : Option Verdict :=
    verdictOf kind isDirectory layers name.bytes
  ((verdict Layer.plain).or ((verdict Layer.git).or ((verdict Layer.repository).or last)))
    = some Verdict.ignored

/-! ## Faults -/

/-- The faults of an ignore file as lines of text.  A file of which only the end is
no text has none. -/
def IgnoreFile.messages (path : Path) (f : IgnoreFile) : List String :=
  match f.faults with
  | [(_, .notText)] => []
  | faults =>
    faults.map fun (n, fault) =>
      path.display ++ ": line " ++ toString n ++ ": " ++ fault.message

/-- The faults of the ignore files of the directory at a location. -/
def Scope.messages (s : Scope) (location : List Path) : List String :=
  let directory := FileTree.pathOf location
  let l := s.layer location
  l.plain.messages (Path.join directory plainName)
    ++ l.git.messages (Path.join directory gitName)
    ++ (match excludesPath s.tree s.cwd directory with
      | .ok path => l.repository.messages path
      | .error f => f.messages)

/-- The faults of the ignore files above a location, from the top down. -/
def Scope.messagesAbove (s : Scope) (location : List Path) : List String :=
  (List.range location.length).flatMap fun n => s.messages (location.take n)

end Ignore
end AggregateAudit
