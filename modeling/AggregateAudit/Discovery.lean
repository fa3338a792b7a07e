import AggregateAudit.Exclude
import AggregateAudit.Ignore.Layer
import AggregateAudit.Ignore.User

/-!
# Finding source files

Starting from a root, discovery walks down through directories and collects the
source files that no ignore file hides and no exclusion matches.  Hidden names are
names like others.  Links are not followed down, except the root itself; a link to
a file counts as a file.  A root that is a file is looked at whatever the ignore
files say.

Files are named by their path below the root, which is empty if the root is the
file.  The order in which a directory lists its entries leaves no trace: what is
found is sorted.
-/

namespace AggregateAudit

/-- Where and how files are looked for. -/
structure Search where
  /-- The absolute path of the directory or file to look at. -/
  root : Path
  exclusions : List Exclusion := []
  respectGitignore : Bool := true
  /-- The working directory. -/
  cwd : Path := "/"
  /-- The user's own ignore file. -/
  userIgnore : Ignore.IgnoreFile := {}

/-- Why files cannot be looked for. -/
inductive WalkFault where
  /-- There is nothing to look at. -/
  | root (path : Path) (fault : FileFault)
  /-- Ignore files above the root cannot be read. -/
  | ignoreFiles (messages : List String)
  deriving DecidableEq

def WalkFault.message : WalkFault → String
  | root path fault =>
    path.display ++ ": IO error for operation on " ++ path.display ++ ": " ++ fault.message
  | ignoreFiles messages => String.intercalate "\n" messages

/-- The files that were found: those to analyse and those that are excluded. -/
structure Found where
  files : List Path
  excluded : List Path
  deriving DecidableEq

namespace Discovery

/-- The path of an entry of a directory, below the root. -/
def below (directory name : Path) : Path :=
  if directory = "" then name else directory ++ "/" ++ name

mutual

/-- The paths of source files at and below an entry of the directory at a location, given
that directory's path below the root, its layers of ignore files, and what the user's own
ignore file says about a path below the root.  Where a link leads is not looked at. -/
def walk (scope : Ignore.Scope) (user : Bool → Path → Option Ignore.Verdict)
    (location : List Path) (directory : Path) (layers : List Ignore.Layer) (name : Path) :
    Entry → List Path
  | .file _ | .barred _ | .link _ =>
    let path := below directory name
    if !Ignore.isIgnored layers false name (user false path) && isSourceFile name then [path]
    else []
  | .directory entries =>
    let path := below directory name
    if Ignore.isIgnored layers true name (user true path) then []
    else
      let inside := location ++ [name]
      walkAll scope user inside path (scope.layer inside :: layers) entries

/-- The paths of source files at and below a row of entries. -/
def walkAll (scope : Ignore.Scope) (user : Bool → Path → Option Ignore.Verdict)
    (location : List Path) (directory : Path) (layers : List Ignore.Layer) :
    List (Path × Entry) → List Path
  | [] => []
  | (name, entry) :: rest =>
    walk scope user location directory layers name entry
      ++ walkAll scope user location directory layers rest

end

/-- Whether the first path sorts before the second one, or with it. -/
def mayPrecede (a b : Path) : Bool := Path.compare a b != .gt

end Discovery

namespace Search

/-- The full path of a file that was found. -/
def fullPath (s : Search) (path : Path) : Path :=
  if path = "" then s.root else Path.join s.root path

/-- The source files that no ignore file hides, by their path below the root. -/
def candidates (s : Search) (t : FileTree) : Except WalkFault (List Path) :=
  match t.locate s.cwd s.root with
  | .error f => .error (.root s.root f)
  | .ok location =>
    match t.entryAt? location with
    | some (.directory entries) =>
      let scope : Ignore.Scope := ⟨t, s.cwd, s.respectGitignore⟩
      let user (isDirectory : Bool) (path : Path) : Option Ignore.Verdict :=
        Ignore.userVerdict s.userIgnore s.cwd isDirectory (s.fullPath path)
      match scope.messagesAbove location with
      | [] =>
        .ok ((Discovery.walkAll scope user location ""
          (scope.layer location :: scope.layersAbove location) entries).filter fun path =>
            t.isFile s.cwd (s.fullPath path))
      | messages => .error (.ignoreFiles messages)
    | _ => .ok (if isSourceFile s.root then [""] else [])

/-- Whether some exclusion matches a path below the root. -/
def isExcluded (s : Search) (path : Path) : Bool := s.exclusions.any (·.excludes path)

/-- The files to analyse, sorted, and those that are excluded. -/
def run (s : Search) (t : FileTree) : Except WalkFault Found :=
  (s.candidates t).map fun paths =>
    { files := (paths.filter fun p => !s.isExcluded p).mergeSort Discovery.mayPrecede
      excluded := paths.filter s.isExcluded }

end Search
end AggregateAudit
