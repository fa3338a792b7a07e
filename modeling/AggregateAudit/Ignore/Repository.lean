import AggregateAudit.Ignore.File

/-!
# The excludes of a repository

A directory that holds `.git` is the work directory of a repository, and the
repository has an ignore file of its own.  If `.git` is a directory the file is in
it.  If it is a file its first line names the directory of this work directory, and
the first line of a file there names the directory that all work directories of the
repository share, which holds the ignore file.  A shared directory whose name begins
with a point is seen from the directory that names it.

Names that are not absolute are seen from the working directory.
-/

namespace AggregateAudit
namespace Ignore

/-- The name of what marks a work directory. -/
def repositoryMark : Path := ".git"

/-- The name of the ignore file of a repository in its directory. -/
def excludesName : Path := "info/exclude"

/-- The name of the file that names the shared directory. -/
def sharedName : Path := "commondir"

/-- What the first line of the file of a work directory begins with. -/
def directoryLabel : List Char := "gitdir: ".toList

/-- Why the directory of a repository cannot be told. -/
inductive RepositoryFault where
  /-- A file does not say what it should; nobody is told. -/
  | unnamed
  /-- The file at a path cannot be read. -/
  | unreadable (path : Path) (fault : FileFault)
  deriving DecidableEq

def RepositoryFault.messages : RepositoryFault → List String
  | unnamed => []
  | unreadable path fault => [path.display ++ ": " ++ fault.message]

/-- The first line of a file. -/
def firstLine (path : Path) (content : ByteArray) : Except RepositoryFault (List Char) :=
  match byteLines (content.data.toList.splitOn 10) with
  | [] => .error .unnamed
  | line :: _ =>
    match Utf8.decode? line with
    | some text => .ok text.toList
    | none => .error (.unreadable path .notText)

/-- The directory that a file marking a work directory names. -/
def namedDirectory (path : Path) (content : ByteArray) : Except RepositoryFault Path := do
  let line ← firstLine path content
  if directoryLabel.isPrefixOf line then .ok (String.ofList (line.drop directoryLabel.length))
  else .error .unnamed

/-- The shared directory that the directory of a work directory names. -/
def sharedDirectory (t : FileTree) (cwd own : Path) : Except RepositoryFault Path :=
  let path := Path.join own sharedName
  match t.entryOf cwd path with
  | .error _ => .error .unnamed
  | .ok (.file content) => do
    let line ← firstLine path content
    let name : Path := String.ofList line
    .ok (if line.head? = some '.' then Path.join own name else name)
  | .ok (.barred _) => .error .unnamed
  | .ok _ => .error (.unreadable path .isDirectory)

/-- The directory of the repository that a directory is a work directory of. -/
def repositoryDirectory (t : FileTree) (cwd directory : Path) : Except RepositoryFault Path :=
  let mark := Path.join directory repositoryMark
  match t.entryOf cwd mark with
  | .ok (.file content) => do
    let own ← namedDirectory mark content
    sharedDirectory t cwd own
  | .ok (.barred why) => .error (.unreadable mark (.refused why))
  | _ => .ok mark

/-- The path of the ignore file of the repository that a directory is a work
directory of. -/
def excludesPath (t : FileTree) (cwd directory : Path) : Except RepositoryFault Path :=
  (repositoryDirectory t cwd directory).map fun d => Path.join d excludesName

end Ignore
end AggregateAudit
