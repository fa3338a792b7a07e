import AggregateAudit.Command

/-!
# The program

The outer layer: it copies what a command may look at from the disk into a file
tree, runs the command on it, and prints what the command leaves behind.  Of the
files it meets it reads those that can matter: sources, ignore files and
configurations.  The others are kept as empty files.  Names are copied as texts, which is
how the disk is seen from here.
-/

namespace AggregateAudit
namespace Program

/-- Whether the content of a file can matter. -/
def matters (name : String) : Bool :=
  isSourceFile name || name.endsWith ".toml" || name.endsWith "ignore" || name = "exclude"
    || name = Ignore.repositoryMark.display || name = Ignore.sharedName.display

/-- The location of an absolute path without links. -/
def locationOf (path : Path) : List Path := (FileTree.pieces path).filter (· ≠ "")

/-- A file on the disk. -/
def fileOf (file : IO.FS.DirEntry) : IO Entry := do
  try
    return .file (← IO.FS.readBinFile file.path)
  catch
    | .permissionDenied .. => return .barred .permission
    | _ => return .barred .device

/-- A file on the disk, with its content if that can matter. -/
def entryOfFile (file : IO.FS.DirEntry) : IO Entry :=
  if matters file.fileName then fileOf file else pure (.file .empty)

/-- What a name in a directory stands for.  Links to files are copied as files, and
no other links are followed. -/
partial def entryOf (path name : String) : IO Entry := do
  let here : IO.FS.DirEntry := { root := path, fileName := name }
  let info ← here.path.symlinkMetadata
  match info.type with
  | .dir =>
    let names ← here.path.readDir
    let entries ← names.toList.mapM fun e => do
      return (Path.ofString e.fileName, ← entryOf here.path.toString e.fileName)
    return .directory entries
  | .symlink =>
    let leadsToFile ← do
      if ← here.path.pathExists then pure !(← here.path.isDir) else pure false
    if leadsToFile then entryOfFile here else return .link name
  | _ => entryOfFile here

/-- Copies what an absolute path leads to into a tree, without what is below it, and
answers with the path that it leads to without links. -/
partial def trace (t : FileTree) (here : Path) (pieces : List Path) :
    IO (FileTree × Path) := do
  match pieces with
  | [] => return (t, here)
  | piece :: rest =>
    if piece = "" || piece = "." then trace t here rest
    else if piece = ".." then
      trace t (FileTree.pathOf (locationOf here).dropLast) rest
    else
      let entry : IO.FS.DirEntry := { root := here.display, fileName := piece.display }
      unless ← entry.path.pathExists do return (t, Path.join here piece)
      match (← entry.path.symlinkMetadata).type with
      | .symlink =>
        let real : Path := (← IO.FS.realPath entry.path).toString
        let t := t.insert (locationOf (Path.join here piece)) (.link real)
        let (t, real) ← trace t "/" (FileTree.pieces real)
        trace t real rest
      | .dir =>
        let path := Path.join here piece
        trace (t.makeDirectory (locationOf path)) path rest
      | _ =>
        let path := Path.join here piece
        trace (t.insert (locationOf path) (← fileOf entry)) path rest

/-- Copies everything at and below an absolute path into a tree. -/
def copy (t : FileTree) (path : Path) : IO FileTree := do
  let (t, real) ← trace t "/" (FileTree.pieces path)
  match t.entryAt? (locationOf real) with
  | some (.directory _) =>
    let location := locationOf real
    match location.reverse with
    | [] => return t
    | name :: above =>
      return t.insert location (← entryOf (FileTree.pathOf above.reverse).display name.display)
  | _ => return t

/-- Copies what a path leads to into a tree, seen from a directory. -/
def visit (cwd : Path) (t : FileTree) (path : Path) : IO FileTree := do
  return (← trace t "/" (FileTree.pieces (Path.join cwd path))).1

/-- Copies the ignore file of the repository of a directory into a tree, and the files
that lead to it. -/
def visitRepository (cwd : Path) (t : FileTree) (directory : Path) : IO FileTree := do
  let mark := Path.join directory Ignore.repositoryMark
  let t ← visit cwd t mark
  let t ←
    match t.readBytes cwd mark with
    | .ok content =>
      match Ignore.namedDirectory mark content with
      | .ok own => visit cwd t (Path.join own Ignore.sharedName)
      | .error _ => pure t
    | .error _ => pure t
  match Ignore.excludesPath t cwd directory with
  | .ok path => visit cwd t path
  | .error _ => return t

/-- The directories at and below an entry that hold a file marking a repository. -/
partial def marked (path : Path) : Entry → List Path
  | .directory entries =>
    let here :=
      match Entry.lookup Ignore.repositoryMark entries with
      | some (.file _) => [path]
      | _ => []
    here ++ entries.flatMap fun (name, entry) => marked (Path.join path name) entry
  | _ => []

/-- Copies the ignore files of the directories above a path into a tree. -/
def copyIgnoreFiles (cwd : Path) (t : FileTree) (path : Path) : IO FileTree := do
  let (t, real) ← trace t "/" (FileTree.pieces path)
  let above := (List.range (locationOf real).length).map fun n =>
    FileTree.pathOf ((locationOf real).take n)
  above.foldlM
    (fun t directory => do
      let t ← visit cwd t (Path.join directory Ignore.plainName)
      let t ← visit cwd t (Path.join directory Ignore.gitName)
      visitRepository cwd t directory)
    t

/-- The workspace that a command line is run in. -/
def workspace (arguments : List String) : IO Workspace := do
  let directory : Path := (← IO.currentDir).toString
  let setting (name : String) : IO (Option Path) := do
    return (← IO.getEnv name).map Path.ofString
  let home ← setting "HOME"
  let configDirectory ← setting "AGGREGATE_LINT_CONFIG_DIR"
  let settingsDirectory ← setting "XDG_CONFIG_HOME"
  let gitConfig ← setting "GIT_CONFIG_GLOBAL"
  let systemGitConfig ← setting "GIT_CONFIG_SYSTEM"
  let w : Workspace :=
    { directory, home, configDirectory, settingsDirectory, gitConfig, systemGitConfig }
  let mut t ← visit directory {} Command.initPath
  match Command.readArguments arguments with
  | .ok { request := .check o, config, .. } =>
    let path := w.absolute o.path
    t ← copyIgnoreFiles directory t path
    t ← copy t path
    let below :=
      match t.locate directory path, t.entryOf directory path with
      | .ok location, .ok entry => marked (FileTree.pathOf location) entry
      | _, _ => []
    t ← below.foldlM (visitRepository directory) t
    t ← (Ignore.configPaths w).foldlM (visit directory) t
    t ← (Ignore.userPath? { w with tree := t }).toList.foldlM (visit directory) t
    let candidates := (ConfigSource.candidates w o.path).filterMap ConfigSource.path?
    t ← (config.toList ++ candidates).foldlM (visit directory) t
  | _ => pure ()
  return { w with tree := t }

end Program
end AggregateAudit

open AggregateAudit in
/-- Runs the program. -/
def main (arguments : List String) : IO UInt32 := do
  let before ← Program.workspace arguments
  let o := Command.run arguments before
  for l in o.log do
    IO.eprintln l.line
  if let some f := o.failure then
    IO.eprintln ("Error: " ++ f.message)
  if let .ok { request := .init _, .. } := Command.readArguments arguments then
    if let (true, .ok text) := (o.failure.isNone, o.workspace.readText Command.initPath) then
      IO.FS.writeFile Command.initPath.display text
  IO.print o.printed
  return o.exit.toUInt32
