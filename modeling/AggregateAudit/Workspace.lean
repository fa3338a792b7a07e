import AggregateAudit.FileTree

/-!
# Workspaces

A workspace is what a command sees of the machine it runs on: the file tree, the
directory it was started in, the variables that say where the user's own settings are,
and what the system grants.  Paths that are not absolute are seen from the directory, and
the system may be unable to tell its path.
-/

namespace AggregateAudit

/-- What a command sees of its machine. -/
structure Workspace where
  tree : FileTree := {}
  /-- The absolute path of the working directory. -/
  directory : Path := "/"
  /-- Why the system does not tell that path, if it does not. -/
  directoryFault : Option FileFault := none
  /-- Why the system does not start a number of workers, if it does not. -/
  workerFault : Nat → Option String := fun _ => none
  /-- The home directory of the user. -/
  home : Option Path := none
  /-- The directory of the user's own configuration, if it was set. -/
  configDirectory : Option Path := none
  /-- The directory of the user's settings of all programs, if it was set. -/
  settingsDirectory : Option Path := none
  /-- The user's configuration file of git, if it was set. -/
  gitConfig : Option Path := none
  /-- The configuration file of git for all users of the machine, if it was set. -/
  systemGitConfig : Option Path := none

namespace Workspace

/-- A path seen from the working directory. -/
def absolute (w : Workspace) (path : Path) : Path := Path.join w.directory path

/-- Whether there is a file at a path. -/
def isFile (w : Workspace) (path : Path) : Bool := w.tree.isFile w.directory path

/-- Whether there is anything at a path. -/
def pathExists (w : Workspace) (path : Path) : Bool := w.tree.pathExists w.directory path

/-- The bytes of the file at a path. -/
def readBytes (w : Workspace) (path : Path) : Except FileFault ByteArray :=
  w.tree.readBytes w.directory path

/-- The text of the file at a path. -/
def readText (w : Workspace) (path : Path) : Except FileFault String :=
  w.tree.readText w.directory path

/-- The workspace with a file at a path. -/
def writeText (w : Workspace) (path : Path) (text : String) : Except FileFault Workspace :=
  (w.tree.write w.directory path text.toUTF8).map fun t => { w with tree := t }

end Workspace
end AggregateAudit
