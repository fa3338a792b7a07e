import AggregateAudit.Path

/-!
# File trees

A file tree is everything below the root directory: files, directories and
symbolic links.  The library reads and changes it as a value, so an analysis is a
function of the tree, and two runs can be compared on two trees.

A *location* is a row of names that leads from the root down through directories.
A path is only a description of a location, seen from a directory: it may hold `.` and
`..`, repeated slashes, and names of links, which `FileTree.resolve` follows.  Names are
looked up in the order of the entries, and the first one counts.

That a file is there does not mean that it can be read.  The system may refuse to open
it, and what it holds need not be text.
-/

namespace AggregateAudit

/-- Why the system does not open a file. -/
inductive Refusal where
  /-- Whoever asks may not read it. -/
  | permission
  /-- The device that holds it fails. -/
  | device
  deriving DecidableEq

def Refusal.message : Refusal → String
  | permission => "Permission denied (os error 13)"
  | device => "Input/output error (os error 5)"

/-- What a name in a directory stands for. -/
inductive Entry where
  | file (content : ByteArray)
  /-- A file that cannot be opened. -/
  | barred (why : Refusal)
  /-- A symbolic link and the path it holds. -/
  | link (target : Path)
  | directory (entries : List (Path × Entry))

/-- The files, links and directories below the root directory. -/
structure FileTree where
  entries : List (Path × Entry) := []

/-- Why a path cannot be read or written. -/
inductive FileFault where
  | notFound
  | notDirectory
  | isDirectory
  | nameTooLong
  | tooManyLinks
  /-- The path holds the character that ends texts for the system. -/
  | nulInPath
  /-- The file cannot be opened. -/
  | refused (why : Refusal)
  /-- The bytes of the file are no UTF-8. -/
  | notText
  deriving DecidableEq

def FileFault.message : FileFault → String
  | notFound => "No such file or directory (os error 2)"
  | notDirectory => "Not a directory (os error 20)"
  | isDirectory => "Is a directory (os error 21)"
  | nameTooLong => "File name too long (os error 36)"
  | tooManyLinks => "Too many levels of symbolic links (os error 40)"
  | nulInPath => "file name contained an unexpected NUL byte"
  | refused why => why.message
  | notText => "stream did not contain valid UTF-8"

namespace Entry

def isDirectory : Entry → Bool
  | directory _ => true
  | _ => false

/-- The entry that a name stands for in a row of entries. -/
def lookup (name : Path) : List (Path × Entry) → Option Entry
  | [] => none
  | (n, e) :: rest => if n = name then some e else lookup name rest

/-- A row of entries in which a name stands for the given entry.  A name that is new
comes last. -/
def insert (name : Path) (entry : Entry) : List (Path × Entry) → List (Path × Entry)
  | [] => [(name, entry)]
  | (n, e) :: rest => if n = name then (n, entry) :: rest else (n, e) :: insert name entry rest

theorem insert_nil (name : Path) (entry : Entry) : insert name entry [] = [(name, entry)] := rfl

theorem insert_cons (name n : Path) (entry e : Entry) (rest : List (Path × Entry)) :
    insert name entry ((n, e) :: rest)
      = if n = name then (n, entry) :: rest else (n, e) :: insert name entry rest := rfl

/-- The entries of a directory; anything else has none. -/
def entries : Option Entry → List (Path × Entry)
  | some (directory es) => es
  | _ => []

end Entry

namespace FileTree

/-! ## Locations -/

/-- The entry at a location below a row of entries. -/
def lookupAll : List (Path × Entry) → List Path → Option Entry
  | es, [] => some (.directory es)
  | es, [name] => Entry.lookup name es
  | es, name :: rest =>
    match Entry.lookup name es with
    | some (.directory below) => lookupAll below rest
    | _ => none

/-- The entry at a location. -/
def entryAt? (t : FileTree) (location : List Path) : Option Entry :=
  lookupAll t.entries location

/-- A row of entries with the given entry at a location below it.  Directories are
made on the way where there are none. -/
def insertAll : List (Path × Entry) → List Path → Entry → List (Path × Entry)
  | es, [], _ => es
  | es, [name], entry => Entry.insert name entry es
  | es, name :: rest, entry =>
    Entry.insert name
      (.directory (insertAll (Entry.entries (Entry.lookup name es)) rest entry)) es

/-- The tree with an entry at a location.  Directories are made on the way where
there are none. -/
def insert (t : FileTree) (location : List Path) (entry : Entry) : FileTree :=
  ⟨insertAll t.entries location entry⟩

/-- The tree with a directory at a location, and unchanged if there is one. -/
def makeDirectory (t : FileTree) (location : List Path) : FileTree :=
  match t.entryAt? location with
  | some (.directory _) => t
  | _ => t.insert location (.directory [])

/-! ## Paths -/

/-- The path of a location. -/
def pathOf (location : List Path) : Path :=
  if location.isEmpty then "/" else ⟨location.flatMap fun name => Path.slash :: name.bytes⟩

/-- What a path leads to. -/
inductive Place where
  /-- A location where there is an entry that is no link. -/
  | existing (location : List Path)
  /-- A location in an existing directory where there is no entry. -/
  | missing (location : List Path)
  deriving DecidableEq

/-- How many links a path may lead through. -/
def linkLimit : Nat := 40

/-- How many bytes a name may have. -/
def nameLimit : Nat := 255

/-- How many bytes a path may have. -/
def pathLimit : Nat := 4095

/-- The pieces of a path between its slashes. -/
def pieces (path : Path) : List Path := (path.bytes.splitOn Path.slash).map Path.mk

/-- Where a row of pieces leads, seen from the directory at a location, if `jump` says
where a row of pieces leads behind a link.  Every piece, even an empty one, must be
looked up in a directory. -/
def followRow (t : FileTree) (jump : List Path → List Path → Except FileFault Place)
    (here : List Path) : (row : List Path) → Except FileFault Place
  | [] => .ok (.existing here)
  | piece :: rest =>
    match t.entryAt? here with
    | none => .error .notFound
    | some (.file _) => .error .notDirectory
    | some (.barred _) => .error .notDirectory
    | some (.link _) => .error .notDirectory
    | some (.directory es) =>
      if piece = "" ∨ piece = "." then followRow t jump here rest
      else if piece = ".." then followRow t jump here.dropLast rest
      else if nameLimit < piece.bytes.length then .error .nameTooLong
      else
        match Entry.lookup piece es with
        | none => if rest.isEmpty then .ok (.missing (here ++ [piece])) else .error .notFound
        | some (.link target) =>
          jump (if Path.isAbsolute target then [] else here) (pieces target ++ rest)
        | some _ => followRow t jump (here ++ [piece]) rest

/-- Where a row of pieces leads, seen from the directory at a location, through at
most `links` links. -/
def follow (t : FileTree) (links : Nat) : (here row : List Path) → Except FileFault Place :=
  match links with
  | 0 => t.followRow fun _ _ => .error .tooManyLinks
  | links + 1 => t.followRow (t.follow links)

/-- Where a path leads, seen from a directory.  What is wrong with the path itself is
found before anything is looked up. -/
def resolve (t : FileTree) (directory path : Path) : Except FileFault Place :=
  if path.bytes.contains 0 then .error .nulInPath
  else if pathLimit < path.bytes.length then .error .nameTooLong
  else follow t linkLimit [] (pieces (Path.join directory path))

/-- The location of what is at a path. -/
def locate (t : FileTree) (directory path : Path) : Except FileFault (List Path) :=
  match t.resolve directory path with
  | .ok (.existing location) => .ok location
  | .ok (.missing _) => .error .notFound
  | .error f => .error f

/-- What is at a path. -/
def entryOf (t : FileTree) (directory path : Path) : Except FileFault Entry :=
  match t.locate directory path with
  | .error f => .error f
  | .ok location =>
    match t.entryAt? location with
    | some e => .ok e
    | none => .error .notFound

/-- Whether there is anything at a path. -/
def pathExists (t : FileTree) (directory path : Path) : Bool :=
  match t.entryOf directory path with
  | .ok _ => true
  | .error _ => false

/-- Whether there is a file at a path. -/
def isFile (t : FileTree) (directory path : Path) : Bool :=
  match t.entryOf directory path with
  | .ok (.file _) => true
  | .ok (.barred _) => true
  | _ => false

/-! ## Reading and writing -/

/-- The bytes of the file at a path. -/
def readBytes (t : FileTree) (directory path : Path) : Except FileFault ByteArray :=
  match t.entryOf directory path with
  | .ok (.file content) => .ok content
  | .ok (.barred why) => .error (.refused why)
  | .ok _ => .error .isDirectory
  | .error f => .error f

/-- The text of the file at a path. -/
def readText (t : FileTree) (directory path : Path) : Except FileFault String :=
  match t.readBytes directory path with
  | .error f => .error f
  | .ok bytes =>
    match String.fromUTF8? bytes with
    | some text => .ok text
    | none => .error .notText

/-- The tree with a file at a path, through links to where they lead. -/
def write (t : FileTree) (directory path : Path) (content : ByteArray) :
    Except FileFault FileTree :=
  match t.resolve directory path with
  | .error f => .error f
  | .ok (.missing location) => .ok (t.insert location (.file content))
  | .ok (.existing location) =>
    match t.entryAt? location with
    | some (.file _) => .ok (t.insert location (.file content))
    | some (.barred why) => .error (.refused why)
    | _ => .error .isDirectory

end FileTree
end AggregateAudit
