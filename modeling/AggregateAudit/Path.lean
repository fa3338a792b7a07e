import AggregateAudit.Text.Quoted
import AggregateAudit.Text.Utf8

/-!
# Paths

A path is a row of bytes, as the system keeps it, and the name of a file is a short path.
The bytes need not be text: what is shown of a path is made readable first, and where a
path must be text it may turn out to be none.

Paths are compared, cut and joined by their components: the pieces between slashes.
Repeated slashes, slashes at the end and `.` between other components say nothing and
vanish; a leading slash, a leading `.` and every `..` stay.  So two rows of bytes can be
the same path, and a path sorts before its siblings that merely share its letters:
`a/b.cs` comes before `a.cs`.
-/

namespace AggregateAudit

/-- A path, or a name in a directory. -/
@[ext]
structure Path where
  bytes : List UInt8
  deriving DecidableEq

namespace Path

/-- The path that is written as a text. -/
def ofString (s : String) : Path := ⟨Utf8.encode s⟩

instance : Coe String Path := ⟨ofString⟩

instance : Append Path := ⟨fun p q => ⟨p.bytes ++ q.bytes⟩⟩

@[simp] theorem bytes_append (p q : Path) : (p ++ q).bytes = p.bytes ++ q.bytes := rfl

@[simp] theorem empty_append (p : Path) : ofString "" ++ p = p := rfl

@[simp] theorem append_empty (p : Path) : p ++ ofString "" = p := Path.ext (List.append_nil _)

theorem append_assoc (p q r : Path) : p ++ q ++ r = p ++ (q ++ r) :=
  Path.ext (List.append_assoc ..)

theorem eq_empty_iff {p : Path} : p = ofString "" ↔ p.bytes = [] := Path.ext_iff

/-- The text that a path is, if it is one. -/
def text? (p : Path) : Option String := Utf8.decode? p.bytes

/-- A path as it is shown. -/
def display (p : Path) : String := Utf8.lossy p.bytes

/-- A stretch of a path between quotes: what is broken is written by the numbers of its
bytes. -/
def quotedStretch : Utf8.Stretch → List Char
  | .char c => Text.quotedChar c
  | .broken bytes => bytes.flatMap fun b => ['\\', 'x'] ++ (Text.hexDigits b.toNat).map Char.toUpper

/-- A path between quotes. -/
def quoted (p : Path) : String :=
  String.ofList ('"' :: ((Utf8.stretches p.bytes).flatMap quotedStretch ++ ['"']))

/-- The byte of a slash. -/
def slash : UInt8 := 47

@[simp] theorem bytes_slash : (ofString "/").bytes = [slash] := by decide

/-- The byte of a point. -/
def point : UInt8 := 46

@[simp] theorem bytes_point : (ofString ".").bytes = [point] := by decide

/-- One step of a path.  The order of the constructors is the order in which
components sort. -/
inductive Component where
  /-- The leading slash of an absolute path. -/
  | root
  /-- A `.` that begins a relative path. -/
  | here
  | parent
  | normal (name : List UInt8)
  deriving DecidableEq

namespace Component

/-- The component that a piece between slashes stands for; `none` if it says
nothing. -/
def ofPiece? (piece : List UInt8) : Option Component :=
  if piece = [] ∨ piece = [point] then none
  else if piece = [point, point] then some parent
  else some (normal piece)

def rank : Component → Nat
  | root => 0
  | here => 1
  | parent => 2
  | normal _ => 3

/-- The name of an ordinary component; the others have none. -/
def name : Component → List UInt8
  | normal n => n
  | _ => []

end Component

/-- The components of a path. -/
def components (p : Path) : List Component :=
  let all := p.bytes.splitOn slash
  let first :=
    match all with
    | [] => []
    | piece :: rest =>
      if piece.isEmpty && !rest.isEmpty then [Component.root]
      else if piece = [point] then [Component.here]
      else []
  first ++ all.filterMap Component.ofPiece?

/-! ## Order -/

/-- Components compare by kind, ordinary ones then by their bytes. -/
def compareComponents (a b : Component) : Ordering :=
  (compare a.rank b.rank).then (List.compareLex Ord.compare a.name b.name)

/-- Paths compare component by component. -/
def compare (a b : Path) : Ordering :=
  List.compareLex compareComponents (components a) (components b)

/-! ## Parts of a path -/

def isAbsolute (p : Path) : Bool := p.bytes.head? = some slash

/-- The name of the file that a path leads to: its last component, unless that is
the root, a `.` or a `..`. -/
def fileName? (p : Path) : Option (List UInt8) :=
  match (components p).getLast? with
  | some (.normal name) => some name
  | _ => none

/-- What follows the last point of a file name.  A point that begins the name does
not count. -/
def extensionOf? (name : List UInt8) : Option (List UInt8) :=
  let after := name.reverse.takeWhile (· ≠ point)
  let before := name.reverse.dropWhile (· ≠ point)
  match before with
  | [] => none
  | [_] => none
  | _ :: _ :: _ => some after.reverse

/-- The extension of a path. -/
def extension? (p : Path) : Option (List UInt8) := (fileName? p).bind extensionOf?

/-- What stands between a directory and a path seen from it. -/
def separator (base : Path) : Path :=
  if base = "" ∨ base.bytes.getLast? = some slash then "" else "/"

/-- A path seen from a directory: an absolute path stands for itself, any other is
appended behind a slash. -/
def join (base p : Path) : Path := if isAbsolute p then p else base ++ separator base ++ p

end Path

/-- Whether a path names a source file of the analysed language. -/
def isSourceFile (p : Path) : Bool := Path.extension? p = some (Utf8.encode "cs")

end AggregateAudit
