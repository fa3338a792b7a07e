import AggregateAudit.FileTree
import AggregateAudit.Ignore.Pattern
import AggregateAudit.Text.Search

/-!
# Ignore files

An ignore file holds one pattern a line.  Of the lines that match a path the last
one decides: it ignores the path, or, with a `!` in front, keeps it.  A pattern
with a slash in it speaks about the whole path below the file's directory, any other
pattern about a name at any depth, and a pattern that ends with a slash only about
directories.

A line that cannot be read is left out, and its fault is kept, with the number of
the line.
-/

namespace AggregateAudit
namespace Ignore

/-- What an ignore file says about a path. -/
inductive Verdict where
  | ignored
  | kept
  deriving DecidableEq

/-- A line of an ignore file. -/
structure Line where
  pattern : List Token
  verdict : Verdict
  directoriesOnly : Bool

/-- Why a line is left out. -/
inductive LineFault where
  /-- The bytes of the line are no text; nothing behind it is read. -/
  | notText
  | badPattern (line : String) (fault : Fault)
  deriving DecidableEq

def LineFault.message : LineFault → String
  | notText => FileFault.notText.message
  | badPattern line fault => "error parsing glob '" ++ line ++ "': " ++ fault.message

/-- The lines of an ignore file, and the faults of those that were left out. -/
structure IgnoreFile where
  lines : List Line := []
  /-- Numbers of lines, from one, and what is wrong with them. -/
  faults : List (Nat × LineFault) := []

/-! ## Reading -/

/-- A line without the blanks at its end.  A blank behind a backslash stays. -/
def trimLine (line : List Char) : List Char :=
  if [' ', '\\'].isPrefixOf line.reverse then line else Text.dropEndWhile Text.isWhite line

/-- A pattern without its sign, and the verdict that the sign gives.  A backslash
takes a sign or a mark of comment literally. -/
def cutSign : List Char → List Char × Verdict
  | '\\' :: '!' :: rest => ('!' :: rest, .ignored)
  | '\\' :: '#' :: rest => ('#' :: rest, .ignored)
  | '!' :: rest => (rest, .kept)
  | line => (line, .ignored)

/-- A pattern without the slash that it begins with, and whether it has one. -/
def cutLeadingSlash : List Char → List Char × Bool
  | '/' :: rest => (rest, true)
  | line => (line, false)

/-- A pattern without the slash that it ends with, and whether it has one.  A
backslash in front of that slash goes with it. -/
def cutTrailingSlash (line : List Char) : List Char × Bool :=
  match line.reverse with
  | '/' :: '\\' :: rest => (rest.reverse, true)
  | '/' :: rest => (rest.reverse, true)
  | _ => (line, false)

/-- The pattern for whole paths that a pattern without its outer slashes stands for:
one without a slash holds at any depth, and `/**` at the end asks for something
inside the directory. -/
def wholePath (anchored : Bool) (line : List Char) : List Char :=
  let star := ['*', '*']
  let deep :=
    if anchored || line.contains '/' || line = star then line else star ++ '/' :: line
  if ['*', '*', '/'].isPrefixOf deep.reverse then deep ++ ['/', '*'] else deep

/-- Reads a line.  Comments and empty lines say nothing. -/
def readLine (text : List Char) : Except LineFault (Option Line) :=
  if text.head? = some '#' then .ok none
  else
    let line := trimLine text
    if line.isEmpty then .ok none
    else
      let (unsigned, verdict) := cutSign line
      let (unrooted, anchored) := cutLeadingSlash unsigned
      let (core, directoriesOnly) := cutTrailingSlash unrooted
      match parse (wholePath anchored core) with
      | .ok pattern => .ok (some { pattern, verdict, directoriesOnly })
      | .error f => .error (.badPattern (String.ofList line) f)

/-- The bytes of each line.  A line ends with a line feed, in front of which a
carriage return does not count. -/
def byteLines : List (List UInt8) → List (List UInt8)
  | [] => []
  | [last] => if last.isEmpty then [] else [last]
  | piece :: rest =>
    (if piece.getLast? = some 13 then piece.dropLast else piece) :: byteLines rest

/-- Reads lines, the first of which has the given number. -/
def readLines (number : Nat) : List (List UInt8) → IgnoreFile
  | [] => {}
  | bytes :: rest =>
    match Utf8.decode? bytes with
    | none => { faults := [(number, .notText)] }
    | some text =>
      let chars :=
        if number = 1 then text.toList.dropWhile (· = Char.ofNat 0xFEFF) else text.toList
      let more := readLines (number + 1) rest
      match readLine chars with
      | .ok none => more
      | .ok (some line) => { more with lines := line :: more.lines }
      | .error f => { more with faults := (number, f) :: more.faults }

/-- Reads an ignore file. -/
def IgnoreFile.ofBytes (bytes : ByteArray) : IgnoreFile :=
  readLines 1 (byteLines (bytes.data.toList.splitOn 10))

/-! ## Verdicts -/

/-- What a file says about a path below its directory. -/
def IgnoreFile.verdict (f : IgnoreFile) (isDirectory : Bool) (path : List UInt8) :
    Option Verdict :=
  (f.lines.reverse.find? fun l =>
    (!l.directoriesOnly || isDirectory) && matchPath l.pattern path).map (·.verdict)

end Ignore
end AggregateAudit
