import AggregateAudit.Ignore.File
import AggregateAudit.Workspace

/-!
# The user's own ignore file

A user may have an ignore file for everything.  Its path is set in a configuration
file, of which there may be several; otherwise it is at a fixed place.  What
it says counts last, and it sees paths from the working directory: where the working
directory is the beginning of a path, letter by letter, it is cut off.

A configuration is not parsed.  Its first line that looks like the setting counts,
whatever section it is in.
-/

namespace AggregateAudit
namespace Ignore

/-! ## The setting -/

/-- The blanks that may stand around the parts of a setting. -/
def isBlankByte (b : UInt8) : Bool := b = 32 || (9 ≤ b && b ≤ 13)

/-- A letter of the first twenty-six in lower case. -/
def lowerByte (b : UInt8) : UInt8 := if 65 ≤ b && b ≤ 90 then b + 32 else b

/-- A text behind the blanks it begins with. -/
def skipBlanks (bs : List UInt8) : List UInt8 := bs.dropWhile isBlankByte

/-- The name of the setting. -/
def settingName : List UInt8 := Utf8.encode "excludesfile"

/-- Whether a line may end with the blanks that a text begins with. -/
def endsLine (bs : List UInt8) : Bool :=
  (skipBlanks bs).isEmpty || (bs.takeWhile isBlankByte).contains 10

/-- Whether a text ends a setting: blanks and perhaps a quote, then the end of the
line. -/
def endsSetting (bs : List UInt8) : Bool :=
  endsLine bs || ((skipBlanks bs).head? = some 34 && endsLine ((skipBlanks bs).drop 1))

/-- The shortest value at the start of a text behind which a setting ends: at least
one character, and no blanks. -/
def shortestValue? : List UInt8 → Option (List UInt8)
  | [] => none
  | b :: bs =>
    if isBlankByte b then none
    else if endsSetting bs then some [b]
    else (shortestValue? bs).map (b :: ·)

/-- The value of the setting, if it stands at the start of a text.  A quote in front
of the value does not belong to it unless nothing else would be left. -/
def settingHere? (bs : List UInt8) : Option (List UInt8) :=
  let word := skipBlanks bs
  let rest := skipBlanks (word.drop settingName.length)
  if settingName = (word.take settingName.length).map lowerByte && rest.head? = some 61 then
    let value := skipBlanks (rest.drop 1)
    (if value.head? = some 34 then shortestValue? (skipBlanks (value.drop 1)) else none)
      <|> shortestValue? value
  else none

/-- The value of the setting in the first line that has it.  `atStart` says that a
line begins here. -/
def setting? (atStart : Bool) : List UInt8 → Option (List UInt8)
  | [] => none
  | b :: bs =>
    match if atStart then settingHere? (b :: bs) else none with
    | some value => some value
    | none => setting? (b = 10) bs

/-! ## The file -/

/-- A path with the home directory, as it is shown, for every tilde in it. -/
def expandHome (home : Option Path) (path : String) : Path :=
  match home with
  | some h => String.join (path.toList.map fun c => if c = '~' then h.display else c.toString)
  | none => path

/-- The path of the ignore file that a configuration sets. -/
def pathSetIn? (w : Workspace) (config : Path) : Option Path :=
  match w.readBytes config with
  | .error _ => none
  | .ok bytes =>
    match setting? true bytes.data.toList with
    | none => none
    | some value => (Utf8.decode? value).map (expandHome w.home)

/-- The directory of the user's settings of all programs. -/
def settingsDirectory? (w : Workspace) : Option Path :=
  match w.settingsDirectory with
  | some d => if d = "" then w.home.map fun h => Path.join h ".config" else some d
  | none => w.home.map fun h => Path.join h ".config"

/-- The configurations that may set the path, the first one first: the one that was
named, the two of the user, and the one of the machine if it was named.  One that is
missing or says nothing does not hide the ones behind it. -/
def configPaths (w : Workspace) : List Path :=
  w.gitConfig.toList
    ++ (w.home.map fun h => Path.join h ".gitconfig").toList
    ++ ((settingsDirectory? w).map fun d => Path.join d "git/config").toList
    ++ w.systemGitConfig.toList

/-- The path of the user's ignore file. -/
def userPath? (w : Workspace) : Option Path :=
  match (configPaths w).findSome? (pathSetIn? w) with
  | some path => some path
  | none => (settingsDirectory? w).map fun d => Path.join d "git/ignore"

/-- The user's ignore file; empty if there is none. -/
def userFile (w : Workspace) : IgnoreFile :=
  match (userPath? w).map w.readBytes with
  | some (.ok bytes) => .ofBytes bytes
  | _ => {}

/-! ## Verdicts -/

/-- A path as it is seen from a directory that may be its beginning. -/
def seenFrom (directory path : List UInt8) : List UInt8 :=
  if directory.isPrefixOf path then
    let rest := path.drop directory.length
    if rest.head? = some Path.slash then rest.drop 1 else rest
  else path

/-- What the user's ignore file says about an absolute path. -/
def userVerdict (file : IgnoreFile) (cwd : Path) (isDirectory : Bool) (path : Path) :
    Option Verdict :=
  file.verdict isDirectory (seenFrom cwd.bytes path.bytes)

end Ignore
end AggregateAudit
