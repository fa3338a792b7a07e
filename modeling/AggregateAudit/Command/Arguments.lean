import AggregateAudit.Report.Format

/-!
# Command lines

A command line names a command and gives options to it.  Options have a long form,
`--format json` or `--format=json`, and some a short form, `-f json`, `-fjson` or
`-f=json`; short ones can be written together.  `--` ends the options.  Two options
belong to every command and may stand in front of its name or behind it; what
stands behind counts first.

Anything else is a usage error: an option that is unknown, lacks a value or has one
too many, an option given twice in one place, an empty path.  Why a command line is
refused is not recorded.
-/

namespace AggregateAudit
namespace Command

/-! ## Options -/

/-- The options. -/
inductive Flag where
  | verbose
  | config
  | format
  | rules
  | exclude
  | force
  | help
  | version
  deriving DecidableEq

namespace Flag

def long : Flag → String
  | verbose => "verbose"
  | config => "config"
  | format => "format"
  | rules => "rules"
  | exclude => "exclude"
  | force => "force"
  | help => "help"
  | version => "version"

def short? : Flag → Option Char
  | verbose => some 'v'
  | config => some 'c'
  | format => some 'f'
  | rules => none
  | exclude => some 'e'
  | force => none
  | help => some 'h'
  | version => some 'V'

/-- Whether an option has a value. -/
def hasValue : Flag → Bool
  | config => true
  | format => true
  | rules => true
  | exclude => true
  | _ => false

/-- Whether an option may be given more than once. -/
def mayRepeat : Flag → Bool
  | exclude => true
  | _ => false

/-- Whether a text can be the value of an option. -/
def accepts (o : Flag) (value : String) : Bool :=
  match o with
  | config => value ≠ ""
  | format => (Format.ofWord? value).isSome
  | _ => true

end Flag

/-- A command, or the place in front of it. -/
inductive Place where
  | front
  | check
  | listRules
  | init
  deriving DecidableEq

namespace Place

/-- The options that may stand in a place. -/
def flags : Place → List Flag
  | front => [.verbose, .config, .help, .version]
  | check => [.verbose, .config, .format, .rules, .exclude, .help]
  | listRules => [.verbose, .config, .help]
  | init => [.verbose, .config, .force, .help]

/-- How many words that are no options a command takes. -/
def words : Place → Nat
  | check => 1
  | _ => 0

/-- The command with a name. -/
def ofName? : String → Option Place
  | "check" => some check
  | "list-rules" => some listRules
  | "init" => some init
  | _ => none

end Place

/-! ## Reading -/

/-- Why reading arguments stops before their end. -/
inductive Stop where
  /-- Help was asked for. -/
  | help
  /-- The version was asked for. -/
  | version
  /-- The arguments are refused. -/
  | refused
  deriving DecidableEq

/-- What has been given in one place. -/
structure Given where
  /-- The options and their values, in order. -/
  flags : List (Flag × String) := []
  /-- The words that are no options. -/
  words : List String := []

namespace Given

/-- Takes an option into account. -/
def add (g : Given) (flag : Flag) (value : String) : Except Stop Given :=
  if flag = .help then .error .help
  else if flag = .version then .error .version
  else if (!flag.mayRepeat && g.flags.any (·.1 = flag)) || !flag.accepts value then
    .error .refused
  else .ok { g with flags := g.flags ++ [(flag, value)] }

/-- Takes a word into account.  Words are paths, and a path is not empty. -/
def addWord (p : Place) (g : Given) (word : String) : Except Stop Given :=
  if g.words.length < p.words && word ≠ "" then .ok { g with words := g.words ++ [word] }
  else .error .refused

/-- The value of an option. -/
def value? (g : Given) (flag : Flag) : Option String :=
  (g.flags.find? (·.1 = flag)).map (·.2)

/-- All values of an option. -/
def values (g : Given) (flag : Flag) : List String :=
  (g.flags.filter (·.1 = flag)).map (·.2)

/-- Whether an option is given. -/
def has (g : Given) (flag : Flag) : Bool := g.flags.any (·.1 = flag)

end Given

/-- Reads a row of short options.  One that has a value takes the rest of the row,
without an equals sign in front; if there is no rest, it is left waiting for the
next argument. -/
def readShorts (p : Place) (g : Given) : List Char → Except Stop (Given × Option Flag)
  | [] => .ok (g, none)
  | c :: cs =>
    match p.flags.find? (·.short? = some c) with
    | none => .error .refused
    | some flag =>
      if flag.hasValue then
        match cs with
        | [] => .ok (g, some flag)
        | '=' :: value => (g.add flag (String.ofList value)).map (·, none)
        | value => (g.add flag (String.ofList value)).map (·, none)
      else
        match g.add flag "" with
        | .ok g => readShorts p g cs
        | .error stop => .error stop

/-- Reads a long option, without its dashes. -/
def readLong (p : Place) (g : Given) (text : List Char) : Except Stop (Given × Option Flag) :=
  let name := text.takeWhile (· ≠ '=')
  match p.flags.find? (·.long.toList = name), text.dropWhile (· ≠ '=') with
  | none, _ => .error .refused
  | some flag, [] => if flag.hasValue then .ok (g, some flag) else (g.add flag "").map (·, none)
  | some flag, _ :: value =>
    if flag.hasValue then (g.add flag (String.ofList value)).map (·, none) else .error .refused

/-- What an argument is. -/
inductive Shape where
  /-- `--`. -/
  | divider
  | long (text : List Char)
  | shorts (row : List Char)
  | word

def shapeOf (argument : String) : Shape :=
  match argument.toList with
  | ['-', '-'] => .divider
  | '-' :: '-' :: text => .long text
  | ['-'] => .word
  | '-' :: row => .shorts row
  | _ => .word

/-- Reads the arguments of a place.  In front of the command they end with the
command's name, and the arguments behind it are left.  `waiting` is an option whose
value is the next argument. -/
def readPlace (p : Place) (g : Given) (waiting : Option Flag) (divided : Bool) :
    List String → Except Stop (Given × Option (Place × List String))
  | [] => if waiting.isSome then .error .refused else .ok (g, none)
  | argument :: rest =>
    if divided then
      match waiting, g.addWord p argument with
      | none, .ok g => readPlace p g none true rest
      | _, _ => .error .refused
    else
      match shapeOf argument, waiting with
      | .divider, none => readPlace p g none true rest
      | .long text, none =>
        match readLong p g text with
        | .ok (g, waiting) => readPlace p g waiting false rest
        | .error stop => .error stop
      | .shorts row, none =>
        match readShorts p g row with
        | .ok (g, waiting) => readPlace p g waiting false rest
        | .error stop => .error stop
      | .word, none =>
        if p = .front then
          match Place.ofName? argument with
          | some command => .ok (g, some (command, rest))
          | none => .error (if argument = "help" then .help else .refused)
        else
          match g.addWord p argument with
          | .ok g => readPlace p g none false rest
          | .error stop => .error stop
      | .word, some flag =>
        match g.add flag argument with
        | .ok g => readPlace p g none false rest
        | .error stop => .error stop
      | _, some _ => .error .refused

/-! ## Invocations -/

/-- The options of a check. -/
structure CheckOptions where
  path : Path := "."
  format : Format := .text
  /-- The selectors of rules, separated by commas. -/
  rules : Option String := none
  exclude : List String := []
  deriving DecidableEq

/-- What a command line asks for. -/
inductive Request where
  | check (options : CheckOptions)
  | listRules
  | init (force : Bool)
  deriving DecidableEq

/-- A request and the options that belong to every command. -/
structure Invocation where
  request : Request
  verbose : Bool := false
  config : Option Path := none
  deriving DecidableEq

/-- What was given to a command, as a request. -/
def requestOf (command : Place) (g : Given) : Request :=
  match command with
  | .init => .init (g.has .force)
  | .check =>
    .check
      { path := g.words.headD "."
        format := ((g.value? .format).bind Format.ofWord?).getD .text
        rules := g.value? .rules
        exclude := g.values .exclude }
  | _ => .listRules

/-- Reads a command line. -/
def readArguments (arguments : List String) : Except Stop Invocation :=
  match readPlace .front {} none false arguments with
  | .error stop => .error stop
  | .ok (_, none) => .error .refused
  | .ok (front, some (command, rest)) =>
    match readPlace command {} none false rest with
    | .error stop => .error stop
    | .ok (given, _) =>
      .ok
        { request := requestOf command given
          verbose := front.has .verbose || given.has .verbose
          config := ((given.value? .config).or (front.value? .config)).map Path.ofString }

end Command
end AggregateAudit
