/-!
# Arguments

The command line names one of three commands. `run` and `check` take the path of a configuration and
any number of overrides. Options may stand anywhere behind the command.
-/

namespace TestBeam.CommandLine

/-! ## Commands -/

/-- The configuration to use, with overrides in the order in which they were given. -/
structure Selection where
  configuration : String
  moduleOptions : List String
  detectorOptions : List String
  deriving DecidableEq, Repr

inductive Command where
  | version
  | help
  | run (selection : Selection) (summary : Option String)
  | check (selection : Selection)
  | modules
  deriving DecidableEq, Repr

/-! ## Options -/

structure Found where
  positionals : List String := []
  moduleOptions : List String := []
  detectorOptions : List String := []
  summary : Option String := none
  deriving DecidableEq, Repr

inductive OptionKind where
  | module
  | detector
  | summary
  deriving DecidableEq, Repr

inductive Argument where
  | positional (text : String)
  /-- An option with its value, or one whose value is the next argument. -/
  | option (kind : OptionKind) (attached : Option String)
  | help
  /-- Everything behind it is positional. -/
  | endOfOptions
  | unknown
  deriving DecidableEq, Repr

namespace Argument

/-- The name of a long option, and what stands behind an equals sign. -/
def splitLong (text : String) : String × Option String :=
  let name := text.toList.takeWhile (· ≠ '=')
  let rest := text.toList.drop name.length
  (String.ofList name, if rest.isEmpty then none else some (String.ofList (rest.drop 1)))

/-- The value behind a short option, where an equals sign may stand between them. -/
def shortValue : List Char → Option String
  | [] => none
  | '=' :: cs => some (String.ofList cs)
  | cs => some (String.ofList cs)

def ofLong (text : String) : Argument :=
  match splitLong text with
  | ("--option", value) => .option .module value
  | ("--detector-option", value) => .option .detector value
  | ("--summary", value) => .option .summary value
  | ("--help", none) => .help
  | _ => .unknown

/-- A single hyphen is a value and no option. -/
def ofText (text : String) : Argument :=
  match text.toList with
  | ['-', '-'] => .endOfOptions
  | '-' :: '-' :: _ => ofLong text
  | ['-'] => .positional text
  | '-' :: 'o' :: cs => .option .module (shortValue cs)
  | '-' :: 'g' :: cs => .option .detector (shortValue cs)
  | '-' :: 'h' :: _ => .help
  | '-' :: _ => .unknown
  | _ => .positional text

end Argument

namespace Found

/-- Adds the value of an option. A summary can be given only once. -/
def add (found : Found) (kind : OptionKind) (value : String) : Option Found :=
  match kind with
  | .module => some { found with moduleOptions := found.moduleOptions ++ [value] }
  | .detector => some { found with detectorOptions := found.detectorOptions ++ [value] }
  | .summary =>
    if found.summary.isSome || value.isEmpty then none else some { found with summary := some value }

def addPositional (found : Found) (text : String) : Found :=
  { found with positionals := found.positionals ++ [text] }

end Found

def Found.isEmpty (found : Found) : Bool :=
  found = {}

/-- Whether the positional arguments can still be one path, which is not empty. -/
def Found.fitsPath (found : Found) : Bool :=
  match found.positionals with
  | [] => true
  | [path] => !path.isEmpty
  | _ => false

/-! ## Verbs -/

inductive Verb where
  | run
  | check
  | modules
  deriving DecidableEq, Repr

namespace Verb

def ofName? : String → Option Verb
  | "run" => some .run
  | "check" => some .check
  | "modules" => some .modules
  | _ => none

/-- Whether the verb takes all that was found so far. Only a run stores a summary. -/
def accepts (verb : Verb) (found : Found) : Bool :=
  match verb with
  | .run => found.fitsPath
  | .check => found.summary.isNone && found.fitsPath
  | .modules => found.isEmpty

end Verb

/-- The result of reading the arguments of a command. -/
inductive Scan where
  | found (found : Found)
  | help
  | refused
  deriving DecidableEq, Repr

/-- Reads the arguments of a command up to the first one that it refuses. A value may not look like
an option. -/
def scan (verb : Verb) (found : Found) : List String → Scan
  | [] => if verb.accepts found then .found found else .refused
  | text :: rest =>
    if !verb.accepts found then .refused
    else
      match Argument.ofText text with
      | .positional text => scan verb (found.addPositional text) rest
      | .endOfOptions =>
        let found := rest.foldl Found.addPositional found
        if verb.accepts found then .found found else .refused
      | .help => .help
      | .unknown => .refused
      | .option kind (some value) =>
        match found.add kind value with
        | some found => scan verb found rest
        | none => .refused
      | .option kind none =>
        match rest with
        | [] => .refused
        | next :: rest =>
          match Argument.ofText next with
          | .positional value =>
            match found.add kind value with
            | some found => scan verb found rest
            | none => .refused
          | _ => .refused

/-! ## Commands with their options -/

/-- The overrides for the one path. -/
def Found.selection? (found : Found) : Option Selection :=
  match found.positionals with
  | [path] => some ⟨path, found.moduleOptions, found.detectorOptions⟩
  | _ => none

/-- The command of a verb with its arguments, if none is missing. -/
def Verb.command? (verb : Verb) (found : Found) : Option Command :=
  match verb with
  | .run => found.selection?.map fun selection => .run selection found.summary
  | .check => found.selection?.map .check
  | .modules => some .modules

/-- The topics of help are the commands and help itself. -/
def isTopic (name : String) : Bool :=
  name = "help" || (Verb.ofName? name).isSome

/-- Reads a whole command line. `none` is an error of usage. -/
def parse : List String → Option Command
  | [] => none
  | name :: rest =>
    if name.startsWith "-V" || name = "--version" then some .version
    else if name.startsWith "-h" || name = "--help" then some .help
    else if name = "help" then
      match rest with
      | [] => some .help
      | [topic] => if isTopic topic then some .help else none
      | _ => none
    else
      (Verb.ofName? name).bind fun verb =>
        match scan verb {} rest with
        | .found found => verb.command? found
        | .help => some .help
        | .refused => none

end TestBeam.CommandLine
