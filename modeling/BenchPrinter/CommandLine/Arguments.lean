import BenchPrinter.Number.Numeral
import BenchPrinter.Settings.Overrides

/-!
The arguments of the command line. They are read from the left, and the first that makes no sense
ends the options. An option is given once; its value follows it or is attached to it.
-/

namespace BenchPrinter

/-- What the program is asked to do. -/
inductive Job where
  | run (path : Option String) (overrides : Overrides)
  | listPorts
  | writeSettings (path : String)
  | help
  | version
deriving DecidableEq

namespace Arguments

/-- The options that have a value. -/
inductive Setting where
  | config
  | port
  | baud
  | seed
  | busyInterval
deriving DecidableEq

def longNames : List (String × Setting) :=
  [("config", .config), ("port", .port), ("baud", .baud), ("seed", .seed),
    ("busy-interval-ms", .busyInterval)]

def letters : List (Char × Setting) := [('c', .config), ('p', .port), ('b', .baud)]

/-- A decimal number below a bound; a plus sign may stand in front of it. -/
def natural? (bound : Nat) (text : List Char) : Option Nat :=
  let body :=
    match text with
    | '+' :: rest => rest
    | other => other
  if body.isEmpty then none
  else
    match readDigits 0 body with
    | some number => if number < bound then some number else none
    | none => none

/-- A baud rate is read as a signed number, so a negative zero is zero. -/
def baudRate? : List Char → Option UInt32
  | '-' :: rest =>
      if rest.isEmpty then none
      else
        match readDigits 0 rest with
        | some 0 => some 0
        | _ => none
  | text => (natural? UInt32.size text).map (·.toUInt32)

def word64? (text : List Char) : Option UInt64 :=
  (natural? UInt64.size text).map (·.toUInt64)

/-- The options of a run that have been read so far. -/
structure RunOptions where
  path : Option String
  overrides : Overrides
deriving DecidableEq

def RunOptions.empty : RunOptions := ⟨none, .none⟩

/-- A value is refused when it has the wrong form or the option was given before. -/
def RunOptions.set (options : RunOptions) (setting : Setting) (value : List Char) :
    Option RunOptions :=
  let overrides := options.overrides
  match setting with
  | .config =>
      if value.isEmpty ∨ options.path.isSome then none
      else some { options with path := some (String.ofList value) }
  | .port =>
      if overrides.port.isSome then none
      else some { options with overrides := { overrides with port := some (String.ofList value) } }
  | .baud =>
      if overrides.baudRate.isSome then none
      else
        (baudRate? value).map fun rate =>
          { options with overrides := { overrides with baudRate := some rate } }
  | .seed =>
      if overrides.seed.isSome then none
      else
        (word64? value).map fun seed =>
          { options with overrides := { overrides with seed := some seed } }
  | .busyInterval =>
      if overrides.busyInterval.isSome then none
      else
        (word64? value).map fun interval =>
          { options with overrides := { overrides with busyInterval := some interval } }

def RunOptions.useStdio (options : RunOptions) : Option RunOptions :=
  if options.overrides.stdio then none
  else some { options with overrides := { options.overrides with stdio := true } }

/-- One argument of a run. A value that is not attached is the next argument. -/
inductive Token where
  | help
  | stdio
  | setting (setting : Setting) (attached : Option (List Char))
  | endOfOptions
  | unknown
deriving DecidableEq

namespace Token

/-- An equals sign attaches a value to a long name. -/
def ofLong (text : List Char) : Token :=
  let name := String.ofList (text.takeWhile (· ≠ '='))
  let attached :=
    match text.dropWhile (· ≠ '=') with
    | [] => none
    | _ :: value => some value
  match longNames.lookup name with
  | some option => .setting option attached
  | none =>
      if attached.isSome then .unknown
      else if name = "help" then .help
      else if name = "stdio" then .stdio
      else .unknown

/-- What follows a letter is its value; an equals sign may stand between them. -/
def ofLetter (letter : Char) (rest : List Char) : Token :=
  match letters.lookup letter with
  | some option =>
      match rest with
      | [] => .setting option none
      | '=' :: value => .setting option (some value)
      | value => .setting option (some value)
  | none => if letter = 'h' then .help else .unknown

def ofArgument : List Char → Token
  | ['-', '-'] => .endOfOptions
  | '-' :: '-' :: text => ofLong text
  | '-' :: letter :: rest => ofLetter letter rest
  | _ => .unknown

end Token

/-- An argument that looks like an option is no value; a single dash is one. -/
def isOption : List Char → Bool
  | '-' :: _ :: _ => true
  | _ => false

/-- The arguments of a run, after an option that waits for its value or not. -/
def readRun : Option Setting → RunOptions → List String → Option Job
  | some _, _, [] => none
  | some setting, options, argument :: rest =>
      if isOption argument.toList then none
      else
        match options.set setting argument.toList with
        | some options => readRun none options rest
        | none => none
  | none, options, [] => some (.run options.path options.overrides)
  | none, options, argument :: rest =>
      match Token.ofArgument argument.toList with
      | .help => some .help
      | .stdio =>
          match options.useStdio with
          | some options => readRun none options rest
          | none => none
      | .setting setting none => readRun (some setting) options rest
      | .setting setting (some value) =>
          match options.set setting value with
          | some options => readRun none options rest
          | none => none
      | .endOfOptions =>
          if rest.isEmpty then some (.run options.path options.overrides) else none
      | .unknown => none

def asksForHelp (argument : List Char) : Bool :=
  argument = "--help".toList || ['-', 'h'].isPrefixOf argument

/-- One path is asked for. After two dashes it may begin with a dash. -/
def readWrite : Bool → Option String → List String → Option Job
  | _, none, [] => none
  | _, some path, [] => some (.writeSettings path)
  | optionsEnded, path, argument :: rest =>
      if !optionsEnded && argument = "--" then readWrite true path rest
      else if !optionsEnded && isOption argument.toList then
        if asksForHelp argument.toList then some .help else none
      else if path.isSome ∨ argument.toList.isEmpty then none
      else readWrite optionsEnded (some argument) rest

def readPorts : List String → Option Job
  | [] => some .listPorts
  | ["--"] => some .listPorts
  | argument :: _ => if asksForHelp argument.toList then some .help else none

/-- Help is given about one subcommand or about all of them. -/
def readHelp : List String → Option Job
  | [] => some .help
  | [name] => if ["run", "ports", "write-config", "help"].contains name then some .help else none
  | _ => none

/-- Without a subcommand the program runs. -/
def read : List String → Option Job
  | [] => some (.run none .none)
  | "run" :: rest => readRun none .empty rest
  | "ports" :: rest => readPorts rest
  | "write-config" :: rest => readWrite false none rest
  | "help" :: rest => readHelp rest
  | ["--"] => some (.run none .none)
  | argument :: _ =>
      if asksForHelp argument.toList then some .help
      else if argument = "--version" ∨ ['-', 'V'].isPrefixOf argument.toList then some .version
      else none

end Arguments

end BenchPrinter
