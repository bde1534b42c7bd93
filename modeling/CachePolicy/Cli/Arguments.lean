import CachePolicy.Config.Options
import CachePolicy.Files.Path

/-!
# The arguments of the program

An argument list names a command and then its options.  An option has a long name,
and perhaps a letter; its value is the next argument, or stands behind an equals
sign.  Each option may be given once.

Reading ends with a command, with a question about the program itself, or with a
mistake, and nothing is said about a mistake.
-/

namespace CachePolicy.Cli

/-- What an option takes. -/
inductive Takes where
  | nothing
  | text
  /-- A path, which is not empty. -/
  | path
  | oneOf (words : List String)
  deriving DecidableEq, Repr

/-- An option of a command. -/
structure OptionSpec where
  long : String
  letter : Option Char := none
  takes : Takes
  required : Bool := false
  deriving DecidableEq, Repr

/-- Why there is no command to run. -/
inductive Interruption where
  | help
  | version
  | mistake
  deriving DecidableEq, Repr

/-- The options that were given, with their values. -/
abbrev Given := List (String × String)

namespace Arguments

/-- Whether an option can have a value. -/
def allows : Takes → String → Bool
  | .nothing, _ => false
  | .text, _ => true
  | .path, value => !value.isEmpty
  | .oneOf words, value => words.contains value

/-- Whether an argument is a value where one is awaited. -/
def isValue (argument : String) : Bool :=
  argument == "-" || argument.toList.head? != some '-'

/-- Give an option a value. -/
def give (option : OptionSpec) (value : String) (given : Given) : Except Interruption Given :=
  if (given.lookup option.long).isSome || !allows option.takes value then .error .mistake
  else .ok (given ++ [(option.long, value)])

/-- Take an option, with what stands behind an equals sign or the next argument. -/
def take (option : OptionSpec) (attached : Option String) (given : Given) (rest : List String) :
    Except Interruption (Given × List String) :=
  match option.takes, attached, rest with
  | .nothing, none, rest =>
    if (given.lookup option.long).isSome then .error .mistake
    else .ok (given ++ [(option.long, "")], rest)
  | .nothing, some _, _ => .error .mistake
  | _, some value, rest => (give option value given).map (·, rest)
  | _, none, value :: rest =>
    if isValue value then (give option value given).map (·, rest) else .error .mistake
  | _, none, [] => .error .mistake

/-- Cut a text at its first equals sign. -/
def attachment (text : List Char) : String × Option String :=
  match Text.cut (· == '=') text with
  | (front, _ :: value) => (String.ofList front, some (String.ofList value))
  | (front, []) => (String.ofList front, none)

/-- Take the option of an argument that starts with dashes. -/
def takeDashed (options : List OptionSpec) (asksVersion : Bool) (given : Given)
    (argument : List Char) (rest : List String) : Except Interruption (Given × List String) :=
  match argument with
  | '-' :: '-' :: text =>
    let (name, value) := attachment text
    match options.find? (·.long == name), value with
    | some option, value => take option value given rest
    | none, none =>
      if name == "help" then .error .help
      else if asksVersion && name == "version" then .error .version
      else .error .mistake
    | none, some _ => .error .mistake
  | '-' :: letter :: text =>
    match options.find? (·.letter == some letter), text with
    | some option, [] => take option none given rest
    | some option, '=' :: value => take option (some (String.ofList value)) given rest
    | some option, value => take option (some (String.ofList value)) given rest
    | none, _ =>
      if letter = 'h' then .error .help
      else if asksVersion && letter = 'V' then .error .version
      else .error .mistake
  | _ => .error .mistake

/-- The options that arguments give, up to the first that starts with no dash.
`fuel` bounds the number of arguments. -/
def options (specs : List OptionSpec) (asksVersion : Bool) :
    (fuel : Nat) → Given → List String → Except Interruption (Given × List String)
  | 0, given, rest => .ok (given, rest)
  | _ + 1, given, [] => .ok (given, [])
  | fuel + 1, given, argument :: rest =>
    if argument == "--" then
      if rest.isEmpty then .ok (given, []) else .error .mistake
    else if isValue argument then .ok (given, argument :: rest)
    else do
      let (given, rest) ← takeDashed specs asksVersion given argument.toList rest
      options specs asksVersion fuel given rest

/-- The option that is allowed everywhere. -/
def globalOptions : List OptionSpec := [{ long := "log-json", takes := .nothing }]

/-- The options that every command has. -/
def configOptions : List OptionSpec :=
  [{ long := "config", letter := some 'c', takes := .path },
    { long := "cache-name-prefix", takes := .text },
    { long := "preset", takes := .oneOf ["auto", "recommended", "none"] },
    { long := "sw-name", takes := .text },
    { long := "debug", takes := .nothing }]

end Arguments

/-- What can be asked of the program. -/
inductive Verb where
  | build
  | dev
  | compile
  | explain
  | snippet
  | verify
  deriving DecidableEq, Repr

namespace Verb

/-- The commands by name. -/
def named? : String → Option Verb
  | "build" => some build
  | "dev" => some dev
  | "compile" => some compile
  | "explain" => some explain
  | "snippet" => some snippet
  | "verify" => some verify
  | _ => none

/-- The options of a command that not all of them have. -/
def ownOptions : Verb → List OptionSpec
  | build =>
    [{ long := "out-dir", takes := .path, required := true }, { long := "routes", takes := .path },
      { long := "custom-worker", takes := .path }, { long := "strict", takes := .nothing },
      { long := "json", takes := .nothing }]
  | dev => [{ long := "public-dir", takes := .path, required := true }]
  | compile => [{ long := "routes", takes := .path }]
  | explain =>
    [{ long := "url", takes := .text, required := true }, { long := "method", takes := .text },
      { long := "destination", takes := .text }, { long := "routes", takes := .path },
      { long := "human", takes := .nothing }]
  | snippet => [{ long := "base", takes := .text }]
  | verify => [{ long := "json", takes := .nothing }]

end Verb

/-- A command with its options. -/
structure Command where
  verb : Verb
  given : Given
  deriving Repr

namespace Command

/-- The value of an option. -/
def value? (command : Command) (long : String) : Option String := command.given.lookup long

/-- Whether an option was given. -/
def has (command : Command) (long : String) : Bool := (command.value? long).isSome

/-- The path of an option. -/
def path? (command : Command) (long : String) : Option Path := (command.value? long).map Path.read

/-- The options of a command, all of which have to be known and the required ones
given. -/
def readOptions (verb : Verb) (arguments : List String) : Except Interruption Command := do
  let specs := Arguments.globalOptions ++ Arguments.configOptions ++ verb.ownOptions
  let (given, rest) ← Arguments.options specs false (arguments.length + 1) [] arguments
  let complete := specs.all fun option => !option.required || (given.lookup option.long).isSome
  if rest.isEmpty && complete then .ok ⟨verb, given⟩ else .error .mistake

/-- The command of an argument list. -/
def read (arguments : List String) : Except Interruption Command := do
  let (_, rest) ←
    Arguments.options Arguments.globalOptions true (arguments.length + 1) [] arguments
  match rest with
  | [] => .error .mistake
  | name :: rest =>
    match Verb.named? name with
    | some verb => readOptions verb rest
    | none => if name == "help" then .error .help else .error .mistake

end Command

end CachePolicy.Cli
