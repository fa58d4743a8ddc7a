import DatabaseBroker.Settings.File

/-!
# The command line

`config` prints the configuration in effect as a settings file, `serve` starts a server under it. The settings file is
named by `--config`, before the command or after it; the one named after the command counts. An option that is not known,
is given twice at one place or lacks its value is wrong usage, and so is a word that belongs to nothing.

`Invocation.parse?` reads the arguments and `Invocation.outcome` says what follows from the file they name.
-/

namespace DatabaseBroker

/-- What the options of `serve` put over the settings of the file. -/
structure Overrides where
  port : Option UInt16
  dataDir : Option String
  portionSize : Option UInt64
deriving DecidableEq

/-- Settings under overrides. -/
def Settings.override (s : Settings) (o : Overrides) : Settings :=
  let server := s.server.getD ⟨none, none⟩
  let migration := match o.portionSize with
    | some size => some ⟨some size⟩
    | none => s.migration
  { s with server := some ⟨o.port.or server.port, o.dataDir.or server.dataDir⟩, migration := migration }

/-- What is asked for. -/
inductive Command where
  | config
  | serve (overrides : Overrides)
  | help
deriving DecidableEq

/-- A command and the settings file it is carried out under. -/
structure Invocation where
  file : Option String
  command : Command
deriving DecidableEq

namespace CommandLine

/-- An option: with a value, or without one. -/
structure OptionSpec where
  name : String
  hasValue : Bool

/-- The option that is known everywhere. -/
def fileOption : OptionSpec := ⟨"config", true⟩

/-- The options of `serve`. -/
def serveOptions : List OptionSpec := [
  ⟨"port", true⟩, ⟨"data-dir", true⟩, ⟨"portion-size", true⟩, ⟨"json-logs", false⟩]

/-- The options given at one place: the name of each and its value. -/
abbrev Given := List (String × String)

/-- Whether an argument is the value of the option before it: it is, unless it begins like an option. -/
def isValue (argument : String) : Bool := argument = "-" || argument.toList.head? != some '-'

/-- What an argument that begins with two hyphens names, and the value after an equals sign in it. -/
def splitOption? (argument : String) : Option (String × Option String) :=
  match argument.toList with
  | '-' :: '-' :: cs =>
    let (name, value) := cs.span (· != '=')
    some (String.ofList name, match value with
      | _ :: value => some (String.ofList value)
      | [] => none)
  | _ => none

/-- Whether an argument asks for help: by the whole word, or by the letter, whatever follows it. -/
def isHelp (argument : String) : Bool := argument = "--help" || argument.toList.take 2 = ['-', 'h']

/-- What stands at one place of the command line: options, and what comes after them. -/
inductive Place where
  | help
  | options (given : Given) (rest : List String)

/-- Reads the options at one place, up to the first word or the mark that ends options. -/
def readOptions (known : List OptionSpec) (given : Given) : List String → Option Place
  | [] => some (.options given [])
  | argument :: rest =>
    if argument = "--" then some (.options given (argument :: rest))
    else if isHelp argument then some .help
    else if isValue argument then some (.options given (argument :: rest))
    else do
      let (name, attached) ← splitOption? argument
      let spec ← known.find? (·.name = name)
      if given.any (·.1 = name) then none
      else match spec.hasValue, attached, rest with
        | true, some value, rest => readOptions known ((name, value) :: given) rest
        | true, none, value :: rest => if isValue value then readOptions known ((name, value) :: given) rest else none
        | true, none, [] => none
        | false, none, rest => readOptions known ((name, "") :: given) rest
        | false, some _, _ => none

/-- A name of a file or directory, which is not empty. -/
def pathValue? (s : String) : Option String := if s = "" then none else some s

/-- A value that an option may have: none if it is left out, a fault if it cannot be read. -/
def optionValue? {α : Type} (given : Given) (name : String) (read : String → Option α) : Option (Option α) :=
  match given.lookup name with
  | none => some none
  | some value => (read value).map some

/-- A port: a whole number with an optional sign, in the range of ports. -/
def portValue? (s : String) : Option UInt16 := do
  let (negative, cs) := match s.toList with
    | '-' :: cs => (true, cs)
    | '+' :: cs => (false, cs)
    | cs => (false, cs)
  let n ← Text.Numeral.toNat? cs
  if h : n < UInt16.size then
    if negative ∧ n ≠ 0 then none else some (UInt16.ofNatLT n h)
  else none

/-- The overrides that the options of `serve` make. -/
def overrides? (given : Given) : Option Overrides := do
  let port ← optionValue? given "port" portValue?
  let dataDir ← optionValue? given "data-dir" pathValue?
  let portionSize ← optionValue? given "portion-size" fun s => Text.Numeral.toUInt64? s.toList
  some ⟨port, dataDir, portionSize⟩

/-- The command of a word and the options after it. -/
def command? (word : String) (given : Given) : Option Command :=
  if word = "config" then some .config
  else if word = "serve" then (overrides? given).map .serve
  else none

/-- The options that are known after a word. -/
def optionsAfter (word : String) : List OptionSpec :=
  if word = "serve" then fileOption :: serveOptions else [fileOption]

/-- The words that name a command. -/
def commandWords : List String := ["config", "serve"]

/-- Whether the words after `help` name what there is help on. -/
def isHelpTopic : List String → Bool
  | [] => true
  | [word] => word = "help" || commandWords.contains word
  | _ => false

end CommandLine

open CommandLine in
/-- What the arguments ask for; none if they are wrong usage. -/
def Invocation.parse? (arguments : List String) : Option Invocation := do
  match ← readOptions [fileOption] [] arguments with
  | .help => some ⟨none, .help⟩
  | .options before (word :: rest) =>
    let outer ← optionValue? before "config" pathValue?
    if word = "help" then
      if isHelpTopic rest then some ⟨none, .help⟩ else none
    else if commandWords.contains word then
      match ← readOptions (optionsAfter word) [] rest with
      | .help => some ⟨none, .help⟩
      | .options after rest =>
        let inner ← optionValue? after "config" pathValue?
        let command ← command? word after
        if rest = [] ∨ rest = ["--"] then some ⟨inner.or outer, command⟩ else none
    else none
  | .options _ [] => none

/-- What follows from the arguments. -/
inductive Outcome where
  | wrongUsage
  /-- The settings file cannot be read, or holds no settings. -/
  | noSettings
  | prints (text : String)
  | serves (configuration : Configuration)
deriving DecidableEq

namespace Outcome

/-- How to call the program. -/
def usage : String := "Usage: dbaasd [--config <FILE>] <config | serve>\n"

/-- The status with which the program ends, if it does. -/
def status? : Outcome → Option Nat
  | wrongUsage => some 2
  | noSettings => some 1
  | prints _ => some 0
  | serves _ => none

/-- What is printed. -/
def text : Outcome → String
  | prints text => text
  | _ => ""

end Outcome

/-- What follows from an invocation when `content` is what the file that it names holds. -/
def Invocation.outcome (i : Invocation) (content : Option String) : Outcome :=
  let settings := match i.file with
    | none => some Settings.empty
    | some _ => content.bind Settings.ofFile?
  match i.command, settings with
  | .help, _ => .prints Outcome.usage
  | _, none => .noSettings
  | .config, some s =>
    match s.configuration.file? with
    | some text => .prints text
    | none => .noSettings
  | .serve overrides, some s => .serves (s.override overrides).configuration

/-- What follows from the arguments when `contentOf` says what a file holds. -/
def Outcome.ofArguments (arguments : List String) (contentOf : String → Option String) : Outcome :=
  match Invocation.parse? arguments with
  | none => .wrongUsage
  | some i => i.outcome (i.file.bind contentOf)

end DatabaseBroker
