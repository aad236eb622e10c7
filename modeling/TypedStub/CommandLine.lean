import TypedStub.Host
import TypedStub.Registry
import TypedStub.Settings
import TypedStub.Stub

/-! The command line: its arguments, and what one run of it does on a host.

Arguments are taken one after the other. An option that needs a value takes it from the same argument
or from the next one, which must not look like an option. After `--` nothing is an option any more.
-/

set_option autoImplicit false

namespace TypedStub.CommandLine

structure Arguments where
  moduleName : String
  out : String
  format : Bool := false
  registry : Option String := none
  settings : Option String := none
  verbose : Bool := false
  quiet : Bool := false
  deriving DecidableEq, Repr

inductive ValueOption where
  | registry
  | settings
  deriving DecidableEq, Repr

inductive Stop where
  | misuse
  | version
  | help
  deriving DecidableEq, Repr

structure Draft where
  positional : List String := []
  format : Bool := false
  registry : Option String := none
  settings : Option String := none
  verbose : Bool := false
  quiet : Bool := false
  pending : Option ValueOption := none
  closed : Bool := false

namespace Draft

def setFlag (current : Bool) (set : Bool → Draft) : Except Stop Draft :=
  if current then .error .misuse else .ok (set true)

def setValue (draft : Draft) (option : ValueOption) (value : String) : Except Stop Draft :=
  if value = "" then .error .misuse
  else
    match option, draft.registry, draft.settings with
    | .registry, none, _ => .ok { draft with registry := some value, pending := none }
    | .settings, _, none => .ok { draft with settings := some value, pending := none }
    | _, _, _ => .error .misuse

/-- The module may be empty, the file to write may not, and there is no third argument. -/
def addPositional (draft : Draft) (value : String) : Except Stop Draft :=
  match draft.positional with
  | [] => .ok { draft with positional := [value] }
  | [moduleName] => if value = "" then .error .misuse else .ok { draft with positional := [value, moduleName] }
  | _ => .error .misuse

def addFlag (draft : Draft) (name : String) : Except Stop Draft :=
  if name = "ruff" then setFlag draft.format ({ draft with format := · })
  else if name = "verbose" then setFlag draft.verbose ({ draft with verbose := · })
  else if name = "quiet" then setFlag draft.quiet ({ draft with quiet := · })
  else if name = "version" then .error .version
  else if name = "help" then .error .help
  else .error .misuse

def valueOption? (name : String) : Option ValueOption :=
  if name = "registry" then some .registry else if name = "config" then some .settings else none

def addLong (draft : Draft) (text : List Char) : Except Stop Draft :=
  let name := String.ofList (text.takeWhile (· != '='))
  match valueOption? name, text.dropWhile (· != '=') with
  | some option, [] => .ok { draft with pending := some option }
  | some option, _ :: value => draft.setValue option (String.ofList value)
  | none, [] => draft.addFlag name
  | none, _ :: _ => .error .misuse

def longName? (letter : Char) : Option String :=
  if letter = 'v' then some "verbose"
  else if letter = 'q' then some "quiet"
  else if letter = 'V' then some "version"
  else if letter = 'h' then some "help"
  else none

/-- Options of one letter each, without their hyphen. One that needs a value takes the rest for it. -/
def addShort (draft : Draft) : List Char → Except Stop Draft
  | [] => .ok draft
  | 'c' :: [] => .ok { draft with pending := some .settings }
  -- An equals sign after the letter does not belong to the value.
  | 'c' :: '=' :: value | 'c' :: value => draft.setValue .settings (String.ofList value)
  | letter :: rest =>
    match longName? letter with
    | none => .error .misuse
    | some name => do
      let draft ← draft.addFlag name
      draft.addShort rest

def add (draft : Draft) (argument : String) : Except Stop Draft :=
  match draft.closed, argument.toList with
  | false, ['-', '-'] => .ok { draft with closed := true }
  | false, '-' :: '-' :: text => if draft.pending.isSome then .error .misuse else draft.addLong text
  | false, '-' :: c :: rest => if draft.pending.isSome then .error .misuse else draft.addShort (c :: rest)
  | closed, _ =>
    match draft.pending with
    | some option => if closed then .error .misuse else draft.setValue option argument
    | none => draft.addPositional argument

def finish (draft : Draft) : Except Stop Arguments :=
  match draft.pending, draft.positional with
  | none, [out, moduleName] =>
    if draft.verbose && draft.quiet then .error .misuse
    else
      .ok ⟨moduleName, out, draft.format, draft.registry, draft.settings, draft.verbose, draft.quiet⟩
  | _, _ => .error .misuse

end Draft

def Arguments.parse (arguments : List String) : Except Stop Arguments := do
  let draft ← arguments.foldlM Draft.add {}
  draft.finish

/-! ### One run of the command line, on any host

The stub is generated before anything is written, and the formatter runs after the stub was written.
-/

def version : String := "0.3.0"

def standardOutput : String := "-"

inductive Failure where
  | formatWithoutFile
  | settings (path : String) (fault : SettingsFault)
  | noWorkingDirectory
  /-- The settings file of the working directory is at fault. -/
  | ownSettings (fault : SettingsFault)
  | registry (moduleName : String) (fault : RegistryFault)
  | outline (failure : OutlineFailure)
  | output (path : String)
  | noFormatter
  | formatter (fault : FormatterFault)
  deriving DecidableEq, Repr

def Failure.message : Failure → String
  | .formatWithoutFile => "--ruff needs a stub file to format and cannot be used with '-'"
  | .settings path _ => "Failed to load configuration '" ++ path ++ "'"
  | .noWorkingDirectory => "Failed to read the working directory"
  | .ownSettings fault => fault.message
  | .registry moduleName fault =>
    "cannot load module '" ++ moduleName ++ "' from the registry: " ++ fault.message
  | .outline failure => failure.message
  | .output path => "Failed to write stub to '" ++ path ++ "'"
  | .noFormatter => "no formatter command configured"
  | .formatter fault => fault.message

/-- What a session shows: a text on the standard output, and messages apart from it. -/
structure Report where
  code : Nat
  output : String
  messages : List String
  deriving DecidableEq, Repr

def warningMessages (moduleName : String) (count : Nat) : List String :=
  if count = 0 then []
  else
    [toString count ++ " warning" ++ (if count = 1 then "" else "s") ++ " while generating '" ++ moduleName
      ++ "'"]

section

variable {m : Type → Type} [Monad m]

/-- The settings that the arguments name, or those of the working directory. -/
def loadSettings (host : Host m) (path : Option String) : ExceptT Failure m Settings :=
  match path with
  | some path => ExceptT.mk do return (← Settings.load host path).mapError (.settings path)
  | none => ExceptT.mk do
    if ← host.hasWorkingDirectory then return (← Settings.discover host "").mapError .ownSettings
    else return .error .noWorkingDirectory

def loadModule (host : Host m) (directory name : String) : ExceptT Failure m Module :=
  ExceptT.mk do return (← Registry.load host directory name).mapError (.registry name)

def writeStub (host : Host m) (path text : String) : ExceptT Failure m Unit :=
  ExceptT.mk do return if ← host.writeText path text then .ok () else .error (.output path)

def formatStub (host : Host m) (command : List String) (path : String) : ExceptT Failure m Unit :=
  match Formatter.ofCommand? command with
  | none => throw .noFormatter
  | some formatter => ExceptT.mk do return (← formatter.run host path).mapError .formatter

/-- Show a stub, or write it to a file and format it there. -/
def deliver (host : Host m) (arguments : Arguments) (settings : Settings) (text : String) :
    ExceptT Failure m Report := do
  if arguments.out = standardOutput then return ⟨0, text, []⟩
  -- The stub stays where it is if the formatter fails.
  writeStub host arguments.out text
  if arguments.format then formatStub host settings.formatter arguments.out
  return ⟨0, "", ["Wrote " ++ arguments.out]⟩

def session (host : Host m) (arguments : Arguments) : ExceptT Failure m Report := do
  if arguments.format ∧ arguments.out = standardOutput then throw .formatWithoutFile
  let settings ← loadSettings host arguments.settings
  let mod ← loadModule host (arguments.registry.getD settings.registry) arguments.moduleName
  let generated ← ExceptT.mk (pure ((settings.generate mod).mapError Failure.outline))
  let report ← deliver host arguments settings generated.text
  return { report with
    messages := report.messages ++ warningMessages arguments.moduleName generated.warnings.length }

def run (host : Host m) (arguments : Arguments) : m Report := do
  match ← (session host arguments).run with
  | .ok report => return report
  | .error failure => return ⟨1, "", ["Error: " ++ failure.message]⟩

def helpLines : List String := [
  "Generate Python type stubs from reflected modules",
  "",
  "Usage: stubgen [OPTIONS] <MODULE> <OUT>",
  "",
  "Arguments:",
  "  <MODULE>  Dotted name of the module to stub (e.g. \"anise.astro\")",
  "  <OUT>     Stub file to write, or \"-\" for standard output",
  "",
  "Options:",
  "      --ruff                 Run the configured formatter on the written stub",
  "      --registry <REGISTRY>  Registry directory (overrides the configuration)",
  "  -c, --config <CONFIG>      Configuration file (defaults to ./stubgen.toml when present)",
  "  -v, --verbose              Log every documented member",
  "  -q, --quiet                Only log errors",
  "  -h, --help                 Print help",
  "  -V, --version              Print version"
]

/-- Answer a command line. One that cannot be understood only has the code 2. -/
def answer (host : Host m) (arguments : List String) : m Report :=
  match Arguments.parse arguments with
  | .ok arguments => run host arguments
  | .error .version => return ⟨0, "stubgen " ++ version ++ "\n", []⟩
  | .error .help => return ⟨0, Stub.textOfLines helpLines, []⟩
  | .error .misuse => return ⟨2, "", []⟩

end

end TypedStub.CommandLine
