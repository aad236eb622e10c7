import TypedStub.Name

/-! The system that a session runs on: its files, and the programs that can be started there.

Files are also kept as a value, a tree of directories that holds texts. A path that starts at the root is absolute, and
any other path starts at the working directory. A step of a path can only be taken in a directory, and the step up from
the root stays there.
-/

set_option autoImplicit false

namespace TypedStub

inductive CommandStatus where
  | exited (code : Nat)
  | killed (signal : Nat)
  | notStarted (reason : String)
  deriving DecidableEq, Repr

/-- The names of the signals that systems agree on. -/
def signalNames : List (Nat × String) := [
  (1, "SIGHUP"), (2, "SIGINT"), (3, "SIGQUIT"), (4, "SIGILL"), (5, "SIGTRAP"), (6, "SIGABRT"),
  (7, "SIGBUS"), (8, "SIGFPE"), (9, "SIGKILL"), (10, "SIGUSR1"), (11, "SIGSEGV"), (12, "SIGUSR2"),
  (13, "SIGPIPE"), (14, "SIGALRM"), (15, "SIGTERM"), (16, "SIGSTKFLT"), (17, "SIGCHLD"), (18, "SIGCONT"),
  (19, "SIGSTOP"), (20, "SIGTSTP"), (21, "SIGTTIN"), (22, "SIGTTOU"), (23, "SIGURG"), (24, "SIGXCPU"),
  (25, "SIGXFSZ"), (26, "SIGVTALRM"), (27, "SIGPROF"), (28, "SIGWINCH"), (29, "SIGIO"), (30, "SIGPWR"),
  (31, "SIGSYS")
]

def signalText (signal : Nat) : String :=
  toString signal
    ++ match signalNames.find? fun entry => entry.1 = signal with
      | some (_, name) => " (" ++ name ++ ")"
      | none => ""

def CommandStatus.message : CommandStatus → String
  | .exited code => "exited with exit status: " ++ toString code
  | .killed signal => "exited with signal: " ++ signalText signal
  | .notStarted reason => reason

structure Host (m : Type → Type) [Monad m] where
  hasWorkingDirectory : m Bool := pure true
  readText : String → m (Option String)
  isFile : String → m Bool
  /-- Replace a file by a text, and tell whether that was possible. -/
  writeText : String → String → m Bool
  runCommand : (program : String) → (args : List String) → m CommandStatus

/-- A directory without a name adds nothing, and a file name that starts at the root stands for itself. -/
def pathIn (directory file : String) : String :=
  if directory = "" ∨ file.toList.head? = some '/' then file
  else if directory.toList.getLast? = some '/' then directory ++ file
  else directory ++ "/" ++ file

/-! ### Formatters, which put a stub into shape after it was written -/

structure Formatter where
  program : String
  args : List String
  deriving DecidableEq, Repr

structure FormatterFault where
  commandLine : String
  status : CommandStatus
  deriving DecidableEq, Repr

def FormatterFault.message (fault : FormatterFault) : String :=
  "formatter `" ++ fault.commandLine ++ "` failed: " ++ fault.status.message

namespace Formatter

def ofCommand? : List String → Option Formatter
  | [] => none
  | program :: args => some ⟨program, args⟩

def commandLine (formatter : Formatter) : String := " ".intercalate (formatter.program :: formatter.args)

def run {m : Type → Type} [Monad m] (host : Host m) (formatter : Formatter) (path : String) :
    m (Except FormatterFault Unit) := do
  match ← host.runCommand formatter.program (formatter.args ++ [path]) with
  | .exited 0 => return .ok ()
  | status => return .error ⟨formatter.commandLine, status⟩

end Formatter

/-! ### Files as a value -/

inductive FileNode where
  | directory
  | text (content : String)
  | binary
  deriving DecidableEq, Repr

/-- The steps from the root to a node, the last step first. -/
abbrev Location := List String

structure FileSystem where
  /-- The nodes below the root, each under its path without superfluous steps. -/
  nodes : NameMap FileNode
  workingDirectory : Location
  deriving DecidableEq

namespace FileSystem

def maxNameBytes : Nat := 255

def maxPathBytes : Nat := 4095

def pathOf (location : Location) : String := "/".intercalate location.reverse

def node? (files : FileSystem) (location : Location) : Option FileNode :=
  if location = [] then some .directory else files.nodes.get? (pathOf location)

def setNode (files : FileSystem) (location : Location) (node : FileNode) : FileSystem :=
  { files with nodes := files.nodes.insert (pathOf location) node }

def isIdle (step : String) : Bool := step = "" || step = "."

/-- Take the steps of a path. Only the last one may lead to nothing. -/
def walk? (files : FileSystem) (location : Location) : List String → Option Location
  | [] => some location
  | step :: rest =>
    if files.node? location = some .directory then
      if isIdle step then files.walk? location rest
      else if step = ".." then files.walk? location.tail rest
      else if step.utf8ByteSize ≤ maxNameBytes then files.walk? (step :: location) rest
      else none
    else none

def startOf (files : FileSystem) (path : String) : Location :=
  if path.toList.head? = some '/' then [] else files.workingDirectory

def stepsOf (path : String) : List String := (path.toList.splitOn '/').map String.ofList

def locate? (files : FileSystem) (path : String) : Option Location :=
  if maxPathBytes < path.utf8ByteSize ∨ path.toList.contains '\x00' then none
  else files.walk? (files.startOf path) (stepsOf path)

def nodeAt? (files : FileSystem) (path : String) : Option FileNode :=
  (files.locate? path).bind files.node?

def readText (files : FileSystem) (path : String) : Option String :=
  match files.nodeAt? path with
  | some (.text content) => some content
  | _ => none

def isFile (files : FileSystem) (path : String) : Bool :=
  match files.nodeAt? path with
  | some (.text _) | some .binary => true
  | _ => false

def hasWorkingDirectory (files : FileSystem) : Bool := files.node? files.workingDirectory = some .directory

def writeText? (files : FileSystem) (path content : String) : Option FileSystem :=
  (files.locate? path).bind fun location =>
    if files.node? location = some .directory then none else some (files.setNode location (.text content))

/-- A host whose files are a value. What other programs do to the files is given. -/
def host (programs : String → List String → FileSystem → CommandStatus × FileSystem) :
    Host (StateM FileSystem) where
  hasWorkingDirectory := fun files => (files.hasWorkingDirectory, files)
  readText path := fun files => (files.readText path, files)
  isFile path := fun files => (files.isFile path, files)
  writeText path content := fun files =>
    match files.writeText? path content with
    | some changed => (true, changed)
    | none => (false, files)
  runCommand program args := programs program args

end FileSystem

end TypedStub
