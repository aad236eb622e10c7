import TypedStub.CommandLine

/-! The command line on the files of the system it runs on. -/

set_option autoImplicit false

namespace TypedStub.CommandLine

def systemHost : Host IO where
  hasWorkingDirectory := do
    try
      let _ ← IO.currentDir
      return true
    catch _ => return false
  readText path := do
    try return some (← IO.FS.readFile path) catch _ => return none
  isFile path := do
    try
      let _ ← IO.FS.readBinFile path
      return true
    catch _ => return false
  writeText path content := do
    try
      IO.FS.writeFile path content
      return true
    catch _ => return false
  runCommand _ _ := return .notStarted "other programs cannot be started from here"

end TypedStub.CommandLine

open TypedStub.CommandLine in
def main (arguments : List String) : IO UInt32 := do
  let report ← answer systemHost arguments
  IO.print report.output
  for message in report.messages do
    IO.eprintln message
  return report.code.toUInt32
