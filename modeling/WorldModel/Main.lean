/-
The program: the command line over the files of the machine.
-/
import WorldModel.CommandLine

set_option autoImplicit false

namespace WorldModel.CommandLine

/-- Whether an action on files goes through. -/
def goesThrough (action : IO Unit) : IO Bool := do
  try
    action
    return true
  catch _ => return false

/-- The files of the machine. -/
def machineFiles : FileAccess IO where
  read path := do
    try
      return some (← IO.FS.readFile path)
    catch _ => return none
  write path text := goesThrough (IO.FS.writeFile path text)
  makeFolders path := if path = "" then return true else goesThrough (IO.FS.createDirAll path)

end WorldModel.CommandLine

open WorldModel in
/-- Runs the command line and reports what it leaves. -/
def main (args : List String) : IO UInt32 := do
  let r ← CommandLine.run CommandLine.machineFiles args
  IO.print r.output
  if r.complaint ≠ "" then IO.eprintln r.complaint
  return UInt32.ofNat r.code
