/-
  The program: what it is given from outside, and what it writes.
-/
import Rulebook.Command.Perform
import Std.Time.Zoned

namespace Rulebook.Command

/-- The day on which the program runs. -/
def currentDate : IO Calendar.Date := do
  let d ← Std.Time.PlainDate.now
  return ⟨d.year.toNat, d.month.toNat, d.day.toNat⟩

/-- The state of a file. -/
def fileState (path : String) : IO FileState := do
  try
    return .text (← IO.FS.readFile path)
  catch
    | .noFileOrDirectory .. => return .missing
    | _ => return .directory

/-- The settings of the environment. -/
def environment : IO (String → Option String) := do
  let entries ← Setting.all.mapM fun s => return (s.variable_, ← IO.getEnv s.variable_)
  return fun name => (entries.lookup name).join

/-- Writes a result and gives its exit code. -/
def Result.write : Result → IO UInt32
  | finished exit output errors => do
    IO.print output
    IO.eprint errors
    return exit.toUInt32
  | misused line => do
    IO.eprintln line
    return 2
  | broken errors b => do
    IO.eprint errors
    IO.eprintln b.message
    return 1

end Rulebook.Command

open Rulebook.Command

/-- Runs the program. -/
def main (words : List String) : IO UInt32 := do
  let path := (Draft.read words).toOption.bind (·.request.path?)
  let file ← match path with
    | some path => fileState path
    | none => pure .missing
  (perform ⟨← environment, fun _ => file, ← currentDate⟩ words).write
