import Stencil.CommandLine.Run

/-!
# The program

The program itself: the command line with the files of the machine.
-/

namespace Stencil

/-- The files of the machine. -/
def machineFiles : IO (FileSystem IO) := do
  let here ← IO.currentDir
  return {
    workingDirectory := Path.ofString here.toString
    kind := fun path => do
      let place := here / path
      if path = "" then return none
      else if ← place.isDir then return some .directory
      else if ← place.pathExists then return some .file
      else return none
    read := fun path => return (← IO.FS.readBinFile (here / path)).toList
    filesBelow := fun path => do
      let place := here / path
      let found ← place.walkDir
      let files ← found.filterM fun file => return !(← file.isDir)
      return files.toList.map fun file => file.components.drop place.components.length }

end Stencil

/-- Runs the command line that the program was given. -/
def main (words : List String) : IO UInt32 := do
  let report ← Stencil.CommandLine.run (← Stencil.machineFiles) words
  IO.print report.output
  IO.eprint report.errors
  if let some crash := report.crash then IO.eprintln crash.message
  return report.status.toUInt32
