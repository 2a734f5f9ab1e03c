import StackAsm.Command
import StackAsm.Command.Need

/-!
# The command line

Reads what a command needs from the file system, carries the command out, and writes what it leaves
behind. Everything else is decided by `Command.run`.
-/

namespace StackAsm.Main

open Command

/-- How the commands are used. -/
def usage : String := linesText [
  "usage: cwasm asm [-v] in.cws [out.cwx] [-I dir...] [-D NAME[=VALUE]...]",
  "       cwasm dump [-v] in.cwx",
  "       cwasm suite [-v] [suite/dir] [-I dir...] [-D NAME[=VALUE]...]"]

/-- The disk with what stands at a path. -/
def fetchEntry (disk : Disk) (path : String) : IO Disk := do
  try
    let file ← IO.FS.realPath path
    if ← file.isDir then return disk.put path .directory
    return disk.put path (.file (← IO.FS.readBinFile file).toList)
  catch _ => return disk

/-- The disk with what stands in a directory. -/
def fetchListing (disk : Disk) (path : String) : IO Disk := do
  let mut disk ← fetchEntry disk path
  if disk.isDirectory path then
    for entry in ← (← IO.FS.realPath path).readDir do
      disk ← fetchEntry disk (Path.join path entry.fileName)
  return disk

/-- The disk with something that is needed. -/
def fetch (disk : Disk) : Need → IO Disk
  | .entry path => fetchEntry disk path
  | .listing directory => fetchListing disk directory

/-- The disk with all that a request needs. What was asked for once is not asked for again. -/
partial def gather (disk : Disk) (asked : List Need) (request : Request) : IO Disk := do
  match (needs disk request).filter (!asked.contains ·) with
  | [] => return disk
  | new => gather (← new.foldlM fetch disk) (new ++ asked) request

/-- Carries out a command line and gives its exit status. -/
def run (args : List String) : IO UInt32 := do
  match readCommandLine args with
  | .error e =>
    IO.eprint ((e.message?.map (· ++ "\n")).getD "" ++ usage)
    return 1
  | .ok invocation =>
    let working := Path.names (← IO.currentDir).toString
    let disk ← gather ⟨[], working⟩ [] invocation.request
    let outcome := Command.run disk invocation
    IO.print outcome.output
    IO.eprint outcome.errors
    for (place, content) in outcome.disk.changesSince disk do
      IO.FS.writeBinFile (Path.ofParts ("" :: place)) ⟨content.toArray⟩
    return UInt32.ofNat outcome.status

end StackAsm.Main

/-- The program. -/
def main (args : List String) : IO UInt32 := StackAsm.Main.run ("cwasm" :: args)
