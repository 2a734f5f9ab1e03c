import StackAsm.Command.Assemble
import StackAsm.Command.Dump
import StackAsm.Command.Suite

/-!
# Commands

What a command line does to a disk.
-/

namespace StackAsm.Command

/-- Carries out a request. -/
def run (disk : Disk) (invocation : Invocation) : Outcome :=
  match invocation.request with
  | .assemble settings input output => assemble invocation.verbosity disk settings input output
  | .dump input => dump invocation.verbosity disk input
  | .suite settings directory => suite invocation.verbosity disk settings directory

end StackAsm.Command
