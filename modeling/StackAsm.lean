import StackAsm.Main
import StackAsm.Proofs.Container.RoundTrip
import StackAsm.Proofs.Declaration.Effect
import StackAsm.Proofs.Expansion.Nesting
import StackAsm.Proofs.Expression.Evaluation
import StackAsm.Proofs.Listing
import StackAsm.Proofs.Pool
import StackAsm.Proofs.Declaration.Reading
import StackAsm.Proofs.Declaration.Names
import StackAsm.Proofs.Declaration.Tables
import StackAsm.Proofs.Layout.Symbols
import StackAsm.Proofs.Linking
import StackAsm.Proofs.Expansion.Emission
import StackAsm.Proofs.Assembly
import StackAsm.Proofs.Assembly.References
import StackAsm.Proofs.Container.Refusals
import StackAsm.Proofs.Assembly.Writing
import StackAsm.Proofs.Assembly.Jumps
import StackAsm.Proofs.Assembly.LongJump
import StackAsm.Proofs.Container.Canonical
import StackAsm.Proofs.Container.Delimited
import StackAsm.Proofs.Listing.Code
import StackAsm.Proofs.Token.Printing
import StackAsm.Proofs.Token.Locations
import StackAsm.Proofs.Expansion.Splicing
import StackAsm.Proofs.Assembly.Diagnostics
import StackAsm.Proofs.Assembly.Mnemonics
import StackAsm.Proofs.Declaration.Outcome
import StackAsm.Proofs.Linking.Order
import StackAsm.Proofs.Expansion.NormalForm
import StackAsm.Proofs.Operand.Exact
import StackAsm.Proofs.Linking.Allocation
import StackAsm.Proofs.Linking.Failure
import StackAsm.Proofs.Layout.Outcome
import StackAsm.Proofs.Assembly.Extensions
import StackAsm.Proofs.InstructionSet.Consistency
import StackAsm.Proofs.Pool.History
import StackAsm.Proofs.Expansion.Resumption
import StackAsm.Proofs.Expansion.LineStructure
import StackAsm.Proofs.Container.Sinks
import StackAsm.Proofs.Token.LineEndings
import StackAsm.Proofs.Declaration.Order
import StackAsm.Proofs.Declaration.Constants
import StackAsm.Proofs.Token.Locality
import StackAsm.Proofs.Expression.Discipline
import StackAsm.Proofs.Width.Codec
