import RegisterMachine.Main
import RegisterMachine.Proofs.Assembly.Formatting
import RegisterMachine.Proofs.Machine.Leaks
import RegisterMachine.Proofs.Machine.Progress
import RegisterMachine.Proofs.Machine.RegisterClasses
import RegisterMachine.Proofs.Memory.Bytes
import RegisterMachine.Proofs.Memory.Journal
import RegisterMachine.Proofs.Machine.Calls
import RegisterMachine.Proofs.Machine.Linkage
import RegisterMachine.Proofs.Machine.Provenance
import RegisterMachine.Proofs.Machine.OutgoingArea
import RegisterMachine.Proofs.Renaming.Values
import RegisterMachine.Proofs.Renaming.Memory
import RegisterMachine.Proofs.Renaming.Runs
import RegisterMachine.Proofs.Renaming.Loading
import RegisterMachine.Proofs.Check.Order
import RegisterMachine.Proofs.Check.Loading
import RegisterMachine.Proofs.Renaming.Order
import RegisterMachine.Proofs.Memory.Pointers
import RegisterMachine.Proofs.Machine.Budget
import RegisterMachine.Proofs.CommandLine.Flags
import RegisterMachine.Proofs.Machine.Stepping
import RegisterMachine.Proofs.CommandLine.Running
import RegisterMachine.Proofs.Machine.ExternalCalls
import RegisterMachine.Proofs.Machine.HostResults
import RegisterMachine.Proofs.Environment.Loadable
import RegisterMachine.Proofs.Environment.Image
import RegisterMachine.Proofs.Machine.Spilling
import RegisterMachine.Proofs.Assembly.Concatenation
import RegisterMachine.Proofs.Machine.Operands
import RegisterMachine.Proofs.LetterCase.Texts
import RegisterMachine.Proofs.Machine.Effects
import RegisterMachine.Proofs.Machine.SlotAddressing
import RegisterMachine.Proofs.Assembly.Consumption
import RegisterMachine.Proofs.Machine.ArgumentLocations
import RegisterMachine.Proofs.Check.ParameterRegisters
import RegisterMachine.Proofs.Memory.Encoding
import RegisterMachine.Proofs.Machine.Scripts
import RegisterMachine.Proofs.Assembly.Integers
import RegisterMachine.Proofs.Assembly.Layout
import RegisterMachine.Proofs.Evaluation.Division
import RegisterMachine.Proofs.Evaluation.PointerArithmetic
