import MeteredScript.Natives
import MeteredScript.Program.Builder
import MeteredScript.Program.Display
import MeteredScript.Program.Evaluate
import MeteredScript.Proofs.Accounting
import MeteredScript.Proofs.Evaluation.Folding
import MeteredScript.Proofs.Program.Bounds
import MeteredScript.Proofs.Program.Ownership
import MeteredScript.Proofs.Quota
import MeteredScript.Proofs.Sandbox.Confinement
import MeteredScript.Proofs.Signals
import MeteredScript.Proofs.Splitting
import MeteredScript.Proofs.Termination
import MeteredScript.Proofs.Typing
import MeteredScript.Proofs.Views
import MeteredScript.Proofs.Naming
import MeteredScript.Proofs.Evaluation.Bindings
import MeteredScript.Proofs.Pricing
import MeteredScript.Proofs.Scoping
import MeteredScript.Proofs.Variables
import MeteredScript.Proofs.MapCopies
import MeteredScript.Proofs.Refusals
import MeteredScript.Proofs.Sandbox.References
import MeteredScript.Proofs.Sorting
import MeteredScript.Proofs.ListCopies
import MeteredScript.Proofs.Ranges
import MeteredScript.Proofs.Leaving
import MeteredScript.Proofs.Scope.Assignments
import MeteredScript.Proofs.Keys
import MeteredScript.Proofs.Appending
import MeteredScript.Proofs.BuilderCalls
import MeteredScript.Proofs.Equality
import MeteredScript.Proofs.Rereading
import MeteredScript.Proofs.Integers
import MeteredScript.Proofs.Joining
