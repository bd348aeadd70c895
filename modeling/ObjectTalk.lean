import ObjectTalk.Inspect
import ObjectTalk.Main
import ObjectTalk.Node.Wire
import ObjectTalk.Proofs.Frames
import ObjectTalk.Proofs.Plan.Values
import ObjectTalk.Proofs.Plan.Invariant
import ObjectTalk.Proofs.Ancestors
import ObjectTalk.Proofs.Ownership
import ObjectTalk.Proofs.Reachable
import ObjectTalk.Proofs.Plan.Ending
import ObjectTalk.Proofs.Termination
import ObjectTalk.Proofs.DepthLimit
import ObjectTalk.Proofs.Plan.Course
import ObjectTalk.Proofs.Occurrence
import ObjectTalk.Proofs.Growth
import ObjectTalk.Proofs.Payloads
import ObjectTalk.Proofs.Orderly
import ObjectTalk.Proofs.Metaclass
import ObjectTalk.Proofs.Scoping
import ObjectTalk.Proofs.Confinement
import ObjectTalk.Proofs.Grammar
import ObjectTalk.Proofs.JsonText
import ObjectTalk.Proofs.ProgramText
import ObjectTalk.Proofs.Watching
import ObjectTalk.Proofs.Plan.Regular
import ObjectTalk.Proofs.DepthBound
import ObjectTalk.Proofs.Namespaces
import ObjectTalk.Proofs.Bracketing
import ObjectTalk.Proofs.Binding
import ObjectTalk.Proofs.Dispatch
import ObjectTalk.Proofs.Sequencing
import ObjectTalk.Proofs.Allocation
import ObjectTalk.Proofs.DisplayPrograms
import ObjectTalk.Proofs.Arithmetic
import ObjectTalk.Proofs.RestArrays
import ObjectTalk.Proofs.Precedence
import ObjectTalk.Proofs.ConstantPaths
import ObjectTalk.Proofs.Construction
import ObjectTalk.Proofs.Chronicle
import ObjectTalk.Proofs.Rendering
import ObjectTalk.Proofs.Plan.Walk
