import Reshape.Mapping.Converters
import Reshape.Proofs.Outcome
import Reshape.Proofs.Depth
import Reshape.Proofs.Pool.Growth
import Reshape.Proofs.Pool.Below
import Reshape.Proofs.Pool.Copyable
import Reshape.Proofs.Program.Scope
import Reshape.Proofs.Program.Access
import Reshape.Proofs.Value.Heap
import Reshape.Proofs.Value.Confined
import Reshape.Proofs.Value.Typing
import Reshape.Proofs.Value.Plain
import Reshape.Proofs.Value.Tree
import Reshape.Proofs.Value.Draft
import Reshape.Proofs.Session.Coherence
import Reshape.Proofs.Session.Live
import Reshape.Proofs.Session.Reachable
import Reshape.Proofs.Session.Mirror
import Reshape.Proofs.Session.Transparency
import Reshape.Proofs.Routine.Transfer
import Reshape.Proofs.Routine.Compiled
import Reshape.Proofs.Routine.Compilable
import Reshape.Proofs.Routine.Image
import Reshape.Proofs.Routine.Imaging
import Reshape.Proofs.Routine.Memberwise
import Reshape.Proofs.Routine.Contract
import Reshape.Proofs.Routine.Confined
import Reshape.Proofs.Routine.Collecting
import Reshape.Proofs.Routine.Frame
import Reshape.Proofs.Routine.Typing
import Reshape.Proofs.Routine.Soundness
import Reshape.Proofs.Routine.Copying
import Reshape.Proofs.Routine.Fidelity
import Reshape.Routine.Depth
import Reshape.Value.Equality
import Reshape.Proofs.Pool.Failure
import Reshape.Proofs.Program.Declared
import Reshape.Proofs.Program.Emitted
import Reshape.Proofs.Session.Ledger
import Reshape.Proofs.Routine.Assignment
import Reshape.Proofs.Routine.Populating
import Reshape.Proofs.Routine.InPlace
import Reshape.Proofs.Pool.Naming
import Reshape.Proofs.Routine.Null
import Reshape.Proofs.Session.Attained
import Reshape.Proofs.Routine.Bodies
import Reshape.Proofs.Routine.Request
import Reshape.Proofs.Routine.Dispatch
import Reshape.Proofs.Value.Finite
import Reshape.Proofs.Session.Settled
import Reshape.Proofs.Routine.Chain
import Reshape.Proofs.Routine.Settling
import Reshape.Proofs.Routine.Sparing
import Reshape.Proofs.Routine.Endless
import Reshape.Proofs.Routine.Ending
import Reshape.Proofs.Routine.State
import Reshape.Proofs.Session.Links
import Reshape.Proofs.Routine.Sharing
import Reshape.Proofs.Routine.Secluded
import Reshape.Proofs.Routine.Converted
import Reshape.Proofs.Pool.Refusal
import Reshape.Proofs.Pool.Interning
import Reshape.Proofs.Pool.Stripping
import Reshape.Proofs.Routine.Enclosed
import Reshape.Proofs.Routine.Unmatched
import Reshape.Proofs.Routine.Appending
import Reshape.Proofs.Routine.OtherShape
import Reshape.Proofs.Routine.Instances
import Reshape.Proofs.Value.Equality
import Reshape.Proofs.Mapping.Correspondence
import Reshape.Proofs.Value.Conversion
import Reshape.Proofs.Program.Planned
import Reshape.Proofs.Routine.Convertible
import Reshape.Proofs.Program.Readable
import Reshape.Proofs.Mapping.Registration
import Reshape.Proofs.Pool.Zero
import Reshape.Proofs.Program.Fault
import Reshape.Proofs.Program.Range
