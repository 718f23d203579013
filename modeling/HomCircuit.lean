import HomCircuit.Logging.DebugFlags
import HomCircuit.Report.Boundary
import HomCircuit.Report.Config
import HomCircuit.Report.Script
import HomCircuit.Schedule.Crew
import HomCircuit.Proofs.Key.Flights
import HomCircuit.Proofs.Program.Fallback
import HomCircuit.Proofs.Program.Outputs
import HomCircuit.Proofs.Schedule.StartOrder
import HomCircuit.Proofs.Remote.Clock
import HomCircuit.Proofs.Schedule.Execution
import HomCircuit.Proofs.Schedule.Course
import HomCircuit.Proofs.Schedule.Lifetime
import HomCircuit.Proofs.Schedule.Chronicle
import HomCircuit.Proofs.Schedule.Buffers
import HomCircuit.Proofs.Schedule.Accounting
import HomCircuit.Proofs.Schedule.Evaluator
import HomCircuit.Proofs.Schedule.Elision
import HomCircuit.Proofs.Key.Recency
import HomCircuit.Proofs.Backend.Memory
import HomCircuit.Proofs.Program.Imports
import HomCircuit.Proofs.Key.Blob
import HomCircuit.Proofs.Program.Custody
import HomCircuit.Proofs.Program.Independence
import HomCircuit.Proofs.Program.Placements
import HomCircuit.Proofs.Program.Residues
import HomCircuit.Proofs.Remote.Acknowledgement
import HomCircuit.Proofs.Schedule.Delegation
import HomCircuit.Proofs.Program.Delegation
import HomCircuit.Proofs.Boundary.Call
import HomCircuit.Proofs.Remote.Frame
import HomCircuit.Proofs.Graph.WellFormed
import HomCircuit.Proofs.Partition.Numbering
import HomCircuit.Proofs.Program.Artifact
import HomCircuit.Proofs.Graph.LeastOrder
import HomCircuit.Proofs.Key.Decryption
import HomCircuit.Proofs.Primitive.Algebra
import HomCircuit.Proofs.Backend.Transparency
import HomCircuit.Proofs.Graph.NodeOrder
import HomCircuit.Proofs.Key.Consistency
import HomCircuit.Proofs.Program.Cancellation
import HomCircuit.Proofs.Program.Transfers
import HomCircuit.Proofs.Partition.Exact
import HomCircuit.Proofs.Config.Precedence
import HomCircuit.Proofs.Logging.Directive
import HomCircuit.Proofs.Graph.Worklist
import HomCircuit.Proofs.Arena.Accounting
