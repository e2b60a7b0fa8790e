import ObjectMachine.Budget.Document
import ObjectMachine.Json.Writer
import ObjectMachine.Opcode.Document
import ObjectMachine.Proofs.Ancestry
import ObjectMachine.Proofs.Cleanup
import ObjectMachine.Proofs.Failure
import ObjectMachine.Proofs.Linearization
import ObjectMachine.Proofs.Resolution
import ObjectMachine.Proofs.Transparency
import ObjectMachine.Request
import ObjectMachine.Snapshot.Document
import ObjectMachine.Trace.Report
import ObjectMachine.Proofs.Labels
import ObjectMachine.Proofs.Layout
import ObjectMachine.Proofs.Rethrow
import ObjectMachine.Proofs.Generators
import ObjectMachine.Proofs.Allowance
import ObjectMachine.Proofs.Scoping
import ObjectMachine.Proofs.WellNested
import ObjectMachine.Proofs.Matching
import ObjectMachine.Proofs.Operators
import ObjectMachine.Proofs.Documents
import ObjectMachine.Proofs.Throwing
import ObjectMachine.Proofs.Legality
import ObjectMachine.Proofs.Rendering
import ObjectMachine.Proofs.Progressions
import ObjectMachine.Proofs.Positions
import ObjectMachine.Proofs.Environments
import ObjectMachine.Proofs.Equality
import ObjectMachine.Proofs.Probes
import ObjectMachine.Proofs.Indexing
import ObjectMachine.Proofs.Maps
import ObjectMachine.Proofs.Following
import ObjectMachine.Proofs.Truth
import ObjectMachine.Proofs.OwnMembers
import ObjectMachine.Proofs.Cooperation
import ObjectMachine.Proofs.Powers
import ObjectMachine.Proofs.Profiles
import ObjectMachine.Proofs.Targets
