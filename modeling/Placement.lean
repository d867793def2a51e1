import Placement.Copy.Crossing
import Placement.Copy.Insertion
import Placement.Graph.DepthFirst
import Placement.Graph.Evaluation
import Placement.Proofs.Copy.Idempotence
import Placement.Proofs.Copy.Meaning
import Placement.Proofs.Graph.Outcome
import Placement.Proofs.Copy.Mediation
import Placement.Proofs.Copy.Outcome
import Placement.Proofs.Graph.DepthFirst
import Placement.Proofs.Numbering.Faithful
import Placement.Proofs.Graph.Relabelling
import Placement.Proofs.Numbering.Relabelling
import Placement.Proofs.Copy.Relabelling
import Placement.Proofs.Numbering.Outcome
import Placement.Proofs.Copy.Publication
import Placement.Proofs.Copy.Safety
import Placement.Proofs.Copy.Trace
import Placement.Proofs.Operator.DeviceCopy
import Placement.Proofs.Pass.Sequence
import Placement.Proofs.Copy.Demand
import Placement.Proofs.Copy.Naming
import Placement.Proofs.Registration
import Placement.Proofs.Attribute.History
import Placement.Proofs.Graph.Reading
