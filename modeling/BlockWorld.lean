import BlockWorld.Config.Decode
import BlockWorld.Proofs.Admission
import BlockWorld.Proofs.Alteration
import BlockWorld.Proofs.Announcement
import BlockWorld.Proofs.Blind
import BlockWorld.Proofs.Coherence
import BlockWorld.Proofs.Deed
import BlockWorld.Proofs.Independence
import BlockWorld.Proofs.Inert
import BlockWorld.Proofs.Protocol
import BlockWorld.Proofs.Reception
import BlockWorld.Proofs.Radius
import BlockWorld.Proofs.Report
import BlockWorld.Proofs.Speaker
import BlockWorld.Proofs.Speech
import BlockWorld.Proofs.Teardown
import BlockWorld.Proofs.Visibility
import BlockWorld.Proofs.Whole
import BlockWorld.Server.Run
import BlockWorld.Proofs.Overflow
import BlockWorld.Proofs.Refusal
import BlockWorld.Proofs.Clock
import BlockWorld.Proofs.Concurrence
import BlockWorld.Proofs.Shutdown
import BlockWorld.Proofs.Attributes
import BlockWorld.Proofs.Verdict
import BlockWorld.Proofs.Position
import BlockWorld.Proofs.Disc
import BlockWorld.Proofs.Lineage
import BlockWorld.Proofs.Groups
import BlockWorld.Proofs.Overrides
import BlockWorld.Proofs.Difference
import BlockWorld.Proofs.Uuid
import BlockWorld.Proofs.Validation
import BlockWorld.Proofs.Assembly
import BlockWorld.Proofs.Membership
import BlockWorld.Proofs.Bounds
import BlockWorld.Proofs.Culling
import BlockWorld.Proofs.Complement
import BlockWorld.Proofs.Appearance
import BlockWorld.Proofs.Columns
import BlockWorld.Proofs.DefaultGroup
import BlockWorld.Proofs.Index
