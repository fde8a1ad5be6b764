import Pittacus.Wire.Acceptance
import Pittacus.Wire.MemberList
import Pittacus.Wire.Truncation
import Pittacus.Knowledge.Retention
import Pittacus.Knowledge.Log
import Pittacus.Ownership.Runs
import Pittacus.Cluster.Integrity
import Pittacus.AntiEntropy.Completeness
import Pittacus.AntiEntropy.Convergence
import Pittacus.Cluster.Incarnation
import Pittacus.Cluster.Retirement
import Pittacus.Cluster.SelfView
import Pittacus.Membership.Admission
import Pittacus.Membership.Joining
import Pittacus.Membership.Addresses
import Pittacus.Receiving.Rejection
import Pittacus.Outbound.Accounting
import Pittacus.Outbound.Chunks
import Pittacus.Outbound.GivingUp
import Pittacus.Outbound.LinkedRuns
import Pittacus.Clock.Merge
import Pittacus.Clock.Fifo
import Pittacus.Clock.Decoded
import Pittacus.Members.Ordered
import Pittacus.Members.Sample
import Pittacus.Cluster.Acknowledged
import Pittacus.Cluster.Views
import Pittacus.Outbound.Draining
import Pittacus.Outbound.Silence
import Pittacus.Cluster.Compatible
import Pittacus.Members.Mirrored
import Pittacus.Outbound.Amplification
