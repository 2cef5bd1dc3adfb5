import SharedObjects.SharedObject.Describe
import SharedObjects.SharedObject.Proposal
import SharedObjects.Hub.Channels
import SharedObjects.Trial
import SharedObjects.Proofs.Cluster.Agreement
import SharedObjects.Proofs.Wire.Domain
import SharedObjects.Proofs.Follower.Arrivals
import SharedObjects.Proofs.Hub.Streams
import SharedObjects.Proofs.Hub.Failing
import SharedObjects.Proofs.Wire.Delimiting
import SharedObjects.Proofs.Wire.Events
import SharedObjects.Proofs.SharedObject.Replicas
import SharedObjects.Proofs.Follower.Reference
import SharedObjects.Proofs.Hub.Publishing
import SharedObjects.Proofs.Hub.Table
import SharedObjects.Proofs.Hub.Isolation
import SharedObjects.Proofs.Wire.Peers
import SharedObjects.Proofs.Wire.Messages
import SharedObjects.Proofs.Follower.Feeding
import SharedObjects.Proofs.Follower.Independence
import SharedObjects.Proofs.Sequencer.History
import SharedObjects.Proofs.SharedObject.Applying
import SharedObjects.Proofs.SharedObject.Discipline
import SharedObjects.Proofs.Hub.Answering
import SharedObjects.Proofs.Value.Reordering
import SharedObjects.Proofs.SharedObject.Congruence
import SharedObjects.Proofs.SharedObject.Conformance
import SharedObjects.Proofs.Members.Ordered
import SharedObjects.Proofs.SharedObject.Relaying
import SharedObjects.Proofs.SharedObject.Proposing
import SharedObjects.Proofs.SharedObject.Membership
import SharedObjects.Proofs.Link.Stretches
import SharedObjects.Proofs.Wire.Labels
import SharedObjects.Proofs.Channels.Delivery
import SharedObjects.Proofs.Hub.Counting
import SharedObjects.Proofs.Wire.Tables
import SharedObjects.Proofs.Hub.Subscriptions
import SharedObjects.Proofs.Wire.Amplification
