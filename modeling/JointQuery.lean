import JointQuery.Node.Intake
import JointQuery.Node.Run
import JointQuery.Proofs.Config.Override
import JointQuery.Proofs.Domain.Enumeration
import JointQuery.Proofs.Domain.Walk
import JointQuery.Proofs.Message.Lines
import JointQuery.Proofs.Node.Acceptance
import JointQuery.Proofs.Node.Answer
import JointQuery.Proofs.Node.Climbing
import JointQuery.Proofs.Node.Departure
import JointQuery.Proofs.Node.Expiry
import JointQuery.Proofs.Node.Lifecycle
import JointQuery.Proofs.Node.Losses
import JointQuery.Proofs.Node.Missing
import JointQuery.Proofs.Node.Outcomes
import JointQuery.Proofs.Node.Outlook
import JointQuery.Proofs.Node.Provisions
import JointQuery.Proofs.Node.Reaching
import JointQuery.Proofs.Node.Retrying
import JointQuery.Proofs.Node.Stream
import JointQuery.Proofs.Node.Traffic
import JointQuery.Proofs.Query.Wire
import JointQuery.Proofs.Session.Counters
import JointQuery.Proofs.Session.Growth
