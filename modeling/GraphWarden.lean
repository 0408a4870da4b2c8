import GraphWarden.Main
import GraphWarden.Settings
import GraphWarden.Tagged.Reader
import GraphWarden.Proofs.Schema.Formed
import GraphWarden.Proofs.Warden.Descriptors
import GraphWarden.Proofs.Warden.Governing
import GraphWarden.Proofs.Warden.Modes
import GraphWarden.Proofs.Warden.Outage
import GraphWarden.Proofs.Warden.PasswordCheck
import GraphWarden.Proofs.Warden.Query
import GraphWarden.Proofs.Warden.Refusal
import GraphWarden.Proofs.Warden.Rejected
import GraphWarden.Proofs.Warden.Repeated
import GraphWarden.Proofs.Warden.Routes
import GraphWarden.Proofs.Warden.Transparency
import GraphWarden.Proofs.Warden.Unknown
import GraphWarden.Proofs.Write.Reach
import GraphWarden.Proofs.Write.Through
import GraphWarden.Proofs.Position.Everywhere
import GraphWarden.Proofs.Store.Places
import GraphWarden.Proofs.Warden.UnionEdges
import GraphWarden.Proofs.Schema.Exact
import GraphWarden.Proofs.Rule.Apart
import GraphWarden.Proofs.Rule.Cascade
import GraphWarden.Proofs.Warden.Limited
import GraphWarden.Proofs.Rule.Bound
import GraphWarden.Proofs.Rule.MoreClaims
import GraphWarden.Proofs.Timeline.Retries
import GraphWarden.Proofs.Timeline.Deadline
import GraphWarden.Proofs.Rule.Remaining
import GraphWarden.Proofs.Rule.RoleText
import GraphWarden.Proofs.Schema.Written
import GraphWarden.Proofs.Store.Limits
import GraphWarden.Proofs.Memo.History
import GraphWarden.Proofs.Claims.Paths
import GraphWarden.Proofs.Filter.Argument
import GraphWarden.Proofs.Rule.Unbound
import GraphWarden.Proofs.Schema.Cycle
import GraphWarden.Proofs.Warden.Adding
import GraphWarden.Proofs.Warden.Explained
import GraphWarden.Proofs.Warden.Excluded
