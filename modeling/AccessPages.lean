import AccessPages.Common.Table
import AccessPages.Common.Prog
import AccessPages.Common.Pool
import AccessPages.Common.Python
import AccessPages.Common.Http
import AccessPages.Pages.Model
import AccessPages.Pages.Store
import AccessPages.Pages.Helpers
import AccessPages.Pages.Durable
import AccessPages.Pages.Masking
import AccessPages.Pages.Cleanup
import AccessPages.Pages.Readers
import AccessPages.Pages.RoundTrip
import AccessPages.Pages.Stored
import AccessPages.Pages.Failures
import AccessPages.Pages.Isolation
import AccessPages.RateLimit.SlidingWindow
import AccessPages.Sessions.Model
import AccessPages.Sessions.Helpers
import AccessPages.Sessions.Integrity
import AccessPages.Sessions.Challenges
import AccessPages.HomeAssistant.Model
import AccessPages.Broker.Model
import AccessPages.Broker.Requests
import AccessPages.Broker.Helpers
import AccessPages.Broker.SingleUse
import AccessPages.Broker.Revocation
import AccessPages.Broker.Verification
import AccessPages.Broker.Action
import AccessPages.Broker.Dispatch
import AccessPages.Broker.Views
import AccessPages.Broker.Handler
import AccessPages.Broker.Binding
import AccessPages.Broker.DeadGrants
import AccessPages.Guest.Request
import AccessPages.Guest.Service
import AccessPages.Guest.Endpoint
import AccessPages.Guest.Binding
import AccessPages.Common.Server
import AccessPages.Common.IsoText
import AccessPages.Common.CappedLog
import AccessPages.Activity.Model
import AccessPages.LayerV.Model
import AccessPages.LayerV.Resources
import AccessPages.LayerV.Grants
import AccessPages.LayerV.Phases
import AccessPages.LayerV.Discipline
import AccessPages.LayerV.Walk
import AccessPages.LayerV.Lifecycle
import AccessPages.LayerV.Enrollment
import AccessPages.LayerV.Invitations
import AccessPages.LayerV.Records
import AccessPages.LayerV.Serving
import AccessPages.LayerV.Creating
import AccessPages.LayerV.Ownership
import AccessPages.LayerV.Authorized
import AccessPages.LayerV.Handoff
import AccessPages.LayerV.Seeding
import AccessPages.LayerV.Fixpoint
import AccessPages.Guest.Routes
import AccessPages.Connectors.Runs
import AccessPages.LayerV.Naming
import AccessPages.RateLimit.MinimumInterval
import AccessPages.Activity.Caps
import AccessPages.LayerV.Inventory
import AccessPages.Broker.Advertised
import AccessPages.Common.Relational
import AccessPages.HomeAssistant.Public
import AccessPages.Broker.Unseen
import AccessPages.Broker.Guesses
import AccessPages.HomeAssistant.Discovery
import AccessPages.HomeAssistant.Brokered
import AccessPages.Admin.Model
import AccessPages.Admin.Handlers
import AccessPages.Admin.EntityPolicy
import AccessPages.Admin.Grants
import AccessPages.Admin.Publication
import AccessPages.Admin.Retries
import AccessPages.Admin.Revocations
import AccessPages.Admin.PolicyStore
import AccessPages.Common.Base64
import AccessPages.Common.IntText
import AccessPages.Admin.Preview
import AccessPages.Admin.PageLock
import AccessPages.Guest.Stages
import AccessPages.Connectors.Diagnostics
