import LampLight.Foundation.Machine
import LampLight.Foundation.JsText
import LampLight.Foundation.Table
import LampLight.Schema
import LampLight.Repositories.Entitlements
import LampLight.Access.Predicate
import LampLight.Access.Authoring
import LampLight.Access.AuthorsRead
import LampLight.Env
import LampLight.Tenancy.Host
import LampLight.Cloudflare
import LampLight.Auth.Invitations
import LampLight.Domains.Service
import LampLight.Tenancy.Resolve
import LampLight.Domains.Provision
import LampLight.Domains.Lifecycle
import LampLight.Tenancy.Routing
import LampLight.Domains.Orphans
import LampLight.Domains.Sweep
import LampLight.Domains.Lapsing
import LampLight.Storage.Keys
import LampLight.Storage.Objects
import LampLight.Media.Uploads
import LampLight.Media.Resources
import LampLight.Media.Attachments
import LampLight.Media.Ready
import LampLight.Foundation.Interleave
import LampLight.Media.Replacement
import LampLight.Auth.BetterAuth
import LampLight.Auth.SignUp
import LampLight.Auth.Activation
import LampLight.Auth.Credentials
import LampLight.Auth.Hijack
import LampLight.Auth.Guards
import LampLight.Auth.Enumeration
import LampLight.Domains.Deadlines
import LampLight.Foundation.JsDate
import LampLight.Entitlements.Grants
import LampLight.Entitlements.Office
import LampLight.Entitlements.AuditReplay
import LampLight.Cache.TtlCache
import LampLight.Tenancy.Cached
import LampLight.Tenancy.Invalidation
import LampLight.Auth.Spending
import LampLight.Auth.Issuing
import LampLight.Teach.Confinement
import LampLight.Access.Media
import LampLight.Player.Progress
import LampLight.Tenancy.Isolation
import LampLight.Auth.Profiles
import LampLight.Storage.Filenames
import LampLight.Media.Shelf
import LampLight.Access.LessonMedia
import LampLight.Access.CourseDocuments
import LampLight.Entitlements.Dashboard
import LampLight.Entitlements.Revocation
import LampLight.Domains.Outage
import LampLight.Tenancy.Spelling
import LampLight.Tenancy.Middleware
import LampLight.Tenancy.Claiming
import LampLight.Tenancy.Provisioned
import LampLight.Auth.Reissuing
import LampLight.Domains.Primary
import LampLight.Foundation.Positions
import LampLight.Teach.Appending
import LampLight.Teach.AppendOrder
import LampLight.Player.Listening
import LampLight.Signup.Answers
import LampLight.Foundation.JsNumber
import LampLight.Theme.Tokens
import LampLight.Theme.Rendering
import LampLight.Theme.Saving
import LampLight.Cache.Refinement
import LampLight.Theme.Copy
import LampLight.Teach.Listing
import LampLight.Foundation.Pattern
import LampLight.Markdown.Render
import LampLight.Markdown.Spans
import LampLight.Markdown.Blocks
import LampLight.Foundation.RowSecurity
import LampLight.Tenancy.Policies
import LampLight.Tenancy.Pool
import LampLight.Tenancy.Alone
import LampLight.Player.Track
import LampLight.Player.Provider
import LampLight.Player.Resuming
import LampLight.Domains.Standing
import LampLight.Auth.Cooldown
import LampLight.Signup.Saving
import LampLight.Signup.Intake
import LampLight.Auth.Links
import LampLight.Auth.Welcome
import LampLight.Foundation.Urls
import LampLight.Auth.Journey
