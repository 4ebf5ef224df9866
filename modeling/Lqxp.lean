import Lqxp.Websocket.Protocol.Safety.Roles
import Lqxp.Websocket.Protocol.Safety.Bans
import Lqxp.Websocket.Protocol.Safety.Communities
import Lqxp.Websocket.Protocol.Safety.Buffering
import Lqxp.Websocket.Protocol.Safety.Membership
import Lqxp.Websocket.Protocol.Safety.Moderation
import Lqxp.Websocket.Protocol.Safety.Ownership
import Lqxp.Websocket.Protocol.Safety.Previews
import Lqxp.Websocket.Protocol.Safety.Forgetting
import Lqxp.Accounts.Safety.Authorship
import Lqxp.Accounts.Safety.Removal
import Lqxp.Accounts.Safety.Recovery
import Lqxp.Accounts.Safety.Renaming
import Lqxp.Gates.DelayChallenges
import Lqxp.Gates.Nullifiers
import Lqxp.Gates.Bundles
import Lqxp.Services.Phantom.Deposit
import Lqxp.Services.Phantom.Delivery
import Lqxp.Services.Phantom.Bounds
import Lqxp.Services.Phantom.Spelling
import Lqxp.Core.UserList.Completeness
import Lqxp.Core.Security.Sharing
import Lqxp.Core.SocialBlob
import Lqxp.Websocket.Protocol.Safety.Relay
import Lqxp.Websocket.Protocol.Safety.Sanctions
import Lqxp.Presence.Consistency
import Lqxp.Presence.Uniqueness
import Lqxp.Presence.JoinLimit
import Lqxp.Presence.ClosedCalls
import Lqxp.Websocket.Protocol.Safety.Images
import Lqxp.Websocket.Protocol.Safety.Profiles
import Lqxp.Web.Preparation
import Lqxp.Core.Pqc.Strictness
import Lqxp.Services.Phantom.Poll
import Lqxp.Server.Routes
import Lqxp.Services.User.Serving
import Lqxp.Services.User.Stripping
import Lqxp.Services.User.Leakage
import Lqxp.Data.Unambiguous
import Lqxp.Services.Phantom.Canonical
import Lqxp.Core.Config.Confinement
import Lqxp.Data.Traversal
import Lqxp.Services.Phantom.Interrupted
import Lqxp.Presence.RefusedCalls
import Lqxp.Data.ReadThrough
import Lqxp.Core.PublicProfiles
import Lqxp.Websocket.Protocol.Impl.PublicProfiles
import Lqxp.Services.Profiles
import Lqxp.Prog.Nested
import Lqxp.Profiles.Tables
import Lqxp.Profiles.Effects
import Lqxp.Profiles.Requests
import Lqxp.Profiles.Coherence
import Lqxp.Gates.DelayProofs
import Lqxp.Services.NonceStore
import Lqxp.Websocket.Protocol.Safety.Polls
import Lqxp.Websocket.Protocol.Safety.Reactions
import Lqxp.Accounts.Purging
import Lqxp.Accounts.Deletion
import Lqxp.Services.Badges
import Lqxp.Core.UserList.Search
import Lqxp.Core.Security.Disguises
import Lqxp.Linkpreview.Targets
import Lqxp.Linkpreview.Fetching
import Lqxp.Data.JsonText
import Lqxp.Data.JsonReader
import Lqxp.Core.Config.TurnServers
import Lqxp.Data.Histogram
import Lqxp.Core.Signups
import Lqxp.Services.Phantom.Expiry
import Lqxp.Services.Phantom.Statements
import Lqxp.Websocket.Protocol.Safety.JpegScan
import Lqxp.Data.EditDistance
import Lqxp.Prog.Issuing
import Lqxp.Gates.Tokens
import Lqxp.Gates.Challenges
import Lqxp.Gates.Deposits
import Lqxp.Websocket.Protocol.Safety.Stealth
import Lqxp.Presence.Mirroring
import Lqxp.Websocket.Protocol.Lemmas.PeerEvents
import Lqxp.Core.Security.Filenames
import Lqxp.Websocket.Protocol.Impl.Signals
import Lqxp.Websocket.Dispatch
import Lqxp.Websocket.Confinement
import Lqxp.Websocket.Connections
import Lqxp.Websocket.Strangers
