import WispersAccess.Host.GuestNumbers
import WispersAccess.Host.SelfRemoval
import WispersAccess.Host.RevokeFailures
import WispersAccess.Host.Confinement
import WispersAccess.Host.Dialing
import WispersAccess.Host.Handlers
import WispersAccess.Host.StreamOpening
import WispersAccess.Wire.Versions
import WispersAccess.Guest.Retry
import WispersAccess.Guest.Sweep
import WispersAccess.Guest.Leftovers
import WispersAccess.Guest.Lookup
import WispersAccess.Guest.ProxiedOrigins
import WispersAccess.Guest.PairingRuns
import WispersAccess.Guest.Invites
import WispersAccess.Guest.BoundPorts
import WispersAccess.Guest.Leaving
import WispersAccess.Guest.ShareIsolation
import WispersAccess.Guest.LoneRefresh
import WispersAccess.Guest.Snapshot
import WispersAccess.Host.Redemption
import WispersAccess.Guest.ShareInfoWrite
import WispersAccess.Guest.SpentTokens
import WispersAccess.Guest.CookieSearch
import WispersAccess.Guest.CacheRuns
import WispersAccess.Guest.PortReleases
import WispersAccess.Desktop.ShareChecks
import WispersAccess.Desktop.Certificates
import WispersAccess.Desktop.ProfileArguments
import WispersAccess.Desktop.ProfilePorts
import WispersAccess.Desktop.SavedCertificates
import WispersAccess.Host.Ipc
import WispersAccess.Host.AcceptedConfigs
import WispersAccess.Host.InviteStatus
import WispersAccess.Guest.CookieStripping
import WispersAccess.Guest.CredentialMatch
import WispersAccess.Host.Initialization
import WispersAccess.Host.LogTail
import WispersAccess.Guest.SecretFiles
import WispersAccess.Guest.LoopbackForwarders
import WispersAccess.Host.QrRendering
import WispersAccess.Guest.SocketOwner
import WispersAccess.Guest.AppRequests
import WispersAccess.Guest.AppStreams
import WispersAccess.Host.Forwarding
import WispersAccess.Host.ShareEvents
import WispersAccess.Ios.BrowseSessions
import WispersAccess.Host.LiveGuests
import WispersAccess.Host.FleetReport
import WispersAccess.Guest.LoopbackStreams
import WispersAccess.Desktop.AppSecrets
import WispersAccess.Host.ClosedConnections
import WispersAccess.Android.ForwardProxyHolder
