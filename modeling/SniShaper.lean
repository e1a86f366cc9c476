import SniShaper.Tls.DeclaredMessage
import SniShaper.Tls.Segments
import SniShaper.Route.Selection
import SniShaper.Route.Upstreams
import SniShaper.Front.Http
import SniShaper.Upstream.ServerName
import SniShaper.Config.Freshness
import SniShaper.Config.Commands
import SniShaper.Config.SettingsFile
import SniShaper.Cert.Cache
import SniShaper.Cert.Manager
import SniShaper.Front.Sockets
import SniShaper.Route.Locking
import SniShaper.Doh.Bootstrap
import SniShaper.Doh.QuicLookup
import SniShaper.Runtime.Start
import SniShaper.Pool.Rest
import SniShaper.Runtime.Generations
import SniShaper.Front.Handshake
import SniShaper.Config.Mutations
import SniShaper.Doh.Failover
import SniShaper.Cert.Files
import SniShaper.Runtime.Dashboard
import SniShaper.Upstream.CertVerify
import SniShaper.Upstream.Ledger
import SniShaper.Front.Reports
import SniShaper.Front.Decision
import SniShaper.Pool.Promotion
import SniShaper.Route.Families
import SniShaper.Config.Priority
import SniShaper.Config.Reload
import SniShaper.Route.CloudflareCheck
import SniShaper.Upstream.Verdict
import SniShaper.Front.Headers
import SniShaper.Config.MergeKey
import SniShaper.Tun.Manager
import SniShaper.Ech.Config
import SniShaper.Ech.Handshake
