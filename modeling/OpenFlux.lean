import OpenFlux.Algorithm.Base64
import OpenFlux.Algorithm.DuplicateFilter
import OpenFlux.Algorithm.EventSystem
import OpenFlux.Algorithm.JsonIndent
import OpenFlux.Algorithm.JsonText
import OpenFlux.Algorithm.LengthPrefixed
import OpenFlux.Algorithm.LineReader
import OpenFlux.Algorithm.OnesComplement
import OpenFlux.Algorithm.Openings
import OpenFlux.Algorithm.Overwrite
import OpenFlux.Algorithm.Regex
import OpenFlux.Algorithm.Responder
import OpenFlux.Algorithm.RingBuffer
import OpenFlux.Algorithm.Strip
import OpenFlux.Algorithm.TextSearch
import OpenFlux.Algorithm.Threads
import OpenFlux.App.AccessKey
import OpenFlux.App.ApiCalls
import OpenFlux.App.ControlApi
import OpenFlux.App.DnsTcpRelay
import OpenFlux.App.EncryptionKey
import OpenFlux.App.Equiv.AccessKey
import OpenFlux.App.Equiv.ApiCalls
import OpenFlux.App.Equiv.ControlApi
import OpenFlux.App.Equiv.DnsTcpRelay
import OpenFlux.App.Equiv.EncryptionKey
import OpenFlux.App.Equiv.HysteriaUdpRelay
import OpenFlux.App.Equiv.Installer
import OpenFlux.App.Equiv.Launch
import OpenFlux.App.Equiv.NativeArgs
import OpenFlux.App.Equiv.Recovery
import OpenFlux.App.Equiv.Redact
import OpenFlux.App.Equiv.SafeLog.Masks
import OpenFlux.App.Equiv.SafeLog.Message
import OpenFlux.App.Equiv.SafeLog.Patterns
import OpenFlux.App.Equiv.SafeLog.Tidy
import OpenFlux.App.Equiv.SavedAdminPassword
import OpenFlux.App.Equiv.Shutdown
import OpenFlux.App.Equiv.Supervisor
import OpenFlux.App.Equiv.TailOutputStream
import OpenFlux.App.Equiv.Tunnel
import OpenFlux.App.Equiv.TunnelPayload
import OpenFlux.App.Equiv.TunnelRepository
import OpenFlux.App.Equiv.TunnelsViewModel
import OpenFlux.App.HysteriaUdpRelay
import OpenFlux.App.Installer
import OpenFlux.App.Kotlinx
import OpenFlux.App.NativeArgs
import OpenFlux.App.SafeLog
import OpenFlux.App.SavedAdminPassword
import OpenFlux.App.Socks5
import OpenFlux.App.SocksVpnService
import OpenFlux.App.Strings
import OpenFlux.App.Supervisor
import OpenFlux.App.TailOutputStream
import OpenFlux.App.Tunnel
import OpenFlux.App.TunnelRepository
import OpenFlux.App.TunnelsViewModel
import OpenFlux.App.Utf16
import OpenFlux.App.Utf8
import OpenFlux.Control.Disk
import OpenFlux.Control.Equiv.Disk
import OpenFlux.Control.Equiv.Open
import OpenFlux.Control.Equiv.Secret
import OpenFlux.Control.Equiv.Server
import OpenFlux.Control.Equiv.Store
import OpenFlux.Control.Secret
import OpenFlux.Control.Server
import OpenFlux.Control.Store
import OpenFlux.Go.Base64
import OpenFlux.Go.Bytes
import OpenFlux.Go.Chan
import OpenFlux.Go.Dynamic
import OpenFlux.Go.Flag
import OpenFlux.Go.Json
import OpenFlux.Go.JsonRead
import OpenFlux.Go.JsonStruct
import OpenFlux.Go.Net
import OpenFlux.Go.Path
import OpenFlux.Go.Runes
import OpenFlux.Go.Scan
import OpenFlux.Go.Slice
import OpenFlux.Go.Strconv
import OpenFlux.Go.Strings
import OpenFlux.Go.Time
import OpenFlux.Go.TimeText
import OpenFlux.Go.Timer
import OpenFlux.Go.Url
import OpenFlux.Go.Utf8
import OpenFlux.L3.Checked
import OpenFlux.L3.Conntrack
import OpenFlux.L3.Equiv.Checked
import OpenFlux.L3.Equiv.Exit
import OpenFlux.L3.Equiv.Flow
import OpenFlux.L3.Equiv.Fragments
import OpenFlux.L3.Equiv.Remembered
import OpenFlux.L3.Equiv.Reuse
import OpenFlux.L3.Equiv.Run
import OpenFlux.L3.Equiv.Secured
import OpenFlux.L3.Exit
import OpenFlux.L3.Flow
import OpenFlux.L3.Run
import OpenFlux.Main.Encryption
import OpenFlux.Main.Equiv.Encryption
import OpenFlux.Main.Flags
import OpenFlux.Network.Checksum
import OpenFlux.Network.Equiv.Checksum
import OpenFlux.Socks5.Equiv.Connect
import OpenFlux.Socks5.Equiv.Segments
import OpenFlux.Socks5.Server
import OpenFlux.Transport.BatchLoop
import OpenFlux.Transport.Batched
import OpenFlux.Transport.Compressed
import OpenFlux.Transport.Cupsonline
import OpenFlux.Transport.Cupsonline.Client
import OpenFlux.Transport.Cupsonline.Flows
import OpenFlux.Transport.Cupsonline.Room
import OpenFlux.Transport.Cupsonline.Sends
import OpenFlux.Transport.Cupsonline.Stack
import OpenFlux.Transport.Docs
import OpenFlux.Transport.Docs.Threads
import OpenFlux.Transport.DocsSession
import OpenFlux.Transport.Encrypted
import OpenFlux.Transport.Equiv.BatchLimits
import OpenFlux.Transport.Equiv.BatchLoop
import OpenFlux.Transport.Equiv.Batched
import OpenFlux.Transport.Equiv.Cupsonline.Client
import OpenFlux.Transport.Equiv.Cupsonline.Flows
import OpenFlux.Transport.Equiv.Cupsonline.Room
import OpenFlux.Transport.Equiv.Cupsonline.Sends
import OpenFlux.Transport.Equiv.Docs
import OpenFlux.Transport.Equiv.Docs.KeepAlive
import OpenFlux.Transport.Equiv.Docs.Restart
import OpenFlux.Transport.Equiv.Docs.Sessions
import OpenFlux.Transport.Equiv.Docs.Stop
import OpenFlux.Transport.Equiv.DocsSession
import OpenFlux.Transport.Equiv.Encrypted
import OpenFlux.Transport.Equiv.Framing
import OpenFlux.Transport.Equiv.Legacy
import OpenFlux.Transport.Equiv.Lifecycle
import OpenFlux.Transport.Equiv.Oneme.CallHandler
import OpenFlux.Transport.Equiv.Oneme.CallHelper
import OpenFlux.Transport.Equiv.Oneme.Client
import OpenFlux.Transport.Equiv.Oneme.Exchange
import OpenFlux.Transport.Equiv.Oneme.Receiver
import OpenFlux.Transport.Equiv.Oneme.Relay
import OpenFlux.Transport.Equiv.Peers
import OpenFlux.Transport.Equiv.Records
import OpenFlux.Transport.Equiv.Replay
import OpenFlux.Transport.Equiv.SeenNonces
import OpenFlux.Transport.Equiv.Stack
import OpenFlux.Transport.Equiv.Stops
import OpenFlux.Transport.Equiv.Tapped
import OpenFlux.Transport.Equiv.Volga
import OpenFlux.Transport.Equiv.Volga.Relay
import OpenFlux.Transport.Equiv.Volga.Stop
import OpenFlux.Transport.Equiv.Yandex.Detect
import OpenFlux.Transport.Framing
import OpenFlux.Transport.Legacy
import OpenFlux.Transport.Mailru
import OpenFlux.Transport.Oneme.Client
import OpenFlux.Transport.Oneme.Receiver
import OpenFlux.Transport.Oneme.Relay
import OpenFlux.Transport.Peers
import OpenFlux.Transport.Records
import OpenFlux.Transport.SeenNonces
import OpenFlux.Transport.Stack
import OpenFlux.Transport.Volga
import OpenFlux.Transport.Yandex
import OpenFlux.Transport.Yandex.Detect
import OpenFlux.Tun.Equiv.Routes
import OpenFlux.Tun.Equiv.Shutdown
import OpenFlux.Tun.Equiv.Watch
import OpenFlux.Tun.Routes
import OpenFlux.Tun.Watch
import OpenFlux.Tunnel.Dns
import OpenFlux.Tunnel.Equiv.Dns
import OpenFlux.Tunnel.Equiv.Relay
import OpenFlux.Tunnel.Equiv.Windivert
import OpenFlux.Tunnel.Relay
import OpenFlux.Tunnel.Windivert
