import ThrottleVpn.App.ApplyCaps
import ThrottleVpn.App.SettingsScreen
import ThrottleVpn.Foundation.Buckets
import ThrottleVpn.Foundation.Lookup
import ThrottleVpn.Foundation.Refinement
import ThrottleVpn.Foundation.Regulators
import ThrottleVpn.Foundation.Runs
import ThrottleVpn.Foundation.Sections
import ThrottleVpn.Foundation.Threads
import ThrottleVpn.Limiter.Bounded
import ThrottleVpn.Limiter.Drift
import ThrottleVpn.Limiter.Exactness
import ThrottleVpn.Limiter.Levels
import ThrottleVpn.Limiter.Observation
import ThrottleVpn.Limiter.Pacing
import ThrottleVpn.Limiter.RateLimiter
import ThrottleVpn.Limiter.Solvency
import ThrottleVpn.Limiter.Switching
import ThrottleVpn.Limiter.Waiting
import ThrottleVpn.Service.Engines
import ThrottleVpn.Service.FailedStarts
import ThrottleVpn.Service.Lifecycle
import ThrottleVpn.Service.Networks
import ThrottleVpn.Service.PublishedCaps
import ThrottleVpn.Service.Sampling
import ThrottleVpn.Service.State
import ThrottleVpn.Service.Statistics
import ThrottleVpn.Service.Steps
import ThrottleVpn.Service.Stopping
import ThrottleVpn.Service.TunLifetime
import ThrottleVpn.Speed.Workers
import ThrottleVpn.Tun2Socks.Acks
import ThrottleVpn.Tun2Socks.Caps
import ThrottleVpn.Tun2Socks.Checksums
import ThrottleVpn.Tun2Socks.Datagrams
import ThrottleVpn.Tun2Socks.Decoding
import ThrottleVpn.Tun2Socks.Designated
import ThrottleVpn.Tun2Socks.Dialogue
import ThrottleVpn.Tun2Socks.Download
import ThrottleVpn.Tun2Socks.EventLoop
import ThrottleVpn.Tun2Socks.FailedWrites
import ThrottleVpn.Tun2Socks.Forwarding
import ThrottleVpn.Tun2Socks.HalfClose
import ThrottleVpn.Tun2Socks.Handlers
import ThrottleVpn.Tun2Socks.Headers
import ThrottleVpn.Tun2Socks.Isolation
import ThrottleVpn.Tun2Socks.Metering
import ThrottleVpn.Tun2Socks.PendingBuffer
import ThrottleVpn.Tun2Socks.PollSet
import ThrottleVpn.Tun2Socks.Protection
import ThrottleVpn.Tun2Socks.Relay
import ThrottleVpn.Tun2Socks.Removals
import ThrottleVpn.Tun2Socks.Resets
import ThrottleVpn.Tun2Socks.Rounds
import ThrottleVpn.Tun2Socks.Sessions
import ThrottleVpn.Tun2Socks.Slices
import ThrottleVpn.Tun2Socks.Sockets
import ThrottleVpn.Tun2Socks.State
import ThrottleVpn.Tun2Socks.Steps
import ThrottleVpn.Tun2Socks.Streams
import ThrottleVpn.Tun2Socks.SynRetransmission
import ThrottleVpn.Tun2Socks.Tables
import ThrottleVpn.Tun2Socks.Teardown
import ThrottleVpn.Tun2Socks.Throughput
import ThrottleVpn.Tun2Socks.UdpRelay
import ThrottleVpn.Tun2Socks.Upload
import ThrottleVpn.Tun2Socks.Versions
import ThrottleVpn.Tun2Socks.Writer
