import KosKernel.HeapHistory
import KosKernel.VmmKernelHalf
import KosKernel.HandleStale
import KosKernel.HandleReferences
import KosKernel.SocketLifetime
import KosKernel.BlockCacheTransparency
import KosKernel.BlockCacheLoss
import KosKernel.MutexExclusion
import KosKernel.WaitWakeups
import KosKernel.BlockTransfers
import KosKernel.TcpSend
import KosKernel.TcpChecksum
import KosKernel.Ipv4RoundTrip
import KosKernel.WireDelivery
import KosKernel.VolumeRouting
import KosKernel.ElfFidelity
import KosKernel.TlsNonces
import KosKernel.TlsAuthentication
import KosKernel.TlsStream
import KosKernel.TlsBounds
import KosKernel.KpkgAuthenticity
import KosKernel.InstallerVersions
import KosKernel.Poly1305Tag
import KosKernel.RecordRoundTrip
import KosKernel.X25519Encoding
import KosKernel.X509Safety
import KosKernel.DerElements
import KosKernel.HkdfExpansion
import KosKernel.UdpDelivery
import KosKernel.PackageRegistration
import KosKernel.ProcessWaits
import KosKernel.DhcpLease
import KosKernel.ThreadExits
import KosKernel.PmmCompleteness
import KosKernel.TransmitRing
import KosKernel.DiskCompletions
import KosKernel.RoundRobin
import KosKernel.EventLocks
import KosKernel.SymbolLookup
