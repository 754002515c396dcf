import Libtuntap.Proofs.Ownership
import Libtuntap.Proofs.FailedStart
import Libtuntap.Proofs.SetIp
import Libtuntap.Proofs.Ifname
import Libtuntap.Proofs.Hwaddr
import Libtuntap.Proofs.Flags
import Libtuntap.Proofs.Readable
import Libtuntap.Proofs.StartDomain
import Libtuntap.Proofs.Addressing
import Libtuntap.Proofs.Honesty
import Libtuntap.Proofs.Lifetime
import Libtuntap.Proofs.Select
import Libtuntap.Proofs.FailedSetIp
import Libtuntap.Proofs.Inet6
import Libtuntap.Proofs.Scan
import Libtuntap.Proofs.Create
import Libtuntap.Proofs.Lladdr
import Libtuntap.Windows.Call
import Libtuntap.Windows.Tuntap
import Libtuntap.Proofs.RegQuery
import Libtuntap.Proofs.OpenCandidate
import Libtuntap.Proofs.Adapters
import Libtuntap.Effect.Interleave
import Libtuntap.Proofs.TimedIo
import Libtuntap.Effect.Threads
import Libtuntap.Proofs.Consumers
import Libtuntap.Proofs.ModeFlags
import Libtuntap.CMem.Hex
import Libtuntap.CMem.Mac
import Libtuntap.Proofs.HwaddrText
import Libtuntap.Proofs.Descr
import Libtuntap.CMem.Format
import Libtuntap.Unix.Log
import Libtuntap.Proofs.Hexdump
import Libtuntap.Proofs.HexdumpRead
import Libtuntap.CMem.OnesComplement
import Libtuntap.Proofs.Checksum
import Libtuntap.Proofs.NameCopy
import Libtuntap.Proofs.RandomHwaddr
import Libtuntap.Effect.Shares
import Libtuntap.Proofs.Holds
import Libtuntap.Proofs.Isolation
import Libtuntap.Effect.Simulation
import Libtuntap.Proofs.Idle
import Libtuntap.Proofs.Tunnel
import Libtuntap.Proofs.Refinement
import Libtuntap.Proofs.Readback
import Libtuntap.Effect.Unique
import Libtuntap.Cpp.Tuntap
import Libtuntap.Proofs.Binding
import Libtuntap.Proofs.BindingLinux
import Libtuntap.Effect.Embed
import Libtuntap.Effect.Accounts
import Libtuntap.Windows.Api
import Libtuntap.Proofs.WindowsHandles
import Libtuntap.Windows.Tap
import Libtuntap.Proofs.TapRuns
import Libtuntap.Proofs.OwnershipUnix
import Libtuntap.CMem.Lines
import Libtuntap.Effect.Hook
import Libtuntap.Unix.Callback
import Libtuntap.Proofs.Controls
import Libtuntap.Proofs.Callback
import Libtuntap.Effect.FailStop
import Libtuntap.Proofs.Refusals
import Libtuntap.Effect.History
import Libtuntap.Proofs.Transfers
import Libtuntap.Proofs.Confined
import Libtuntap.Proofs.Taken
import Libtuntap.Proofs.WholeLife
