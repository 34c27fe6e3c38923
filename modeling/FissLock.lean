import FissLock.Cluster.Commute
import FissLock.Cluster.EarlyQueue
import FissLock.Cluster.Progress
import FissLock.Cluster.Requests
import FissLock.Manager.RemoteSteps
import FissLock.OneHost.Stranded
import FissLock.OneHost.Wired
import FissLock.Host.Network
import FissLock.Host.Registry
import FissLock.Host.Registration
import FissLock.Host.SharedDirectory
import FissLock.Recovery.Barrier
import FissLock.Recovery.Counters
import FissLock.Recovery.PurgeLoop
import FissLock.Sidecar.TryAcquire
import FissLock.Exchange.FastPath
import FissLock.Exchange.WaitQueue
import FissLock.Host.Release
import FissLock.Switch.Registers
import FissLock.Baseline.NetLock
import FissLock.Baseline.NetLockSwitch
import FissLock.Baseline.NetLockLayout
import FissLock.Baseline.ParLock
import FissLock.Baseline.ParLockPaths
import FissLock.Baseline.ParLockFifo
import FissLock.Baseline.GrantFlags
import FissLock.Baseline.SharedRequests
import FissLock.Wire.Bytes
import FissLock.TryAcquire.Contract
import FissLock.Recovery.FaultCheck
import FissLock.Recovery.HolderReply
import FissLock.Host.PayloadBounds
import FissLock.Host.PacketBuffers
import FissLock.Switch.Isolation
import FissLock.Exchange.Managers
import FissLock.Host.Handle
import FissLock.Sidecar.Codec
import FissLock.Baseline.ParLockHosts
import FissLock.Baseline.ParLockServed
