import WriteonceOs.Library.Worklist
import WriteonceOs.Library.FifoTopo
import WriteonceOs.Library.FifoOrder
import WriteonceOs.Library.Links
import WriteonceOs.Library.Relabel
import WriteonceOs.Library.Ledger
import WriteonceOs.Library.Run
import WriteonceOs.Library.SlidingWindow
import WriteonceOs.Library.Panics
import WriteonceOs.Svc.Config
import WriteonceOs.Svc.Registry
import WriteonceOs.Svc.Transaction
import WriteonceOs.Svc.TransactionSpec
import WriteonceOs.Svc.Requirements
import WriteonceOs.Svc.Determinism
import WriteonceOs.Svc.WantedBy
import WriteonceOs.Svc.State
import WriteonceOs.Svc.StateSpec
import WriteonceOs.Svc.Activation
import WriteonceOs.Svc.Operations
import WriteonceOs.Svc.StopOrder
import WriteonceOs.Svc.ProcessTable
import WriteonceOs.Svc.RateLimit
import WriteonceOs.Svc.Restart
import WriteonceOs.Svc.Cgroups
import WriteonceOs.Svc.Control
import WriteonceOs.Svc.EventLoop
import WriteonceOs.Svc.Shutdown
import WriteonceOs.Svc.Signals
import WriteonceOs.Svc.Bystanders
import WriteonceOs.Svc.RestartRequest
import WriteonceOs.Svc.Spawn
import WriteonceOs.Svc.SpawnedUnits
import WriteonceOs.Svc.StartReply
import WriteonceOs.Svc.StopUnit
import WriteonceOs.Svc.StopGrace
import WriteonceOs.Svc.Durations
import WriteonceOs.Svc.PendingRestarts
import WriteonceOs.Svc.DisableRequest
import WriteonceOs.Svc.ChildExits
import WriteonceOs.Svc.LiveGraph
import WriteonceOs.Svc.ControlFiles
import WriteonceOs.Boot.Discover
import WriteonceOs.Boot.LocateRoot
import WriteonceOs.Boot.Init
import WriteonceOs.Boot.RootMount
import WriteonceOs.Logind.InhibitorLife
import WriteonceOs.Logind.SessionTable
import WriteonceOs.Logind.ActiveSession
import WriteonceOs.Logind.LockNoninterference
import WriteonceOs.Logind.Residue
import WriteonceOs.Logind.NearestLeader
import WriteonceOs.Logind.ObjectPaths
import WriteonceOs.Logind.Terminate
import WriteonceOs.Svc.Replies
import WriteonceOs.Installer.FrontEnds
import WriteonceOs.Installer.Confirmed
import WriteonceOs.Installer.Groups
import WriteonceOs.Installer.ChownHome
import WriteonceOs.Installer.Idempotent
import WriteonceOs.Installer.Install
import WriteonceOs.Installer.Write
import WriteonceOs.Boot.Initrd
import WriteonceOs.Boot.Modules
import WriteonceOs.Boot.TryBoot
import WriteonceOs.Installer.FirstBoot
import WriteonceOs.Kerngen.Probe
import WriteonceOs.Pid1.Shutdown
import WriteonceOs.Pid1.Run
import WriteonceOs.Login.PamSession
import WriteonceOs.Login.SessionCreate
import WriteonceOs.Login.Terminal
import WriteonceOs.Svc.Client
import WriteonceOs.Svc.KahnLoop
import WriteonceOs.Svc.CountedTransactions
import WriteonceOs.Logind.Inhibited
import WriteonceOs.Svc.Timers
import WriteonceOs.Svc.ListReply
