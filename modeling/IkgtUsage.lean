import IkgtUsage.Lib.Run
import IkgtUsage.Lib.Slots
import IkgtUsage.Lib.Ring
import IkgtUsage.Lib.AnyOrder
import IkgtUsage.Lib.Loop
import IkgtUsage.Lib.DirTree
import IkgtUsage.Lib.Numeral
import IkgtUsage.Lib.Simulation
import IkgtUsage.Common.Policy
import IkgtUsage.Common.Log
import IkgtUsage.Handler.Framework
import IkgtUsage.Handler.Utils
import IkgtUsage.Handler.Table
import IkgtUsage.Handler.Resources
import IkgtUsage.Handler.State
import IkgtUsage.Handler.Log
import IkgtUsage.Handler.Policy
import IkgtUsage.Handler.ControlReg
import IkgtUsage.Handler.CrFilter
import IkgtUsage.Handler.Msr
import IkgtUsage.Handler.Event
import IkgtUsage.Handler.Frame
import IkgtUsage.Handler.PolicyMap
import IkgtUsage.Handler.Monitor
import IkgtUsage.Handler.Outcome
import IkgtUsage.Handler.GuestCr
import IkgtUsage.Handler.MsrBits
import IkgtUsage.Handler.Permitted
import IkgtUsage.Handler.Room
import IkgtUsage.Handler.AllOrNothing
import IkgtUsage.Handler.FailOpen
import IkgtUsage.Handler.CrSpec
import IkgtUsage.Handler.MsrSpec
import IkgtUsage.Handler.LogArea
import IkgtUsage.Handler.LogPages
import IkgtUsage.Handler.LogSession
import IkgtUsage.Handler.PageRange
import IkgtUsage.Handler.Audit
import IkgtUsage.Driver.Log
import IkgtUsage.Driver.Dump
import IkgtUsage.Driver.Configfs
import IkgtUsage.Driver.StickyLock
import IkgtUsage.Driver.LockInForce
import IkgtUsage.Driver.Show
import IkgtUsage.Driver.DumpMemory
import IkgtUsage.Driver.DumpText
import IkgtUsage.Driver.Agent
import IkgtUsage.Protocol.LogRing
import IkgtUsage.Protocol.LogDump
import IkgtUsage.Protocol.LogOrder
import IkgtUsage.Protocol.Drain
import IkgtUsage.Protocol.Session
import IkgtUsage.Protocol.Frozen
import IkgtUsage.Protocol.LiveDump
import IkgtUsage.Protocol.LiveOrder
import IkgtUsage.Protocol.Enforced
import IkgtUsage.Protocol.Monitored
import IkgtUsage.Protocol.Deployed
import IkgtUsage.Protocol.Machine
import IkgtUsage.Protocol.RingWalk
import IkgtUsage.Protocol.Rules
import IkgtUsage.Protocol.Failures
import IkgtUsage.Protocol.OtherResources
import IkgtUsage.Protocol.Settings
import IkgtUsage.Protocol.LockedItem
import IkgtUsage.Policy.Script
import IkgtUsage.Policy.Visits
import IkgtUsage.Policy.Reordering
import IkgtUsage.Policy.OrderFree
import IkgtUsage.Policy.KeyOrder
import IkgtUsage.Policy.WorkingDir
import IkgtUsage.Policy.Reached
import IkgtUsage.Policy.Applied
import IkgtUsage.Policy.Sessions
