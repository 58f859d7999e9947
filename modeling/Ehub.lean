import Ehub.Run
import Ehub.Message
import Ehub.CachePool
import Ehub.Lap
import Ehub.Trb
import Ehub.Ring
import Ehub.RingShape
import Ehub.RingGrow
import Ehub.RingAccount
import Ehub.RingFifo
import Ehub.Td
import Ehub.Isoc
import Ehub.Cancel
import Ehub.RingBlocks
import Ehub.Exclusion
import Ehub.Register
import Ehub.Reply
import Ehub.CommandRing
import Ehub.CommandOwner
import Ehub.Doorbell
import Ehub.Transfer
import Ehub.Blocked
import Ehub.Watchdog
import Ehub.LostDoorbell
import Ehub.EventSafety
import Ehub.Mirror
import Ehub.Coherence
import Ehub.DataCache
import Ehub.Lending
import Ehub.Contexts
import Ehub.FailStop
import Ehub.Slots
import Ehub.EndpointConfig
import Ehub.Reconfigure
import Ehub.IsocCount
import Ehub.UrbOwner
import Ehub.Giveback
import Ehub.Cuts
import Ehub.Bulk
import Ehub.IsocSplit
import Ehub.TdSize
import Ehub.TrbInTd
import Ehub.DequeueState
import Ehub.SetDeq
import Ehub.CacheCopy
import Ehub.Expansion
import Ehub.MakeRoom
import Ehub.Bytes
import Ehub.CachePacket
import Ehub.Merge
import Ehub.Lengths
import Ehub.Reported
import Ehub.FrameAccount
import Ehub.RootHub
import Ehub.RootPorts
import Ehub.Microframe
import Ehub.Registers
import Ehub.PortWrites
import Ehub.FastPath
import Ehub.Missed
import Ehub.Fields
import Ehub.EndpointContext
import Ehub.Cascade
import Ehub.Bandwidth
import Ehub.Reservation
import Ehub.BandwidthLoad
import Ehub.BandwidthRuns
import Ehub.Control
import Ehub.Commands
import Ehub.CommandsRead
import Ehub.PortWake
import Ehub.LinkPower
import Ehub.HardwareLpm
