import Rtl812x.Lib.Runs
import Rtl812x.Lib.Circular
import Rtl812x.Lib.Counter
import Rtl812x.Lib.Tagged
import Rtl812x.Lib.Slots
import Rtl812x.Lib.Loop
import Rtl812x.Lib.Segments
import Rtl812x.Lib.TryLock
import Rtl812x.Lib.Trace
import Rtl812x.Lib.Interleave
import Rtl812x.Lib.OnesComplement
import Rtl812x.Lib.Handles
import Rtl812x.Lib.Footprint
import Rtl812x.Lib.BoundedQueue
import Rtl812x.Lib.Blocks
import Rtl812x.Lib.LinkedList
import Rtl812x.Lib.Text
import Rtl812x.Lib.Binary64
import Rtl812x.Lib.Json
import Rtl812x.Lib.Poll
import Rtl812x.Lib.Commands
import Rtl812x.Hw.Regs
import Rtl812x.Hw.RxFilter
import Rtl812x.Hw.PhyMedium
import Rtl812x.Hw.Ports
import Rtl812x.Hw.Bus
import Rtl812x.Hw.OobMutex
import Rtl812x.Hw.Firmware
import Rtl812x.Hw.FwInterp
import Rtl812x.Hw.McuRam
import Rtl812x.Hw.McuPatch
import Rtl812x.Dext.Fifo
import Rtl812x.Dext.FifoRace
import Rtl812x.Dext.Offload
import Rtl812x.Dext.PartialChecksum
import Rtl812x.Dext.Tx
import Rtl812x.Dext.Rx
import Rtl812x.Dext.Driver
import Rtl812x.Dext.TxRun
import Rtl812x.Dext.TxAccounting
import Rtl812x.Dext.TxBook
import Rtl812x.Dext.TxConservation
import Rtl812x.Dext.TxLoss
import Rtl812x.Dext.RxRing
import Rtl812x.Dext.RxRun
import Rtl812x.Dext.RxOwnership
import Rtl812x.Dext.RxRestart
import Rtl812x.Dext.Mitigation
import Rtl812x.Dext.TxAnnounce
import Rtl812x.Dext.Announce
import Rtl812x.Dext.RxMode
import Rtl812x.Dext.Drain
import Rtl812x.Dext.DrainRace
import Rtl812x.Dext.FifoRoom
import Rtl812x.Dext.FifoQueue
import Rtl812x.Dext.MediaChoice
import Rtl812x.Dext.FreeSpace
import Rtl812x.Dext.RxMaxSize
import Rtl812x.Dext.TxWords
import Rtl812x.Dext.OffloadAccess
import Rtl812x.Dext.RxService
import Rtl812x.Dext.StartStop
import Rtl812x.Dext.StopRace
import Rtl812x.Dext.Teardown
import Rtl812x.Kext.RxFrame
import Rtl812x.Kext.Rx
import Rtl812x.Kext.RxLoop
import Rtl812x.Kext.RxHandle
import Rtl812x.Kext.RxRefine
import Rtl812x.Kext.RxReassembly
import Rtl812x.Kext.RxStream
import Rtl812x.Kext.RxSound
import Rtl812x.Kext.RxComplete
import Rtl812x.Kext.RxMaps
import Rtl812x.Kext.RxMapsLive
import Rtl812x.Kext.RxBuffers
import Rtl812x.Kext.RxMode
import Rtl812x.Kext.Tx
import Rtl812x.Kext.TxMapping
import Rtl812x.Kext.TxInStep
import Rtl812x.Kext.TxRing
import Rtl812x.Kext.TxRingInv
import Rtl812x.Kext.TxRingSafe
import Rtl812x.Kext.MapSlot
import Rtl812x.Kext.TxSlots
import Rtl812x.Kext.TxMapCall
import Rtl812x.Kext.Polling
import Rtl812x.Kext.PollMask
import Rtl812x.Kext.Start
import Rtl812x.Kext.StartResult
import Rtl812x.Kext.StartRelease
import Rtl812x.Kext.StartFailure
import Rtl812x.Kext.Medium
import Rtl812x.Kext.TxSegments
import Rtl812x.Kext.Watchdog
import Rtl812x.Kext.LinkReport
import Rtl812x.Kext.Lifecycle
import Rtl812x.Kext.RxWrites
import Rtl812x.Kext.RxMetadata
import Rtl812x.Kext.TxRanges
import Rtl812x.Kext.RxPool
import Rtl812x.Kext.RxPoolInv
import Rtl812x.Kext.RxPoolIntegrity
import Rtl812x.Agreement.Checksum
import Rtl812x.Agreement.Multicast
import Rtl812x.Agreement.CloseReading
import Rtl812x.Agreement.PseudoHeader
import Rtl812x.App.DriverManager
import Rtl812x.App.Outcomes
import Rtl812x.Tools.Benchmark
import Rtl812x.Tools.BenchmarkText
import Rtl812x.Tools.BenchmarkRows
import Rtl812x.Tools.BenchmarkRuns
