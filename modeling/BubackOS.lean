import BubackOS.Core.ArgumentOutcome
import BubackOS.Core.ArgumentView
import BubackOS.Core.AttachOrder
import BubackOS.Core.BootMapping
import BubackOS.Core.BootPages
import BubackOS.Core.Destroy
import BubackOS.Core.ElfBounds
import BubackOS.Core.Failures
import BubackOS.Core.FilePages
import BubackOS.Core.Isolation
import BubackOS.Core.KallocBlocks
import BubackOS.Core.KernelRegions
import BubackOS.Core.LogOutput
import BubackOS.Core.ReadyTasks
import BubackOS.Core.RegionRanges
import BubackOS.Core.Rings
import BubackOS.Core.Rotation
import BubackOS.Core.Segments
import BubackOS.Core.SyscallLog
import BubackOS.Core.SyscallRegistry
import BubackOS.Core.Waiting
import BubackOS.Hal.BootInfo
import BubackOS.Hal.BootMemory
import BubackOS.Hal.Descriptors
import BubackOS.Hal.PageDump
import BubackOS.Hal.RangeMapping
import BubackOS.Hal.TableBuffer
import BubackOS.Hal.TagWalk
import BubackOS.Libc.Conversion
import BubackOS.Libc.Truncation
import BubackOS.Libutils.IdEntries
import BubackOS.Libutils.ListDestroy
import BubackOS.Libutils.LogRuns
import BubackOS.Modules.ConsoleWrite
import BubackOS.Core.PageLedger
