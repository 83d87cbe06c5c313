import Edk2Exynos.Lib.Bytes
import Edk2Exynos.Lib.ByteSwap
import Edk2Exynos.Lib.Masks
import Edk2Exynos.Lib.CrcOrder
import Edk2Exynos.Lib.Crc32
import Edk2Exynos.Lib.Journal
import Edk2Exynos.Lib.Runs
import Edk2Exynos.Lib.Swaps
import Edk2Exynos.Lib.Polling
import Edk2Exynos.Lib.TailSums
import Edk2Exynos.Lib.RingBuffer
import Edk2Exynos.Lib.Pen
import Edk2Exynos.Lib.OnePass
import Edk2Exynos.Lib.ByteSum
import Edk2Exynos.Lib.StringSet
import Edk2Exynos.Lib.ForwardCopy
import Edk2Exynos.Lib.Known
import Edk2Exynos.Lib.Codec
import Edk2Exynos.Lib.Conserved
import Edk2Exynos.Lib.Grouped
import Edk2Exynos.Lib.Paged
import Edk2Exynos.Lib.Raster
import Edk2Exynos.Lib.Selection
import Edk2Exynos.Lib.Stepping
import Edk2Exynos.Lib.TextGrid
import Edk2Exynos.Lib.TickRate
import Edk2Exynos.Lib.Turns
import Edk2Exynos.Lib.WordBits
import Edk2Exynos.BootSlot.Base
import Edk2Exynos.BootSlot.Update
import Edk2Exynos.BootSlot.Gpt
import Edk2Exynos.BootSlot.Format
import Edk2Exynos.BootSlot.CrashSafe
import Edk2Exynos.BootSlot.GptBlocks
import Edk2Exynos.BootSlot.SlotWalk
import Edk2Exynos.BootSlot.Align
import Edk2Exynos.BootSlot.WriteBack
import Edk2Exynos.BootSlot.Enumerate
import Edk2Exynos.BootSlot.Recorded
import Edk2Exynos.BootSlot.Faults
import Edk2Exynos.BootSlot.Retry
import Edk2Exynos.BootSlot.Strings
import Edk2Exynos.BootSlot.Slots
import Edk2Exynos.BootSlot.SlotAttributes
import Edk2Exynos.BootSlot.SlotTable
import Edk2Exynos.BootSlot.SlotInvariants
import Edk2Exynos.BootSlot.BootSlotDxe
import Edk2Exynos.BootSlot.BootLun
import Edk2Exynos.BootSlot.SlotSearch
import Edk2Exynos.BootSlot.SlotPairs
import Edk2Exynos.BootSlot.SlotSwap
import Edk2Exynos.BootSlot.ActiveMarks
import Edk2Exynos.BootSlot.BlkIo
import Edk2Exynos.BootSlot.BlkIoCriteria
import Edk2Exynos.BootSlot.BlkIoSelect
import Edk2Exynos.BootSlot.RootDevice
import Edk2Exynos.BootSlot.SlotExchange
import Edk2Exynos.BootSlot.NameBuffers
import Edk2Exynos.BootSlot.Synced
import Edk2Exynos.BootSlot.SyncedCalls
import Edk2Exynos.BootSlot.Sessions
import Edk2Exynos.Ufs.Base
import Edk2Exynos.Ufs.Transfer
import Edk2Exynos.Ufs.TransferResult
import Edk2Exynos.Ufs.TransferDescs
import Edk2Exynos.Ufs.Scsi
import Edk2Exynos.Ufs.ScsiShared
import Edk2Exynos.Ufs.Provision
import Edk2Exynos.Ufs.ProvisionRetry
import Edk2Exynos.Ufs.ProvisionExact
import Edk2Exynos.Ufs.ProvisionCheck
import Edk2Exynos.Ufs.ProvisionUnits
import Edk2Exynos.Ufs.ProvisionCapacity
import Edk2Exynos.Ufs.ProvisionRounding
import Edk2Exynos.Ufs.BusQuery
import Edk2Exynos.Ufs.ScsiCdb
import Edk2Exynos.Ufs.ScsiUnmap
import Edk2Exynos.Ufs.IdentifyBootlun
import Edk2Exynos.Ufs.QueryFrame
import Edk2Exynos.Ufs.Uic
import Edk2Exynos.Ufs.UicAccepted
import Edk2Exynos.Ufs.ScsiScan
import Edk2Exynos.Ufs.ScsiEnumeration
import Edk2Exynos.Ufs.PollingLoop
import Edk2Exynos.Ufs.ScsiPointer
import Edk2Exynos.Ufs.BlockStore
import Edk2Exynos.Op6tSlot.FixGpt
import Edk2Exynos.Op6tSlot.Slot
import Edk2Exynos.Op6tSlot.Confined
import Edk2Exynos.Op6tSlot.Checksum
import Edk2Exynos.Op6tSlot.Repair
import Edk2Exynos.SosiPatcher.Main
import Edk2Exynos.SosiPatcher.Checksum
import Edk2Exynos.Timer.ArmArchTimer
import Edk2Exynos.Keypad.Console
import Edk2Exynos.Keypad.Notify
import Edk2Exynos.Keypad.KeyStatus
import Edk2Exynos.Keypad.Episodes
import Edk2Exynos.Keypad.Registrations
import Edk2Exynos.Keypad.KeyQueue
import Edk2Exynos.Keypad.KeyBitmaps
import Edk2Exynos.Keypad.KeyStates
import Edk2Exynos.Keypad.TextIn
import Edk2Exynos.Keypad.TypeAhead
import Edk2Exynos.Keypad.Delivery
import Edk2Exynos.Keypad.DeviceConsole
import Edk2Exynos.KernelErrata.Patches
import Edk2Exynos.KernelErrata.ExitBootServices
import Edk2Exynos.KernelErrata.FindPattern
import Edk2Exynos.KernelErrata.PatchFrame
import Edk2Exynos.KernelErrata.ModuleList
import Edk2Exynos.FrameBuffer.Console
import Edk2Exynos.FrameBuffer.Bounds
import Edk2Exynos.FrameBuffer.Glyph
import Edk2Exynos.FrameBuffer.GlyphCount
import Edk2Exynos.FrameBuffer.Interrupts
import Edk2Exynos.FrameBuffer.TextScreen
import Edk2Exynos.FrameBuffer.TextTerminal
import Edk2Exynos.FrameBuffer.Transcript
import Edk2Exynos.Smbios.Record
import Edk2Exynos.Smbios.MemoryMap
import Edk2Exynos.Rtc.VirtualClock
import Edk2Exynos.BootShim.Shim
import Edk2Exynos.BootShim.Relocate
import Edk2Exynos.BootShim.Dualboot
import Edk2Exynos.BootShim.DualbootRun
import Edk2Exynos.BootShim.Reboots
import Edk2Exynos.Bootimg.Base
import Edk2Exynos.Bootimg.BootFormat
import Edk2Exynos.Bootimg.CommandLine
import Edk2Exynos.Bootimg.BootImage
import Edk2Exynos.Bootimg.BootRoundTrip
import Edk2Exynos.Bootimg.GenericRoundTrip
import Edk2Exynos.Bootimg.VendorBoot
import Edk2Exynos.Bootimg.RamdiskTable
import Edk2Exynos.Bootimg.VendorRoundTrip
import Edk2Exynos.Bootimg.Main
import Edk2Exynos.MemoryMap.Peim
import Edk2Exynos.AslUpdate.SsdtNames
