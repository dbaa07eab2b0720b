import NnpCamera.Library.Runs
import NnpCamera.Library.Memory
import NnpCamera.Library.Blocks
import NnpCamera.Library.Loop
import NnpCamera.Library.Program
import NnpCamera.Library.Ring
import NnpCamera.Capture.Handlers
import NnpCamera.Capture.Interleaving
import NnpCamera.Capture.Isolation
import NnpCamera.Capture.Freshness
import NnpCamera.Parameters.Packet
import NnpCamera.Parameters.Board
import NnpCamera.Parameters.Commands
import NnpCamera.Parameters.FrameLaw
import NnpCamera.Parameters.Boot
import NnpCamera.Parameters.AoiWindow
import NnpCamera.Parameters.AoiSnapshot
import NnpCamera.Image.Netbuf
import NnpCamera.Image.Camera
import NnpCamera.Image.Requests
import NnpCamera.Image.Indexed
import NnpCamera.Image.Stack
import NnpCamera.Image.Stream
import NnpCamera.Receive.Datagrams
import NnpCamera.Connection.Tasks
import NnpCamera.Connection.Lifecycle
import NnpCamera.Image.Iteration
import NnpCamera.Parameters.Settings
import NnpCamera.Library.WriteLog
import NnpCamera.Parameters.Ranges
import NnpCamera.Parameters.FirstBoot
import NnpCamera.Parameters.PowerLoss
import NnpCamera.Parameters.Replies
import NnpCamera.Fifo.LineFifo
import NnpCamera.Library.Semaphore
import NnpCamera.Receive.CommandQueue
import NnpCamera.Fifo.ReplyQueue
import NnpCamera.Connection.FlagAgreement
import NnpCamera.Library.Pool
import NnpCamera.Mailbox.EventBlocks
import NnpCamera.Mailbox.SysArch
import NnpCamera.Mailbox.Validity
import NnpCamera.Library.Extents
import NnpCamera.Library.Tiling
import NnpCamera.Parameters.CameraId
import NnpCamera.Parameters.FactoryReset
import NnpCamera.Allocator.Bank
import NnpCamera.Allocator.Correctness
import NnpCamera.Allocator.NetworkStart
import NnpCamera.Allocator.NetMem
import NnpCamera.Capture.FrameAssembly
import NnpCamera.Capture.Bounds
import NnpCamera.Eeprom.Iic
import NnpCamera.Eeprom.At24c02
import NnpCamera.Sensor.Sccb
import NnpCamera.Receive.RxRing
import NnpCamera.Sensor.Mt9p031
import NnpCamera.Receive.Bursts
import NnpCamera.Allocator.Heap
import NnpCamera.Allocator.Realloc
import NnpCamera.Allocator.AnyPointer
import NnpCamera.Sensor.Window
import NnpCamera.Sensor.Bayer
import NnpCamera.Mailbox.Elapsed
import NnpCamera.Receive.Interrupt
import NnpCamera.Library.Bitmap
import NnpCamera.Library.CountedRing
import NnpCamera.Library.History
import NnpCamera.Scheduler.Tables
import NnpCamera.Scheduler.Kernel
import NnpCamera.Scheduler.Services
import NnpCamera.Scheduler.Consistency
import NnpCamera.Scheduler.Invariant
import NnpCamera.Scheduler.Priority
import NnpCamera.Scheduler.Ledger
import NnpCamera.Scheduler.Deadlines
import NnpCamera.Library.FirstFit
import NnpCamera.Network.Mem
import NnpCamera.Network.MemChain
import NnpCamera.Network.MemCalls
import NnpCamera.Network.MemRuns
import NnpCamera.Library.OnesComplement
import NnpCamera.Library.Slices
import NnpCamera.Network.InetChksum
import NnpCamera.Network.IpFrag
import NnpCamera.Network.Reassembly
import NnpCamera.Network.ReassemblyQueue
import NnpCamera.Network.ReassemblyRuns
import NnpCamera.Library.DeltaList
import NnpCamera.Network.Timers
import NnpCamera.Network.CyclicTimers
import NnpCamera.Library.RefCount
import NnpCamera.Network.Pbuf
import NnpCamera.Network.PbufAlloc
import NnpCamera.Network.PbufRuns
