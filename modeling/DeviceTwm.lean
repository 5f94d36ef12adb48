import DeviceTwm.Lib.Links
import DeviceTwm.Lib.Argmin
import DeviceTwm.Lib.Bytes
import DeviceTwm.Lib.CString
import DeviceTwm.Lib.Strtoul
import DeviceTwm.Lib.Run
import DeviceTwm.Lib.Trace
import DeviceTwm.Lib.Reading
import DeviceTwm.Lib.Writing
import DeviceTwm.Lib.Unwinding
import DeviceTwm.Lib.Act
import DeviceTwm.Lib.Align
import DeviceTwm.Lib.Ranges
import DeviceTwm.Lib.BitMask
import DeviceTwm.Lib.SignedWords
import DeviceTwm.Lib.Scaling
import DeviceTwm.Gralloc.Allocator
import DeviceTwm.Gralloc.AllocatorLists
import DeviceTwm.Gralloc.AllocatorInv
import DeviceTwm.Gralloc.AllocatorRuns
import DeviceTwm.Gralloc.AllocatorClient
import DeviceTwm.Gralloc.BestFit
import DeviceTwm.Gralloc.AllocateFree
import DeviceTwm.Gralloc.Mapper
import DeviceTwm.Gralloc.LockAccounting
import DeviceTwm.Gralloc.Framebuffer
import DeviceTwm.Gralloc.Tearing
import DeviceTwm.Gralloc.Pmem
import DeviceTwm.Gralloc.PmemRuns
import DeviceTwm.Gralloc.PmemDeps
import DeviceTwm.Gralloc.PmemRollback
import DeviceTwm.Gralloc.PmemInit
import DeviceTwm.Gralloc.Gpu
import DeviceTwm.Gralloc.Mappings
import DeviceTwm.Gralloc.BufferSize
import DeviceTwm.Gralloc.PushBuffer
import DeviceTwm.Gralloc.LockCalls
import DeviceTwm.Gralloc.LiveMappings
import DeviceTwm.Gralloc.MappedLocks
import DeviceTwm.Gralloc.FramebufferSlots
import DeviceTwm.Gralloc.CompositorLock
import DeviceTwm.Gralloc.DispQueue
import DeviceTwm.Gralloc.FramesShown
import DeviceTwm.Copybit.Blit
import DeviceTwm.Copybit.SetRects
import DeviceTwm.Copybit.Batching
import DeviceTwm.Copybit.BlitBounds
import DeviceTwm.Copybit.SourceMapping
import DeviceTwm.BootImg.Format
import DeviceTwm.BootImg.Tool
import DeviceTwm.BootImg.Fastboot
import DeviceTwm.BootImg.Builders
import DeviceTwm.BootImg.EvenPages
import DeviceTwm.BootImg.ImageId
import DeviceTwm.BootImg.PageSizes
import DeviceTwm.BootImg.Cmdline
import DeviceTwm.Fastboot.Engine
import DeviceTwm.Fastboot.Requirements
import DeviceTwm.Fastboot.Protocol
import DeviceTwm.Fastboot.Download
import DeviceTwm.Fastboot.Commands
import DeviceTwm.Fastboot.UsbDevice
import DeviceTwm.Fastboot.Main
import DeviceTwm.Fastboot.Execute
import DeviceTwm.Fastboot.MainRuns
import DeviceTwm.Adb.SyncConn
import DeviceTwm.Adb.SyncClient
import DeviceTwm.Adb.SyncReads
import DeviceTwm.Adb.SyncService
import DeviceTwm.Adb.SyncSend
import DeviceTwm.Adb.SyncReceive
import DeviceTwm.Adb.SyncPush
import DeviceTwm.Adb.SyncPull
import DeviceTwm.Adb.PullDir
import DeviceTwm.Adb.PullInside
import DeviceTwm.Adb.PushDir
import DeviceTwm.Adb.PushList
import DeviceTwm.Adb.PushTree
import DeviceTwm.Adb.PushSkips
import DeviceTwm.Adb.FileSync
import DeviceTwm.Adb.FileSyncRuns
import DeviceTwm.Adb.SyncTransfer
import DeviceTwm.Adb.SyncListing
import DeviceTwm.Lib.Logged
import DeviceTwm.Adb.SyncBuffers
import DeviceTwm.Adb.SyncRequests
import DeviceTwm.Adb.DeviceList
import DeviceTwm.Adb.Acquire
import DeviceTwm.Adb.SmartSocket
import DeviceTwm.Adb.SmartChunks
import DeviceTwm.Adb.Fdevent
import DeviceTwm.Adb.FdeventTable
import DeviceTwm.Adb.FdeventPending
import DeviceTwm.Adb.Jdwp
import DeviceTwm.Adb.JdwpFds
import DeviceTwm.Adb.Transport
import DeviceTwm.Adb.TransportRefs
import DeviceTwm.Adb.TransportList
import DeviceTwm.Adb.TransportFds
import DeviceTwm.Adb.EmulatorSlots
import DeviceTwm.Adb.Banner
import DeviceTwm.Adb.ListenerRegistry
import DeviceTwm.Adb.Packet
import DeviceTwm.Adb.LocalSocket
import DeviceTwm.Adb.WritePaths
import DeviceTwm.Adb.EnqueueResult
import DeviceTwm.Adb.SocketClose
import DeviceTwm.Adb.SocketFlow
import DeviceTwm.Adb.Wire
import DeviceTwm.Adb.Stream
import DeviceTwm.Adb.StreamIntegrity
import DeviceTwm.Adb.SocketTable
import DeviceTwm.Adb.Isolation
import DeviceTwm.Adb.SocketOffline
import DeviceTwm.Adb.CloseReplies
import DeviceTwm.Adb.NonInterference
import DeviceTwm.Adb.IoPump
import DeviceTwm.Adb.InternalSync
import DeviceTwm.Adb.UsbScan
import DeviceTwm.Ril.Responses
import DeviceTwm.Ril.ResponseFraming
import DeviceTwm.Ril.Dispatch
import DeviceTwm.Ril.Payload
import DeviceTwm.Ril.Requests
import DeviceTwm.Ril.CdmaSms
import DeviceTwm.Ril.CdmaSmsWrite
import DeviceTwm.Ril.ResponseFunctions
import DeviceTwm.Ril.InvalidResponses
import DeviceTwm.Ril.ResponsePackets
import DeviceTwm.Ril.BroadcastConfig
import DeviceTwm.Ril.Counts
import DeviceTwm.Ril.Layouts
import DeviceTwm.Ril.Connections
import DeviceTwm.Ril.Event
import DeviceTwm.Ril.EventLists
import DeviceTwm.Ril.EventDelivery
import DeviceTwm.Ril.TimerQueue
import DeviceTwm.Ril.WatchTable
import DeviceTwm.Ril.WakeLock
import DeviceTwm.Ril.CommandSocket
import DeviceTwm.Sensors.PollEvents
import DeviceTwm.Gralloc.KernelAllocator
import DeviceTwm.Adb.SocketIds
import DeviceTwm.Audio.SetParameters
import DeviceTwm.Audio.Playback
import DeviceTwm.Audio.AacFrames
import DeviceTwm.Audio.Recording
import DeviceTwm.Audio.InputStreams
import DeviceTwm.Mincrypt.RsaVerify
import DeviceTwm.BootImg.ImageSha
import DeviceTwm.Adb.SocketPairRuns
import DeviceTwm.Adb.UsbHandleRuns
import DeviceTwm.Adb.UsbLocks
import DeviceTwm.Adb.UsbBulk
import DeviceTwm.Adb.UsbBulkRuns
import DeviceTwm.Adb.DeviceTrackers
