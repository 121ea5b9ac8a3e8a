import AnboxReboxed.Android.BridgeService
import AnboxReboxed.Android.IpConfigBuilder
import AnboxReboxed.Android.PackageParts
import AnboxReboxed.Android.Proofs.BridgeServiceProofs
import AnboxReboxed.Android.Proofs.IpConfigBuilderProofs
import AnboxReboxed.Android.Proofs.PackagePartsProofs
import AnboxReboxed.Application.ApplicationListParcel
import AnboxReboxed.Application.Database
import AnboxReboxed.Application.LauncherStorage
import AnboxReboxed.Application.Proofs.ApplicationListParcelProofs
import AnboxReboxed.Application.Proofs.DatabaseProofs
import AnboxReboxed.Application.Proofs.LauncherStorageProofs
import AnboxReboxed.Binder.Proofs.BufferRunProofs
import AnboxReboxed.Binder.Proofs.CallServiceProofs
import AnboxReboxed.Bridge.AndroidApiStub
import AnboxReboxed.Bridge.ApiCalls
import AnboxReboxed.Bridge.LaunchApplication
import AnboxReboxed.Bridge.Proofs.AndroidApiStubProofs
import AnboxReboxed.Bridge.Proofs.ApiCallsProofs
import AnboxReboxed.Bridge.Proofs.LaunchApplicationProofs
import AnboxReboxed.Common.BinaryWriter
import AnboxReboxed.Common.Proofs.BinaryWriterProofs
import AnboxReboxed.Common.SmallVector
import AnboxReboxed.Container.MemoryConfiguration
import AnboxReboxed.Container.Mounts
import AnboxReboxed.Container.Proofs.MemoryConfigurationProofs
import AnboxReboxed.Container.Proofs.MountsProofs
import AnboxReboxed.Container.Proofs.ServiceLabelsProofs
import AnboxReboxed.Emugl.ColorBuffer
import AnboxReboxed.Emugl.Egl
import AnboxReboxed.Emugl.FrameLayers
import AnboxReboxed.Emugl.GlWorld
import AnboxReboxed.Emugl.HostWindow
import AnboxReboxed.Emugl.ModernDecoder
import AnboxReboxed.Emugl.NativeWindows
import AnboxReboxed.Emugl.PresentationContext
import AnboxReboxed.Emugl.Proofs.AtomicityProofs
import AnboxReboxed.Emugl.Proofs.BindingProofs
import AnboxReboxed.Emugl.Proofs.BookkeepingProofs
import AnboxReboxed.Emugl.Proofs.BudgetProofs
import AnboxReboxed.Emugl.Proofs.EglProofs
import AnboxReboxed.Emugl.Proofs.FrameLayersProofs
import AnboxReboxed.Emugl.Proofs.FreshnessProofs
import AnboxReboxed.Emugl.Proofs.HandleProofs
import AnboxReboxed.Emugl.Proofs.HostWindowProofs
import AnboxReboxed.Emugl.Proofs.InUseProofs
import AnboxReboxed.Emugl.Proofs.ModernDecoderProofs
import AnboxReboxed.Emugl.Proofs.NameProofs
import AnboxReboxed.Emugl.Proofs.NativeWindowsProofs
import AnboxReboxed.Emugl.Proofs.OwnershipProofs
import AnboxReboxed.Emugl.Proofs.PresentationContextProofs
import AnboxReboxed.Emugl.Proofs.RefcountProofs
import AnboxReboxed.Emugl.Proofs.RenderThreadProofs
import AnboxReboxed.Emugl.Proofs.RendererConfigProofs
import AnboxReboxed.Emugl.Proofs.RendererProofs
import AnboxReboxed.Emugl.Proofs.RetainFrameProofs
import AnboxReboxed.Emugl.Proofs.SnapshotProofs
import AnboxReboxed.Emugl.Proofs.StreamHeadProofs
import AnboxReboxed.Emugl.Proofs.TextureResizeProofs
import AnboxReboxed.Emugl.RenderThread
import AnboxReboxed.Emugl.Renderer
import AnboxReboxed.Emugl.RetainFrame
import AnboxReboxed.Emugl.World
import AnboxReboxed.Graphics.BufferQueue
import AnboxReboxed.Graphics.ComposerHistory
import AnboxReboxed.Graphics.CoordinateTransform
import AnboxReboxed.Graphics.LayerComposer
import AnboxReboxed.Graphics.MultiWindowComposerStrategy
import AnboxReboxed.Graphics.Proofs.BufferQueueProofs
import AnboxReboxed.Graphics.Proofs.ComposerHistoryProofs
import AnboxReboxed.Graphics.Proofs.CoordinateTransformProofs
import AnboxReboxed.Graphics.Proofs.LayerComposerProofs
import AnboxReboxed.Graphics.Proofs.MultiWindowComposerStrategyProofs
import AnboxReboxed.Graphics.Proofs.QueueMonitorProofs
import AnboxReboxed.Graphics.Proofs.RenderStreamsProofs
import AnboxReboxed.Graphics.Proofs.StreamShutdownProofs
import AnboxReboxed.Graphics.QueueMonitor
import AnboxReboxed.Graphics.RenderStreams
import AnboxReboxed.Graphics.StreamShutdown
import AnboxReboxed.Input.Device
import AnboxReboxed.Input.Dispatcher
import AnboxReboxed.Input.KeyStreams
import AnboxReboxed.Input.Keyboard
import AnboxReboxed.Input.Pipeline
import AnboxReboxed.Input.Proofs.DeviceProofs
import AnboxReboxed.Input.Proofs.DispatcherProofs
import AnboxReboxed.Input.Proofs.KeyStreamsProofs
import AnboxReboxed.Input.Proofs.MotionProofs
import AnboxReboxed.Input.Proofs.PipelineProofs
import AnboxReboxed.Input.Proofs.ProducersProofs
import AnboxReboxed.Input.Proofs.ReserveProofs
import AnboxReboxed.Input.Proofs.StuckProofs
import AnboxReboxed.Input.Proofs.TouchProofs
import AnboxReboxed.Input.Touch
import AnboxReboxed.Lib.CondVar
import AnboxReboxed.Lib.Delimited
import AnboxReboxed.Lib.Fallible
import AnboxReboxed.Lib.Fifo
import AnboxReboxed.Lib.FileTree
import AnboxReboxed.Lib.Framing
import AnboxReboxed.Lib.Json
import AnboxReboxed.Lib.KeyFile
import AnboxReboxed.Lib.Machine
import AnboxReboxed.Lib.OrdMap
import AnboxReboxed.Lib.Proofs.OrdMapProofs
import AnboxReboxed.Lib.RefCount
import AnboxReboxed.Lib.Strokes
import AnboxReboxed.Lib.Weave
import AnboxReboxed.Lib.Wire
import AnboxReboxed.Network.Proofs.BaseSocketMessengerProofs
import AnboxReboxed.Network.SocketConnection
import AnboxReboxed.PipeCompat.AddressSpace
import AnboxReboxed.PipeCompat.Proofs.AddressSpaceProofs
import AnboxReboxed.Qemu.AdbMessageProcessor
import AnboxReboxed.Qemu.CameraMessageProcessor
import AnboxReboxed.Qemu.GsmMessageProcessor
import AnboxReboxed.Qemu.Proofs.AdbMessageProcessorProofs
import AnboxReboxed.Qemu.Proofs.CameraMessageProcessorProofs
import AnboxReboxed.Qemu.Proofs.GsmMessageProcessorProofs
import AnboxReboxed.Qemu.Proofs.QemudMessageProcessorProofs
import AnboxReboxed.Qemu.Proofs.RefCountMessageProcessorProofs
import AnboxReboxed.Qemu.Proofs.SensorsCommandsProofs
import AnboxReboxed.Qemu.Proofs.SensorsMessageProcessorProofs
import AnboxReboxed.Qemu.QemudMessageProcessor
import AnboxReboxed.Qemu.RefCountMessageProcessor
import AnboxReboxed.Qemu.SensorsMessageProcessor
import AnboxReboxed.Rpc.Endpoint
import AnboxReboxed.Rpc.MessageProcessor
import AnboxReboxed.Rpc.PendingCallCache
import AnboxReboxed.Rpc.Proofs.ChannelProofs
import AnboxReboxed.Rpc.Proofs.EndpointProofs
import AnboxReboxed.Rpc.Proofs.MessageProcessorProofs
import AnboxReboxed.Rpc.Proofs.PendingCallCacheProofs
import AnboxReboxed.Rpc.Protobuf
import AnboxReboxed.Scripts.BridgeClipboard
import AnboxReboxed.Scripts.BridgeFrames
import AnboxReboxed.Scripts.BuildPayload
import AnboxReboxed.Scripts.DataImage
import AnboxReboxed.Scripts.ExtractArchive
import AnboxReboxed.Scripts.FileTransfer
import AnboxReboxed.Scripts.GlesCompat
import AnboxReboxed.Scripts.NativeBridge
import AnboxReboxed.Scripts.NativeBridgeVerify
import AnboxReboxed.Scripts.PackagePreflight
import AnboxReboxed.Scripts.Proofs.BridgeClipboardProofs
import AnboxReboxed.Scripts.Proofs.BridgeFramesProofs
import AnboxReboxed.Scripts.Proofs.BuildPayloadProofs
import AnboxReboxed.Scripts.Proofs.DataImageProofs
import AnboxReboxed.Scripts.Proofs.DataMigrationProofs
import AnboxReboxed.Scripts.Proofs.ExtractArchiveProofs
import AnboxReboxed.Scripts.Proofs.FileTransferProofs
import AnboxReboxed.Scripts.Proofs.GlesCompatProofs
import AnboxReboxed.Scripts.Proofs.NativeBridgeProofs
import AnboxReboxed.Scripts.Proofs.NativeBridgeRules
import AnboxReboxed.Scripts.Proofs.NativeBridgeVerifyProofs
import AnboxReboxed.Scripts.Proofs.PackagePreflightProofs
import AnboxReboxed.Scripts.Proofs.PayloadRootProofs
import AnboxReboxed.Scripts.Proofs.PropertyOverlayProofs
import AnboxReboxed.Scripts.Proofs.PropertyTextProofs
import AnboxReboxed.Scripts.Proofs.ReboxedBridgeProofs
import AnboxReboxed.Scripts.Proofs.SendFileProofs
import AnboxReboxed.Scripts.Proofs.TransferFramesProofs
import AnboxReboxed.Scripts.PropertyOverlay
import AnboxReboxed.Scripts.ReboxedBridge
import AnboxReboxed.Sdl.AudioSink
import AnboxReboxed.Sdl.Platform
import AnboxReboxed.Sdl.Proofs.AudioSinkProofs
import AnboxReboxed.Sdl.Proofs.PlatformProofs
import AnboxReboxed.Wm.MultiWindowManager
import AnboxReboxed.Wm.Proofs.MultiWindowManagerProofs
