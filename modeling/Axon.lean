import Axon.Foundation.Machine
import Axon.Descriptor
import Axon.DescriptorCheck
import Axon.Metadata.Slot
import Axon.Foundation.History
import Axon.Metadata.Seqlock
import Axon.Foundation.Counter
import Axon.Foundation.Register
import Axon.Metadata.LatestValue
import Axon.Foundation.Bytes
import Axon.Sidecar.Wire
import Axon.Sidecar.Server
import Axon.Sidecar.Client
import Axon.Sidecar.RoundTrip
import Axon.Sidecar.FdLedger
import Axon.Pool
import Axon.Publisher
import Axon.Producer
import Axon.ProducerBlocking
import Axon.ProducerSizes
import Axon.Foundation.OverwriteRing
import Axon.Subscriber
import Axon.Attachment
import Axon.AttachmentViews
import Axon.AttachmentPayload
import Axon.Footprint
import Axon.Stream
import Axon.StreamOrder
import Axon.FenceRing
import Axon.StreamFences
import Axon.StreamGating
import Axon.PublicationNumbers
import Axon.Wait
import Axon.WaitAny
import Axon.WaitWatermark
import Axon.WaitReports
import Axon.WaitSleep
import Axon.Foundation.StructLayout
import Axon.OlderSlot
import Axon.PoolFds
import Axon.ProducerCache
import Axon.PoolHandover
import Axon.LateJoiners
import Axon.Consumers
import Axon.AcquiredViews
import Axon.ServiceNames
import Axon.Service
import Axon.ServiceAttachment
import Axon.ServiceWait
import Axon.Foundation.LapRing
import Axon.Ring
import Axon.RingBuffers
import Axon.RingPayload
import Axon.Foundation.RingMargin
import Axon.FrameMargin
import Axon.PoolReallocation
import Axon.HandshakeTruncation
import Axon.SidecarLink
import Axon.EndpointNames
import Axon.Endpoints
import Axon.Foundation.Replacement
import Axon.ImageTransport
import Axon.Foundation.Ledger
import Axon.PoolLedger
import Axon.Foundation.CyclicScan
import Axon.PoolRing
import Axon.FenceMap
import Axon.Rehandshake
import Axon.Foundation.NestedOverride
import Axon.Rt.Sysfs
import Axon.Rt.LatencyHold
import Axon.Rt.Holds
import Axon.Foundation.Strtol
import Axon.Rt.CoreSiblings
import Axon.Foundation.EarlyReturn
import Axon.Rt.Setup
import Axon.Foundation.Timespec
import Axon.WaitClock
import Axon.WaitTimeouts
import Axon.Foundation.Rank
import Axon.WaitEnds
import Axon.Foundation.OverflowQueue
import Axon.Device.Accelerator
import Axon.Device.NvBuf
import Axon.Device.Impl
import Axon.Device.SubscriberResources
import Axon.Device.Refinement
import Axon.Device.PoolImpl
import Axon.Device.Owners
import Axon.Device.PublisherImpl
import Axon.Device.PublisherResources
import Axon.Device.Bridge
import Axon.Foundation.Strided
import Axon.Python.Arrays
import Axon.Python.RoundTrip
import Axon.Offload
import Axon.OffloadSizing
import Axon.Rt.Sleep
import Axon.Device.PoolRefinement
import Axon.Device.PublisherRefinement
