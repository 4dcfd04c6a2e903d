import Pro5Android.Newc.HardLinks
import Pro5Android.Newc.Deletion
import Pro5Android.Newc.Compare
import Pro5Android.Newc.Inspector
import Pro5Android.Boot.Inspect
import Pro5Android.Boot.RoundTrip
import Pro5Android.Boot.Soundness
import Pro5Android.Lib.Ring
import Pro5Android.Lib.Machine
import Pro5Android.Camera.Conservation
import Pro5Android.Camera.Ordering
import Pro5Android.Camera.Stills
import Pro5Android.Camera.Serving
import Pro5Android.Camera.Fences
import Pro5Android.Camera.PreviewFrame
import Pro5Android.Camera.Relay
import Pro5Android.Camera.Recording
import Pro5Android.Camera.Metering
import Pro5Android.Camera.Zoom
import Pro5Android.Window.Ownership
import Pro5Android.Audio.Wrapper
import Pro5Android.Audio.Hifi
import Pro5Android.Audio.Tracking
import Pro5Android.Audio.Rewriting
import Pro5Android.Audio.Forwarding
import Pro5Android.Audio.Rejection
import Pro5Android.Framework.HifiCache
import Pro5Android.Flinger.Recompute
import Pro5Android.Flinger.Route
import Pro5Android.Flinger.Arbitration
import Pro5Android.Torch.Reporting
import Pro5Android.Torch.Exclusion
import Pro5Android.Codec.Negotiation
import Pro5Android.Jpeg.Compression
import Pro5Android.Native3.Router
import Pro5Android.Native3.Requests
import Pro5Android.Stock.Search
import Pro5Android.Stock.SourcePath
import Pro5Android.Stock.Confinement
import Pro5Android.Lib.Transducer
import Pro5Android.Camera.Backing
import Pro5Android.Graphics.Framebuffer
import Pro5Android.Lib.Codec
import Pro5Android.Gatekeeper.Messages
import Pro5Android.Gatekeeper.Wire
import Pro5Android.Gatekeeper.Serialization
import Pro5Android.Lib.Dialogue
import Pro5Android.Gatekeeper.Program
import Pro5Android.Gatekeeper.Throttle
import Pro5Android.Gatekeeper.Authentication
import Pro5Android.Lib.While
import Pro5Android.Radio.JString
import Pro5Android.Radio.Conversion
import Pro5Android.Camera.ResultMetadata
import Pro5Android.Lib.Walk
import Pro5Android.Stock.Directories
import Pro5Android.Lib.Circular
import Pro5Android.Ril.Event
import Pro5Android.Ril.Lists
import Pro5Android.Ril.WatchTable
import Pro5Android.Ril.EventLoop
import Pro5Android.Ril.EventRuns
import Pro5Android.Lib.Ownership
import Pro5Android.Graphics.Gralloc
import Pro5Android.Graphics.GrallocBuffers
import Pro5Android.Graphics.GrallocMaps
import Pro5Android.Graphics.GrallocRuns
import Pro5Android.Graphics.GrallocLeaks
