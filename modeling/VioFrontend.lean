import VioFrontend.Library.Loops
import VioFrontend.Library.CheckedBuffer
import VioFrontend.Library.BlockMemory
import VioFrontend.Library.Access
import VioFrontend.Library.CircularArc
import VioFrontend.Library.PackedBytes
import VioFrontend.Library.Segments
import VioFrontend.Library.Runs
import VioFrontend.Library.Mailbox
import VioFrontend.Library.RingBuffer
import VioFrontend.Library.LeastSquares
import VioFrontend.Library.Descent
import VioFrontend.Math.Linalg
import VioFrontend.Image.Basic
import VioFrontend.Image.Downsample
import VioFrontend.Image.Blur
import VioFrontend.Image.ImagePyramid
import VioFrontend.Image.PyramidBounds
import VioFrontend.Image.DownsampleInplace
import VioFrontend.Image.BlurResult
import VioFrontend.Image.Brightness
import VioFrontend.Image.Patch
import VioFrontend.Image.Sampling
import VioFrontend.FeatureTracking.Basic
import VioFrontend.FeatureTracking.Lanes
import VioFrontend.FeatureTracking.Identity
import VioFrontend.FeatureTracking.Singular
import VioFrontend.FeatureTracking.Independence
import VioFrontend.FeatureTracking.Brightness
import VioFrontend.FeatureTracking.LeastSquares
import VioFrontend.FeatureTracking.Displacement
import VioFrontend.FeatureTracking.Descent
import VioFrontend.FeatureExtraction.Basic
import VioFrontend.FeatureExtraction.CornerScore
import VioFrontend.FeatureExtraction.Candidate
import VioFrontend.FeatureExtraction.Prefilter
import VioFrontend.FeatureExtraction.Scan
import VioFrontend.FeatureExtraction.Suppression
import VioFrontend.FeatureExtraction.Output
import VioFrontend.FeatureExtraction.SegmentTest
import VioFrontend.FeatureExtraction.TwoRuns
import VioFrontend.FeatureExtraction.Brightness
import VioFrontend.FeatureExtraction.Symmetry
import VioFrontend.FeatureExtraction.LastRow
import VioFrontend.FeatureExtraction.LeftOver
import VioFrontend.FeatureExtraction.RightMargin
import VioFrontend.FeatureExtraction.StaleScores
import VioFrontend.FeatureExtraction.SkippedPixels
import VioFrontend.Pipeline.Pyramid
import VioFrontend.Pipeline.Basic
import VioFrontend.Pipeline.Invariant
import VioFrontend.Pipeline.Brightness
import VioFrontend.Multicore.Basic
import VioFrontend.Multicore.Handshake
import VioFrontend.Multicore.Messages
import VioFrontend.Multicore.Startup
import VioFrontend.Multicore.Virtqueue
import VioFrontend.Multicore.VirtqueueInvariant
import VioFrontend.Multicore.SharedMemory
import VioFrontend.Multicore.VirtqueueSteps
import VioFrontend.Multicore.VirtqueueRuns
import VioFrontend.Multicore.Link
import VioFrontend.Multicore.StartupExchange
import VioFrontend.Util.Quicksort
import VioFrontend.Util.Numerals
import VioFrontend.DatasetLoader
import VioFrontend.Test.Fast
import VioFrontend.Lodepng.RoundTrip
import VioFrontend.Lodepng.Scanlines
import VioFrontend.Test.LucasKanade
import VioFrontend.Drivers.CurrentDirectory
import VioFrontend.Drivers.DiskFailures
