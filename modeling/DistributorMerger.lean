import DistributorMerger.Filter.ImsiSoundness
import DistributorMerger.Filter.ImsiCompleteness
import DistributorMerger.Filter.ImsiCorrelation
import DistributorMerger.Filter.Chunkpcapfile
import DistributorMerger.Filter.DecoderReads
import DistributorMerger.Filter.AddressSubstitution
import DistributorMerger.Filter.Usectstamp
import DistributorMerger.Filter.Pipelines
import DistributorMerger.Filter.Pcapfilestats
import DistributorMerger.Config.Pcapmerger
import DistributorMerger.Config.Pcapdistributer
import DistributorMerger.Pcap.UntunnelBounds
import DistributorMerger.Pcap.UntunnelMeaning
import DistributorMerger.Pcap.Reporting
import DistributorMerger.Pcap.Flushing
import DistributorMerger.Session.Rates
import DistributorMerger.Session.Merge
import DistributorMerger.Session.Holding
import DistributorMerger.Session.Startup
import DistributorMerger.Session.Descriptors
import DistributorMerger.Session.Restart
import DistributorMerger.Session.Shutdown
import DistributorMerger.Session.Listing
import DistributorMerger.Session.Persistence
import DistributorMerger.Session.Passes
import DistributorMerger.Session.OwnDescriptors
import DistributorMerger.Session.Cancellation
import DistributorMerger.Session.Deadlock
import DistributorMerger.Session.Liveness
import DistributorMerger.Session.Draining
import DistributorMerger.Session.Clients
import DistributorMerger.Session.Aborting
import DistributorMerger.Session.Dumping
import DistributorMerger.Session.Distribution
import DistributorMerger.Session.EndToEnd
import DistributorMerger.Session.Construction
import DistributorMerger.Session.Ownership
import DistributorMerger.Bytes.CharBuffer
import DistributorMerger.Config.FilterConfig
import DistributorMerger.Config.Paths
import DistributorMerger.Filter.Columns
import DistributorMerger.Filter.EndUserAddress
import DistributorMerger.Gtp.ImsiText
import DistributorMerger.Session.Divisor
import DistributorMerger.Session.FileSelection
import DistributorMerger.Session.ChunkedCapture
import DistributorMerger.Filter.ImsiOutput
import DistributorMerger.Filter.Encapsulation
import DistributorMerger.Session.Vacating
import DistributorMerger.Filter.DecodegtpOutput
