import TaifexResolver.Foundation.UnorderedMap
import TaifexResolver.Foundation.Execution
import TaifexResolver.Foundation.Interleaving
import TaifexResolver.Foundation.Substream
import TaifexResolver.Foundation.Cursor
import TaifexResolver.Message
import TaifexResolver.OrderBook.Ladder
import TaifexResolver.OrderBook.Ladders
import TaifexResolver.OrderBook.Manager
import TaifexResolver.OrderBook.Step
import TaifexResolver.OrderBook.ProductView
import TaifexResolver.OrderBook.Tracking
import TaifexResolver.OrderBook.Builders
import TaifexResolver.Exchange.History
import TaifexResolver.Exchange.Soundness
import TaifexResolver.Delivery.Mirror
import TaifexResolver.Staleness.RunHistory
import TaifexResolver.Staleness.Characterisation
import TaifexResolver.Staleness.Realtime
import TaifexResolver.Staleness.Retransmission
import TaifexResolver.Staleness.ChannelRun
import TaifexResolver.Staleness.LossDetection
import TaifexResolver.Staleness.LateArrival
import TaifexResolver.Staleness.DelayedSnapshot
import TaifexResolver.Exchange.Convergence
import TaifexResolver.Parser.Decode
import TaifexResolver.Parser.Process
import TaifexResolver.Parser.Bounds
import TaifexResolver.Foundation.Framing
import TaifexResolver.Parser.Encode
import TaifexResolver.Parser.RoundTrip
import TaifexResolver.Parser.Packing
import TaifexResolver.Parser.Drive
import TaifexResolver.Foundation.Window
import TaifexResolver.OrderBook.LadderEdits
import TaifexResolver.Exchange.UnboundedSide
import TaifexResolver.Foundation.Unwinding
import TaifexResolver.OrderBook.Operation
import TaifexResolver.Delivery.Routing
import TaifexResolver.Delivery.Isolation
import TaifexResolver.Exchange.Adoption
import TaifexResolver.Exchange.Provenance
import TaifexResolver.Staleness.SnapshotChannel
import TaifexResolver.Foundation.Checksum
import TaifexResolver.Parser.Corruption
import TaifexResolver.Exchange.Epochs
import TaifexResolver.Parser.Receive
import TaifexResolver.Concurrency.Atomicity
import TaifexResolver.Concurrency.Manager
import TaifexResolver.Concurrency.ReceiveThreads
import TaifexResolver.Concurrency.Disclosure
import TaifexResolver.Concurrency.Sessions
import TaifexResolver.Exchange.Contents
import TaifexResolver.Exchange.Recovery
import TaifexResolver.Parser.LoopStep
import TaifexResolver.Parser.Lifecycle
import TaifexResolver.Delivery.PythonText
