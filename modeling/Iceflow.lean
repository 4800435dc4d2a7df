import Iceflow.Foundation.Transition
import Iceflow.Foundation.Words
import Iceflow.Foundation.Registry
import Iceflow.Foundation.Tables
import Iceflow.Platform
import Iceflow.DagParser
import Iceflow.DagParser.Fidelity
import Iceflow.Node
import Iceflow.Node.Subscriptions
import Iceflow.ReferencePlatform
import Iceflow.Node.Construction
import Iceflow.Node.Repartitioning
import Iceflow.NodeInstanceService.QueryStats
import Iceflow.WordCount
import Iceflow.NodeInstanceService.Repartition
import Iceflow.Node.Wiring
import Iceflow.Producer.Partitions
import Iceflow.Statistics
import Iceflow.Executor.Merging
import Iceflow.Executor.RoundTrip
import Iceflow.Topics
import Iceflow.EventLoop
import Iceflow.EventLoop.Shutdown
import Iceflow.RingBuffer.Fifo
import Iceflow.RingBuffer.Wakeup
import Iceflow.WordCount.ConsumerPartitions
import Iceflow.WordCount.PartitionLoop
import Iceflow.WordCount.Pipeline
import Iceflow.Node.Deliveries
import Iceflow.Node.Acknowledgements
import Iceflow.Node.Store
import Iceflow.Node.Bookkeeping
import Iceflow.Node.Backchannel
import Iceflow.Network
import Iceflow.Routing
import Iceflow.Measurement
import Iceflow.Measurement.Flushing
import Iceflow.Measurement.Failures
import Iceflow.Measurement.Rows
import Iceflow.Executor.Repartitioning
import Iceflow.RingBuffer.Progress
import Iceflow.RingBuffer.Snapshots
import Iceflow.Network.ExactlyOnce
import Iceflow.WordCount.Deployment
import Iceflow.Network.Application
import Iceflow.WordCount.Schedules
import Iceflow.Executor.Totals
import Iceflow.Node.Retention
import Iceflow.NodeInstanceService.Sharing
import Iceflow.Executor.Queries
import Iceflow.Executor.Uninterrupted
