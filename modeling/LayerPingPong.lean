import LayerPingPong.Base.Checked
import LayerPingPong.Base.Ranking
import LayerPingPong.MeasureCommon.HistReport
import LayerPingPong.MeasureCommon.TopN
import LayerPingPong.MeasureCommon.Histogram
import LayerPingPong.Base.TransitionSystem
import LayerPingPong.FastrtpsPubsub.Listener
import LayerPingPong.FastrtpsPubsub.WakeUp
import LayerPingPong.FastrtpsPubsub.Relay
import LayerPingPong.FastrtpsPubsub.Readiness
import LayerPingPong.Base.Accounting
import LayerPingPong.RclPubsub.Delivery
import LayerPingPong.RmwPubsub.Delivery
import LayerPingPong.Base.Channel
import LayerPingPong.TwoWay.Exchange
import LayerPingPong.TwoWay.Counting
import LayerPingPong.TwoWay.Soundness
import LayerPingPong.TwoWay.Matching
import LayerPingPong.TwoWay.Lifetime
import LayerPingPong.TwoWay.Outlives
import LayerPingPong.TwoWay.Abandoned
import LayerPingPong.MeasureCommon.TimeSeriesReport
import LayerPingPong.MeasureCommon.Export
import LayerPingPong.TwoWay.Arguments
import LayerPingPong.TwoWay.Reports
import LayerPingPong.RclcppPubsub.Subscriber
import LayerPingPong.RclcppPubsub.Waiting
import LayerPingPong.RmwPubsub.Iteration
import LayerPingPong.RmwPubsub.Timeout
import LayerPingPong.RclcppPubsub.Deadline
import LayerPingPong.Base.Ledger
import LayerPingPong.RmwPubsub.Lifecycle
import LayerPingPong.LayerPubsubCommon.Lifecycle
import LayerPingPong.TwoWay.HandOver
import LayerPingPong.Base.Codec
import LayerPingPong.FastrtpsPubsub.TypeSupport
import LayerPingPong.FastrtpsPubsub.TypeName
import LayerPingPong.Base.Potential
import LayerPingPong.Base.Simulation
import LayerPingPong.FastrtpsPubsub.Iteration
import LayerPingPong.FastrtpsPubsub.Progress
import LayerPingPong.TwoWay.Completion
import LayerPingPong.TwoWay.Wire
import LayerPingPong.Base.Nesting
import LayerPingPong.FastrtpsPubsub.Lifecycle
import LayerPingPong.RclPubsub.Publisher
import LayerPingPong.RmwPubsub.Publisher
import LayerPingPong.TwoWay.CommandLine
import LayerPingPong.TwoWay.Files
import LayerPingPong.TwoWay.ProcessLifetime
import LayerPingPong.Base.Pacing
import LayerPingPong.MeasureCommon.Text
import LayerPingPong.TwoWay.Duration
import LayerPingPong.TwoWay.Main
import LayerPingPong.TwoWay.Texts
import LayerPingPong.Base.History
import LayerPingPong.FastrtpsPubsub.Queue
import LayerPingPong.RclcppPubsub.Delivery
import LayerPingPong.LayerPubsubCommon.Agreement
import LayerPingPong.LayerPubsubCommon.Interface
import LayerPingPong.TwoWay.Layers
import LayerPingPong.RclcppPubsub.Executor
import LayerPingPong.FastrtpsPubsub.Topic
import LayerPingPong.TwoWay.Dds
