import Freenet.Apps.PingMerge
import Freenet.Apps.PostsFeed
import Freenet.ClientEvents.Combinator
import Freenet.ClientEvents.SessionHistory
import Freenet.Contract.FailedPut
import Freenet.Contract.FairQueue
import Freenet.Contract.QueuedUpdates
import Freenet.Contract.RelatedResolution
import Freenet.Contract.StateReplacement
import Freenet.Contract.ValidatedWrites
import Freenet.Delegate.SecretsStore
import Freenet.Delegate.TokenDelegate
import Freenet.Node.BroadcastQueue
import Freenet.Node.FinishedOperations
import Freenet.Node.PrioritySelect
import Freenet.Node.RootDelivery
import Freenet.Node.RootViews
import Freenet.Node.TypedTransactions
import Freenet.Operations.BroadcastMerges
import Freenet.Operations.ConnectAnswers
import Freenet.Operations.ConnectJoiner
import Freenet.Operations.ConnectMarks
import Freenet.Operations.GetRetries
import Freenet.Operations.UpdateRoutes
import Freenet.Ring.ConnectionTables
import Freenet.Ring.DownstreamSubscribers
import Freenet.Ring.HostingContents
import Freenet.Ring.LiveTransactions
import Freenet.Ring.LocalClients
import Freenet.Transport.FlightBalance
import Freenet.Transport.ListenerHandshakes
import Freenet.Transport.PipeStream
import Freenet.Transport.ThreadCounters
import Freenet.Transport.TokenBucket
import Freenet.Transport.TwoPeers
