import OriGateway.Foundation.FsProgram
import OriGateway.Foundation.GoMap
import OriGateway.Evidence.QueueCalls
import OriGateway.Evidence.Queue
import OriGateway.Evidence.Consistency
import OriGateway.Evidence.Opening
import OriGateway.Evidence.Content
import OriGateway.Evidence.Recovery
import OriGateway.Evidence.Reopening
import OriGateway.Evidence.FailedWrites
import OriGateway.Evidence.Crashes
import OriGateway.Evidence.Shares
import OriGateway.Evidence.Admission
import OriGateway.Foundation.Heap
import OriGateway.Foundation.Int64
import OriGateway.MqttAuth.ReplayState
import OriGateway.MqttAuth.Replay
import OriGateway.Foundation.Runs
import OriGateway.MqttAuth.SigningClock
import OriGateway.MqttAuth.SigningInvariants
import OriGateway.MqttAuth.SigningHistory
import OriGateway.MqttAuth.SigningBounds
import OriGateway.Site.Health
import OriGateway.Evidence.QueueList
import OriGateway.Evidence.Authority
import OriGateway.Evidence.Acknowledgement
import OriGateway.Evidence.ReturnPublisher
import OriGateway.Foundation.Gate
import OriGateway.Lifecycle.Stop
import OriGateway.Lifecycle.Release
import OriGateway.Lifecycle.Progress
import OriGateway.Delivery.Lane
import OriGateway.Delivery.Worker
import OriGateway.Delivery.Journal
import OriGateway.Delivery.Acceptance
import OriGateway.Delivery.Holds
import OriGateway.Delivery.Handoffs
import OriGateway.Config.Evidence
import OriGateway.Config.Directories
import OriGateway.Site.Heartbeats
import OriGateway.Delivery.Deadlines
import OriGateway.Delivery.Channel
import OriGateway.Delivery.Sidecars
import OriGateway.Evidence.SigningClock
import OriGateway.Foundation.JsonReading
import OriGateway.Foundation.CanonicalJson
import OriGateway.Foundation.StrictJson
import OriGateway.MqttAuth.Signing
import OriGateway.MqttAuth.Accepted
import OriGateway.MqttAuth.Encryption
import OriGateway.Evidence.Inbound
import OriGateway.Foundation.Recent
import OriGateway.Site.ChainHeads
import OriGateway.Site.Silence
import OriGateway.RuntimeClient.HealthReader
import OriGateway.Foundation.Restarts
import OriGateway.Evidence.DeviceNotes
import OriGateway.Foundation.Place
import OriGateway.Evidence.FirstOpen
import OriGateway.Dispatcher.Messages
import OriGateway.Dispatcher.Requests
import OriGateway.Dispatcher.Answers
import OriGateway.Dispatcher.Deadlines
import OriGateway.Foundation.Calendar
import OriGateway.Heartbeat.Publisher
import OriGateway.Reporting.Schedule
import OriGateway.RuntimeClient.ExportItems
import OriGateway.Foundation.Checks
import OriGateway.Site.Degradation
import OriGateway.Dispatcher.ResponseSizes
import OriGateway.Foundation.JsonEscapes
import OriGateway.Evidence.RoutingFields
import OriGateway.RuntimeClient.ExportAll
import OriGateway.Foundation.Bucket
import OriGateway.Broker.Ingress
import OriGateway.WebhookBridge.Limit
import OriGateway.AsyncLog.Queue
import OriGateway.WebhookBridge.Senders
