import ModerationService.Library.ForLoop
import ModerationService.Library.Utf16
import ModerationService.Library.Utf8
import ModerationService.Library.Int32Loop
import ModerationService.Library.Runs
import ModerationService.Library.Collapse
import ModerationService.Library.Decimal
import ModerationService.Library.Traced
import ModerationService.Library.Machine
import ModerationService.Library.LogConsumer
import ModerationService.Library.Transaction
import ModerationService.Library.SharedPtr
import ModerationService.StdLib
import ModerationService.Icu
import ModerationService.SampleIcu
import ModerationService.Model.Constants
import ModerationService.Model.Messages
import ModerationService.Model.SampleProtobuf
import ModerationService.Service.TextNormalization
import ModerationService.Service.LeetspeakNormalization
import ModerationService.Service.WordChecker
import ModerationService.Service.TextProcessor
import ModerationService.Service.CodePoints
import ModerationService.Service.LoopRefinement
import ModerationService.Service.RunHeads
import ModerationService.Service.CanonicalForm
import ModerationService.Service.OnePass
import ModerationService.Service.Locality
import ModerationService.Service.Separators
import ModerationService.Service.HiddenCharacters
import ModerationService.Service.Stretching
import ModerationService.Service.LatinObfuscation
import ModerationService.Service.Homoglyphs
import ModerationService.Service.Orientation
import ModerationService.Service.LeetTokens
import ModerationService.Service.Evasion
import ModerationService.Service.Width32
import ModerationService.Service.Pipeline32
import ModerationService.Kafka.KafkaClient
import ModerationService.Config.Config
import ModerationService.Repository.Repository
import ModerationService.Service.Service
import ModerationService.Kafka.Intake
import ModerationService.Kafka.ExactlyOnce
import ModerationService.Kafka.Identity
import ModerationService.Kafka.Failures
import ModerationService.Kafka.MessageKey
import ModerationService.Kafka.KeyRoundTrip
import ModerationService.Kafka.Lifecycle
import ModerationService.Kafka.LifecycleSafety
import ModerationService.Kafka.Shutdown
import ModerationService.Handler.Handler
import ModerationService.Handler.EndToEnd
import ModerationService.Kafka.Published
import ModerationService.Repository.Table
import ModerationService.Server.Server
import ModerationService.Server.Signals
import ModerationService.Process.Process
import ModerationService.Process.Ownership
import ModerationService.Process.Teardown
import ModerationService.Process.Shutdown
import ModerationService.Delivery.Broker
import ModerationService.Delivery.Guarantees
import ModerationService.Delivery.Calls
import ModerationService.Delivery.Storage
