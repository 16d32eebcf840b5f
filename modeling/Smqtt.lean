import Smqtt.Library.Pool
import Smqtt.Library.Positions
import Smqtt.Library.Tally
import Smqtt.Library.Settlement
import Smqtt.Library.Refinement
import Smqtt.Library.KeyedTable
import Smqtt.Library.ErrorSafety
import Smqtt.Library.TopicFilter
import Smqtt.Library.Base64Url
import Smqtt.Library.JsonStrings
import Smqtt.Core.State
import Smqtt.Core.Operations
import Smqtt.Core.Db
import Smqtt.Core.Startup
import Smqtt.Api.Handlers
import Smqtt.Core.Integrity
import Smqtt.Api.Footprint
import Smqtt.Api.Outcomes
import Smqtt.Api.Events
import Smqtt.Api.ExchangeEvents
import Smqtt.Api.ExchangeOutcomes
import Smqtt.Runs.Atomic
import Smqtt.Runs.Deployment
import Smqtt.Runs.Provenance
import Smqtt.Runs.Interleaved
import Smqtt.Runs.Admissions
import Smqtt.Runs.Schedules
import Smqtt.Runs.Exchanges
import Smqtt.Api.Authorization
import Smqtt.Api.RelationshipEvents
import Smqtt.Api.RegistrationEvents
import Smqtt.Runs.Relationships
import Smqtt.Runs.RegistrationTokens
import Smqtt.Runs.Tables
import Smqtt.Runs.Identifiers
import Smqtt.Runs.Users
import Smqtt.Client.SmqttClient
import Smqtt.Client.Codec
import Smqtt.Runs.Clients
import Smqtt.Runs.Undisturbed
import Smqtt.Runs.Successes
import Smqtt.Client.SmokeTest
import Smqtt.Runs.Cutoff
import Smqtt.Metatheory.SubscribeSoundness
import Smqtt.Metatheory.TopicConfidentiality
import Smqtt.Metatheory.PublishGate
import Smqtt.Metatheory.TokenCutoff
import Smqtt.Metatheory.SuspendedOffline
import Smqtt.Metatheory.TokenAgreement
import Smqtt.Metatheory.Revocation
import Smqtt.Metatheory.ChallengeResponse
import Smqtt.Metatheory.ExchangeAgreement
import Smqtt.Metatheory.ExchangeRetention
import Smqtt.Metatheory.ReportedSuccess
import Smqtt.Metatheory.RegistrationAtomicity
import Smqtt.Metatheory.SessionTakeover
import Smqtt.Metatheory.TokenLifetime
import Smqtt.Metatheory.LoginInterference
import Smqtt.Metatheory.Ownership
import Smqtt.Metatheory.PurgeSchedule
import Smqtt.Metatheory.StrangerKick
import Smqtt.Metatheory.CutoffOrder
import Smqtt.Metatheory.FailedRequests
import Smqtt.Metatheory.DeviceKeys
import Smqtt.Metatheory.ExpiryArithmetic
import Smqtt.Metatheory.LiveRelationships
import Smqtt.Metatheory.KickReach
import Smqtt.Metatheory.ConnectedClients
import Smqtt.Metatheory.TokenAdmission
import Smqtt.Metatheory.KickBarrier
import Smqtt.Metatheory.ExchangeNotices
import Smqtt.Metatheory.RowHistories
import Smqtt.Metatheory.WellFormedState
import Smqtt.Metatheory.LoginAvailability
import Smqtt.Metatheory.SmokeTest
import Smqtt.Metatheory.CompleteMediation
import Smqtt.Metatheory.InternalErrors
