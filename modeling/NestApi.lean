import NestApi.AuthService
import NestApi.BackpressureAccounting
import NestApi.ChannelAgreement
import NestApi.Csv
import NestApi.DataKeyBudget
import NestApi.DeepFreeze
import NestApi.Diagnostics
import NestApi.EventConsumer
import NestApi.FieldEnvelope
import NestApi.HttpAnswers
import NestApi.HttpDeadline
import NestApi.IdempotencyEquivalence
import NestApi.IdempotencyKey
import NestApi.IdempotencyRace
import NestApi.IdempotencyReplay
import NestApi.LiveChannels
import NestApi.LockCompleteness
import NestApi.LockSoundness
import NestApi.LogAddresses
import NestApi.MessagingCommits
import NestApi.MessagingNoSkip
import NestApi.MessagingOwnership
import NestApi.OrdersDelivery
import NestApi.OrdersOverlap
import NestApi.OrdersParcel
import NestApi.OrdersRecovery
import NestApi.OrdersTraversal
import NestApi.OutboxProgress
import NestApi.PaymentsStateMachine
import NestApi.PeerAuthorization
import NestApi.RedlockOrder
import NestApi.RefreshTokenFamilies
import NestApi.RetrySchedule
import NestApi.SagaDrive
import NestApi.SagaFleetLease
import NestApi.SagaFleetTerminal
import NestApi.SagaPivot
import NestApi.SagaResume
import NestApi.UsersFreshness
import NestApi.UsersPreferences
import NestApi.UsersRoutes
import NestApi.UsersTraversal
