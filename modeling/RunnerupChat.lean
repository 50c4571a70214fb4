import RunnerupChat.Runs
import RunnerupChat.SnapshotUpdate
import RunnerupChat.SlidingWindow
import RunnerupChat.SortedSet
import RunnerupChat.RateLimit
import RunnerupChat.Lineage
import RunnerupChat.SessionStore
import RunnerupChat.SessionInvariant
import RunnerupChat.TokenFamilies
import RunnerupChat.FamilyRevocation
import RunnerupChat.AccessTokens
import RunnerupChat.OtpStore
import RunnerupChat.OtpInvariant
import RunnerupChat.OtpVerification
import RunnerupChat.OtpSupersession
import RunnerupChat.UnitOfWork
import RunnerupChat.OtpLogin
import RunnerupChat.OtpAudit
import RunnerupChat.KeysetPage
import RunnerupChat.SequencedLog
import RunnerupChat.MessageStore
import RunnerupChat.MessageEffects
import RunnerupChat.MessageInvariant
import RunnerupChat.EventOrder
import RunnerupChat.EventSync
import RunnerupChat.MessageErasure
import RunnerupChat.MessageRevisions
import RunnerupChat.Tombstones
import RunnerupChat.EditTrail
import RunnerupChat.Idempotency
import RunnerupChat.SendCalls
import RunnerupChat.SendRaces
import RunnerupChat.Outbox
import RunnerupChat.Authz
import RunnerupChat.AccessRules
import RunnerupChat.ContentReads
import RunnerupChat.ReadScope
import RunnerupChat.SystemRoles
import RunnerupChat.Routes
import RunnerupChat.Conversations
import RunnerupChat.Blocking
import RunnerupChat.SendPermission
import RunnerupChat.RowSchemas
import RunnerupChat.Membership
import RunnerupChat.MemberLimit
import RunnerupChat.Bans
import RunnerupChat.Ownership
import RunnerupChat.Promotion
import RunnerupChat.DigitOrder
import RunnerupChat.DirectRaces
import RunnerupChat.InviteRaces
import RunnerupChat.ConnectionManager
import RunnerupChat.ManagerInvariant
import RunnerupChat.SocketFrames
import RunnerupChat.SocketRevocation
import RunnerupChat.EventDelivery
import RunnerupChat.MessageFaults
import RunnerupChat.ObjectProbe
import RunnerupChat.Uploads
import RunnerupChat.FinalizeOutcome
import RunnerupChat.HiddenExtensions
import RunnerupChat.ClientIp
import RunnerupChat.CsrfCheck
import RunnerupChat.Presence
import RunnerupChat.SocketLife
import RunnerupChat.AttachmentBinding
import RunnerupChat.MessageNumbers
import RunnerupChat.ReadMarks
import RunnerupChat.MessageObjects
import RunnerupChat.MessageContent
import RunnerupChat.PageReading
import RunnerupChat.MessagePages
import RunnerupChat.Reconnect
import RunnerupChat.ChatPage
import RunnerupChat.DisplayedMessages
import RunnerupChat.KeptMessages
import RunnerupChat.ServedPages
import RunnerupChat.RefreshClient
import RunnerupChat.SessionTurns
import RunnerupChat.RefreshRotation
import RunnerupChat.FileNames
import RunnerupChat.SafeNames
import RunnerupChat.OtpConsumption
import RunnerupChat.RetryAfter
import RunnerupChat.InviteRedemption
import RunnerupChat.RepeatedRedemption
import RunnerupChat.GroupMembers
import RunnerupChat.Mentions
import RunnerupChat.Pacing
import RunnerupChat.EditBudget
import RunnerupChat.SubscribedChannel
import RunnerupChat.HashedSets
import RunnerupChat.ConnectionSets
import RunnerupChat.RotationFaults
import RunnerupChat.SocketCleanup
import RunnerupChat.EventReplay
import RunnerupChat.CoupledWork
import RunnerupChat.Guessing
import RunnerupChat.OtpRequests
import RunnerupChat.OtpOutcomes
import RunnerupChat.OtpSecrecy
import RunnerupChat.OtpUniformity
import RunnerupChat.OtpPurge
import RunnerupChat.Reactions
import RunnerupChat.BlockCalls
import RunnerupChat.Reports
import RunnerupChat.DatabaseRole
import RunnerupChat.AttachmentPurge
import RunnerupChat.FanOut
import RunnerupChat.FamilyAges
import RunnerupChat.RoleTrail
import RunnerupChat.Suspension
import RunnerupChat.SessionWaits
