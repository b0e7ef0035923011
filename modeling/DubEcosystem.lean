import DubEcosystem.FreeqDurability
import DubEcosystem.LpTicketsDisputes
import DubEcosystem.LpTicketsPaidWins
import DubEcosystem.GithubSyncLabels
import DubEcosystem.IdentityRosterLockoutFree
import DubEcosystem.IdentityRosterAuthz
import DubEcosystem.IdentityRosterRetired
import DubEcosystem.GithubSyncDirection
import DubEcosystem.PolicyGateRefinement
import DubEcosystem.GithubSyncImports
import DubEcosystem.LpTicketsCoupons
import DubEcosystem.LpTicketsFulfilment
import DubEcosystem.GanttCalcCalendar
import DubEcosystem.MailGatewayLists
import DubEcosystem.MailGatewayConflicts
import DubEcosystem.MailGatewayChanges
import DubEcosystem.MailBlocks
import DubEcosystem.NotificationArrival
import DubEcosystem.UserForwardOwnership
import DubEcosystem.LpDeliveryCap
import DubEcosystem.ChatSocketSingle
import DubEcosystem.ChatMentionsAgree
import DubEcosystem.ChatThreadsKept
import DubEcosystem.ChatDirectMessagesKept
import DubEcosystem.ChatCatchUpKept
import DubEcosystem.CommanderLedger
import DubEcosystem.CommanderRunsKept
import DubEcosystem.CommanderBundlesKept
import DubEcosystem.AuthClientDecisions
import DubEcosystem.DriveShareAlone
import DubEcosystem.TaskServiceDueSoon
import DubEcosystem.TaskServiceParents
import DubEcosystem.AuditLogKept
import DubEcosystem.WebhookIngestKept
import DubEcosystem.AuthSessionsImpersonation
import DubEcosystem.ChatTimelineEcho
import DubEcosystem.ChatOptimisticUndone
import DubEcosystem.HttpClientRetries
import DubEcosystem.DbMigrationsApplied
import DubEcosystem.SlackImportIds
import DubEcosystem.DbNamespaceGuard
import DubEcosystem.GanttCalcCriticalPath
import DubEcosystem.PolicyGateMiddleware
import DubEcosystem.LpTicketsCsv
import DubEcosystem.PasswordGuesses
