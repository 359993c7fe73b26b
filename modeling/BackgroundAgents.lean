import BackgroundAgents.Lib.Coroutine
import BackgroundAgents.Session.Timeline
import BackgroundAgents.Session.CostAccounting
import BackgroundAgents.Session.QueueDispatch
import BackgroundAgents.Session.QueueWakeup
import BackgroundAgents.Session.StatusTruth
import BackgroundAgents.Session.AlarmCoverage
import BackgroundAgents.Session.EventPages
import BackgroundAgents.Automation.CronSlots
import BackgroundAgents.Automation.Overlap
import BackgroundAgents.Automation.RunLife
import BackgroundAgents.Automation.FailureAccounting
import BackgroundAgents.ImageBuilds.Lifecycle
import BackgroundAgents.ImageBuilds.Secrets
import BackgroundAgents.ImageBuilds.LiveImages
import BackgroundAgents.Sandbox.EventOrder
import BackgroundAgents.SessionIndex.ChildAdmission
import BackgroundAgents.SessionIndex.StatusProjection
import BackgroundAgents.SessionIndex.TerminalMessages
import BackgroundAgents.SessionIndex.InboxMarks
import BackgroundAgents.Workspace.LastOwner
import BackgroundAgents.ProviderAccounts.GrantSafety
import BackgroundAgents.PullRequests.Mirror
import BackgroundAgents.Sockets.Authority
import BackgroundAgents.Attachments.CleanupSafety
import BackgroundAgents.Mcp.RefreshSafety
import BackgroundAgents.Lifecycle.AlarmPolicy
import BackgroundAgents.Lifecycle.CircuitBreaker
import BackgroundAgents.Session.MetricsSync
import BackgroundAgents.Session.PushResults
import BackgroundAgents.Session.FinishedThreads
import BackgroundAgents.Session.ShutdownOwners
import BackgroundAgents.Sandbox.DiffRefresh
import BackgroundAgents.Users.FirstContact
import BackgroundAgents.SlackBot.ThreadClosure
import BackgroundAgents.PullRequests.Branches
import BackgroundAgents.PullRequests.Creation
import BackgroundAgents.PullRequests.CreationLaws
import BackgroundAgents.PullRequests.CreationSafety
import BackgroundAgents.Lib.Regexes
import BackgroundAgents.Slack.Mrkdwn
import BackgroundAgents.Lib.Bytes
import BackgroundAgents.Lib.Dictionaries
import BackgroundAgents.Lib.Inquiries
import BackgroundAgents.Lib.Json
import BackgroundAgents.Lib.Utf8
import BackgroundAgents.Sandbox.BundleBounds
import BackgroundAgents.Sandbox.EventSize
import BackgroundAgents.Sandbox.EventSizeLaws
import BackgroundAgents.Sandbox.GitListingLaws
import BackgroundAgents.Sandbox.HeldEvents
import BackgroundAgents.Sandbox.SizedForwarder
import BackgroundAgents.Sandbox.TruncatedListings
import BackgroundAgents.Slack.SectionFences
import BackgroundAgents.Slack.SectionLaws
import BackgroundAgents.Slack.SplitSections
import BackgroundAgents.Harness.CodexText
import BackgroundAgents.Harness.CodexTextLaws
import BackgroundAgents.Harness.CodexTokens
import BackgroundAgents.Harness.ClaudeHarness
import BackgroundAgents.Harness.ClaudeSpend
import BackgroundAgents.Harness.ClaudeAccounts
import BackgroundAgents.Triggers.Glob
import BackgroundAgents.Triggers.GlobLaws
import BackgroundAgents.Automation.Cron
import BackgroundAgents.Automation.CronLaws
import BackgroundAgents.Lib.StableSort
import BackgroundAgents.Lib.Uri
import BackgroundAgents.Services.SignatureLaws
import BackgroundAgents.Attachments.DownloadHeaders
import BackgroundAgents.Memory.ChunkedPages
import BackgroundAgents.Session.EventCursors
import BackgroundAgents.Slack.Posts
