import OpenWebui.Chats.DeleteMessage
import OpenWebui.Chats.MergeHistory
import OpenWebui.Chats.UpsertMessage
import OpenWebui.ChatMessages.Row
import OpenWebui.Utils.Branch
import OpenWebui.Chats.MessagesMap
import OpenWebui.Utils.Usage
import OpenWebui.Utils.MergeUsage
import OpenWebui.ChatMessages.Upsert
import OpenWebui.AccessControl.Permissions
import OpenWebui.AccessGrants.Deciders
import OpenWebui.AccessGrants.Sharing
import OpenWebui.AccessControl.Files
import OpenWebui.Base.Text
import OpenWebui.Base.Runs
import OpenWebui.Base.Reach
import OpenWebui.Utils.MessageText
import OpenWebui.Utils.SystemMessages
import OpenWebui.Utils.SanitizeData
import OpenWebui.Timers.Execution
import OpenWebui.Timers.OneShot
import OpenWebui.Base.ParentLinks
import OpenWebui.Folders.Table
import OpenWebui.Folders.Requests
import OpenWebui.Base.Numbering
import OpenWebui.Folders.Shared
import OpenWebui.Folders.Owners
import OpenWebui.Folders.SharedListing
import OpenWebui.Base.Sequence
import OpenWebui.ToolCalls.Round
import OpenWebui.ToolCalls.Answered
import OpenWebui.Base.FirstFree
import OpenWebui.Tools.Resolve
import OpenWebui.Tools.Agreement
import OpenWebui.Citations.Messages
import OpenWebui.Base.Json
import OpenWebui.Config.Fragments
import OpenWebui.Config.Recovered
import OpenWebui.Tags.Mirrored
import OpenWebui.Tags.Requests
import OpenWebui.Tasks.Registry
import OpenWebui.Tasks.Rest
import OpenWebui.Base.Slots
import OpenWebui.Subagents.Delegate
import OpenWebui.Subagents.Capacity
import OpenWebui.Base.Search
import OpenWebui.TagOutput.Handler
import OpenWebui.Base.Expiring
import OpenWebui.Auth.Tokens
import OpenWebui.Auth.Revocation
import OpenWebui.OAuth.Refresh
import OpenWebui.OAuth.Rotation
import OpenWebui.Signup.Registration
import OpenWebui.Signup.FirstAdmin
import OpenWebui.Automations.OncePerDue
import OpenWebui.Base.Merging
import OpenWebui.Ydoc.Documents
import OpenWebui.Ydoc.NothingLost
import OpenWebui.Ydoc.NoteChecks
import OpenWebui.Ydoc.History
import OpenWebui.SharedChats.Cleared
import OpenWebui.SharedChats.Requests
import OpenWebui.SharedChats.Revoked
import OpenWebui.Chats.Writers
import OpenWebui.Chats.NoLostWrites
import OpenWebui.Knowledge.Requests
import OpenWebui.Knowledge.WellFormed
import OpenWebui.Knowledge.Updates
import OpenWebui.Base.Paths
import OpenWebui.Knowledge.Listing
import OpenWebui.Knowledge.ListedOnce
import OpenWebui.Knowledge.Deletion
import OpenWebui.Groups.PatchOrder
import OpenWebui.ToolServers.OnRoute
import OpenWebui.Imports.Sanitized
import OpenWebui.Config.Readers
import OpenWebui.Channels.Audience
import OpenWebui.Auth.LdapNames
import OpenWebui.Chats.LinkedFiles
import OpenWebui.Evaluations.Leaderboard
import OpenWebui.KnowledgeFs.Resolve
import OpenWebui.KnowledgeFs.Commands
import OpenWebui.KnowledgeFs.Agree
import OpenWebui.KnowledgeFs.Confined
import OpenWebui.KnowledgeFs.Pipeline
import OpenWebui.KnowledgeFs.Resolvers
import OpenWebui.KnowledgeFs.LineSelection
import OpenWebui.Base.Like
import OpenWebui.Base.JsonSearch
import OpenWebui.Base.JsonNested
import OpenWebui.Users.Lookup
import OpenWebui.OAuth.GroupSync
import OpenWebui.OAuth.GroupsExact
import OpenWebui.Utils.Routes
import OpenWebui.Memories.Requests
import OpenWebui.Memories.Mirrored
import OpenWebui.Memories.Sequential
import OpenWebui.Prompts.Versions
import OpenWebui.Prompts.Published
import OpenWebui.Channels.Messages
import OpenWebui.Channels.Requests
import OpenWebui.Channels.Accepted
import OpenWebui.Channels.Members
import OpenWebui.Channels.Membership
import OpenWebui.Channels.OnePerPeople
import OpenWebui.Channels.Writes
import OpenWebui.Channels.References
import OpenWebui.Channels.Reachable
import OpenWebui.Channels.Senders
import OpenWebui.Channels.Confined
import OpenWebui.Channels.SameAnswers
import OpenWebui.ModelList.Listing
import OpenWebui.ModelList.Overrides
import OpenWebui.ModelList.Applied
import OpenWebui.ModelList.Shown
import OpenWebui.ModelList.Memoryless
import OpenWebui.ModelList.Filtered
import OpenWebui.ModelList.Offered
import OpenWebui.Providers.Routing
import OpenWebui.Providers.Deliveries
import OpenWebui.Folders.Unread
import OpenWebui.Utils.StreamChunks
import OpenWebui.RateLimit.Counting
import OpenWebui.RateLimit.Agreement
import OpenWebui.Anthropic.Stream
import OpenWebui.Automations.Anchoring
import OpenWebui.Utils.RagTemplate
import OpenWebui.Utils.ToolPairs
import OpenWebui.Utils.Lineage
import OpenWebui.Utils.ForkHistory
import OpenWebui.Base.JsonScan
import OpenWebui.Base.JsonValue
import OpenWebui.Completions.Messages
import OpenWebui.Completions.Ollama
import OpenWebui.Base.Pieces
import OpenWebui.Completions.Responses
import OpenWebui.Base.Occurs
import Mathlib.Data.List.Perm.Basic
import OpenWebui.ToolCalls.Split
import OpenWebui.ToolCalls.DataFiles
import OpenWebui.Socket.RedisDict
import OpenWebui.Calendar.Upcoming
import OpenWebui.Templates.Limits
import OpenWebui.Automations.Intervals
import OpenWebui.Calendar.Recurring
import OpenWebui.TagOutput.Memo
import OpenWebui.TagOutput.Written
import OpenWebui.Retrieval.Merged
import OpenWebui.Retrieval.QueryResults
import OpenWebui.ToolServers.Schema
import OpenWebui.ToolServers.Unfolding
import OpenWebui.RateLimit.Window
import OpenWebui.Utils.OversizedLines
import OpenWebui.Utils.UsageSums
import OpenWebui.Anthropic.Arguments
