import Portex.Foundation.Dict
import Portex.Foundation.Transition
import Portex.Foundation.Text
import Portex.Foundation.Table
import Portex.Foundation.Path
import Portex.Foundation.FileTree
import Portex.Foundation.Pipeline
import Portex.Foundation.Journal
import Portex.Foundation.Utf8
import Portex.Foundation.ReadModifyWrite
import Portex.Foundation.Final
import Portex.Foundation.Search
import Portex.Foundation.Json
import Portex.Foundation.JsonWriter
import Portex.Foundation.TextFile
import Portex.Foundation.JsonDict
import Portex.Foundation.Window
import Portex.Foundation.Leftmost
import Portex.Foundation.Partition
import Portex.Foundation.Newest
import Portex.Foundation.Paging
import Portex.Foundation.FileWrites
import Portex.Foundation.Segments
import Portex.Foundation.PythonJson
import Portex.Foundation.Raises
import Portex.Foundation.Regex
import Portex.Foundation.RegexAtoms
import Portex.Foundation.Replace
import Portex.Foundation.Sql
import Portex.Foundation.SortKey
import Portex.Foundation.Base64
import Portex.Foundation.Index
import Portex.Foundation.JsonAscii
import Portex.Foundation.Tally
import Portex.Foundation.Entries
import Portex.Coordinator.SessionStore
import Portex.Coordinator.State
import Portex.Coordinator.Operations
import Portex.Coordinator.Step
import Portex.Coordinator.Moves
import Portex.Coordinator.Invariant
import Portex.Coordinator.Service
import Portex.Coordinator.ExactlyOnce
import Portex.Coordinator.Stall
import Portex.Coordinator.Commit
import Portex.Coordinator.SessionIsolation
import Portex.Coordinator.Progress
import Portex.Coordinator.Waiters
import Portex.Coordinator.Strides
import Portex.Coordinator.Postings
import Portex.Coordinator.Retention
import Portex.Coordinator.Origins
import Portex.Coordinator.Freshness
import Portex.Coordinator.Threads
import Portex.Coordinator.Retry
import Portex.Coordinator.Completed
import Portex.Terminal.State
import Portex.Terminal.Operations
import Portex.Terminal.Step
import Portex.Terminal.Effects
import Portex.Terminal.Sessions
import Portex.Terminal.Invariant
import Portex.Terminal.Absorbing
import Portex.Terminal.Connections
import Portex.Terminal.Maps
import Portex.Terminal.Turns
import Portex.Terminal.Answers
import Portex.Terminal.Failure
import Portex.Terminal.Bridges
import Portex.Terminal.Streams
import Portex.Terminal.Persistence
import Portex.Terminal.Restart
import Portex.Terminal.History
import Portex.Terminal.Decoding
import Portex.Terminal.HistorySearch
import Portex.Terminal.MatchKinds
import Portex.Terminal.Separators
import Portex.Terminal.Wrappers
import Portex.Terminal.Timeline
import Portex.Terminal.SnapshotFiles
import Portex.Terminal.Frames
import Portex.Terminal.SearchRanking
import Portex.Registry.State
import Portex.Registry.Service
import Portex.Registry.Routes
import Portex.Registry.Rows
import Portex.Registry.Access
import Portex.Registry.Folder
import Portex.Registry.Creation
import Portex.Registry.Names
import Portex.Registry.Owners
import Portex.Registry.Race
import Portex.Registry.MemberMigrations
import Portex.Registry.Slots
import Portex.Registry.Bindings
import Portex.Auth.Registration
import Portex.Auth.Passwords
import Portex.Auth.Accounts
import Portex.Auth.Requests
import Portex.Auth.Logins
import Portex.Runtime.Events
import Portex.Exec.Directories
import Portex.Exec.Frames
import Portex.Exec.ContainerNames
import Portex.Exec.ProcessRegistry
import Portex.Exec.HostRuns
import Portex.Exec.ContainerRuns
import Portex.Memory.Service
import Portex.Memory.Namespaces
import Portex.Memory.Cache
import Portex.Websocket.Events
import Portex.Websocket.Broadcast
import Portex.Websocket.Endpoint
import Portex.Websocket.EndpointInvariant
import Portex.Websocket.Uniqueness
import Portex.Settings.Service
import Portex.Mcp.Servers
import Portex.Mcp.Normalisers
import Portex.Mcp.ReadBack
import Portex.Mcp.Refinement
import Portex.Mcp.Concurrency
import Portex.Scheduler.State
import Portex.Scheduler.Interval
import Portex.Scheduler.Pass
import Portex.Scheduler.Robustness
import Portex.Scheduler.Firing
import Portex.Scheduler.Interleaving
import Portex.Workspace.Files
import Portex.Workspace.TextFiles
import Portex.Workspace.Uploads
import Portex.Skills.Service
import Portex.Skills.Refinement
import Portex.Im.Webhooks
import Portex.Im.Markdown
import Portex.Im.Document
import Portex.Im.Fragments
import Portex.Im.Placeholders
import Portex.Im.Restore
import Portex.Im.WellFormed
import Portex.Im.Kept
import Portex.Im.Escaped
import Portex.Messages.Records
import Portex.Messages.Audit
import Portex.Messages.Usage
import Portex.Messages.Dispatch
import Portex.Messages.Replies
import Portex.Messages.Conversations
import Portex.Scheduler.TaskLogs
import Portex.Scheduler.TaskRuns
