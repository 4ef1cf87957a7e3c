import NestStarter.Core.Machine
import NestStarter.Core.ReadCommitted
import NestStarter.Core.PosixPath
import NestStarter.Core.Procedure
import NestStarter.Core.Batch
import NestStarter.Domain
import NestStarter.RefreshTokens.Service
import NestStarter.RefreshTokens.Machine
import NestStarter.RefreshTokens.Chain
import NestStarter.RefreshTokens.SingleUse
import NestStarter.RefreshTokens.Sweep
import NestStarter.Otps.Service
import NestStarter.Otps.Table
import NestStarter.Otps.History
import NestStarter.Otps.Refinement
import NestStarter.Otps.Contract
import NestStarter.Otps.Window
import NestStarter.Otps.Machine
import NestStarter.Otps.Reuse
import NestStarter.Otps.Live
import NestStarter.Otps.Caps
import NestStarter.Otps.Serial
import NestStarter.Otps.Retention
import NestStarter.Otps.IssueRate
import NestStarter.Accounts.Entities
import NestStarter.Accounts.Cache
import NestStarter.Accounts.Guards
import NestStarter.Accounts.Coherence
import NestStarter.Accounts.Dto
import NestStarter.Accounts.Save
import NestStarter.Accounts.LostUpdate
import NestStarter.Accounts.Completion
import NestStarter.Accounts.Passwords
import NestStarter.RefreshTokens.Calls
import NestStarter.RefreshTokens.Serial
import NestStarter.RefreshTokens.Prune
import NestStarter.RefreshTokens.Effects
import NestStarter.RefreshTokens.Logout
import NestStarter.Sessions.System
import NestStarter.Sessions.Gate
import NestStarter.Sessions.Admins
import NestStarter.Sessions.CredentialChange
import NestStarter.Sessions.Failures
import NestStarter.Storage.Keys
import NestStarter.Storage.Provider
import NestStarter.Storage.Local
import NestStarter.Storage.Streaming
import NestStarter.Storage.Supabase
import NestStarter.Storage.Agreement
import NestStarter.Storage.Validation
import NestStarter.Storage.Upload
import NestStarter.Storage.Compression
import NestStarter.Storage.Pipe
import NestStarter.Storage.Requests
import NestStarter.Storage.FileNames
import NestStarter.Storage.Batches
import NestStarter.Storage.AccessUrls
import NestStarter.Accounts.Photos
import NestStarter.Accounts.Provisioning
import NestStarter.Whatsapp.Pacing
import NestStarter.Whatsapp.Queue
import NestStarter.Whatsapp.Auth
import NestStarter.Whatsapp.Clear
import NestStarter.Whatsapp.Flush
import NestStarter.Whatsapp.Losses
import NestStarter.Whatsapp.Load
import NestStarter.Whatsapp.Service
import NestStarter.Whatsapp.Sockets
import NestStarter.Whatsapp.Unpairing
import NestStarter.Whatsapp.Waiters
import NestStarter.Shared.Pagination
import NestStarter.Shared.Values
import NestStarter.Shared.CaseConverter
import NestStarter.Accounts.Phone
import NestStarter.Areas.Entities
import NestStarter.Core.Like
import NestStarter.Accounts.UserSearch
import NestStarter.Core.Calendar
import NestStarter.Core.Offsets
import NestStarter.Shared.Timezone
import NestStarter.Accounts.Bodies
import NestStarter.Sessions.UpdateMe
import NestStarter.Notifications.Firebase
import NestStarter.Core.Glob
import NestStarter.Accounts.CacheIsolation
import NestStarter.Core.OrderedMap
import NestStarter.I18n.Entries
import NestStarter.I18n.Validator
import NestStarter.Core.Crowd
import NestStarter.Otps.Crowds
import NestStarter.Accounts.Staleness
import NestStarter.RefreshTokens.Contract
import NestStarter.Shared.LocalDays
import NestStarter.Core.Script
import NestStarter.Core.Keyed
import NestStarter.Filters.Handlers
import NestStarter.Filters.GlobalException
import NestStarter.Catalog.Tables
import NestStarter.Catalog.Calls
import NestStarter.Catalog.Consistent
import NestStarter.Catalog.AreaUpdate
import NestStarter.Catalog.Answers
import NestStarter.Shared.Walk
import NestStarter.Catalog.Listing
import NestStarter.Shared.Responses
import NestStarter.Catalog.Alone
import NestStarter.Seeds.Rows
import NestStarter.Seeds.Pipeline
import NestStarter.Seeds.Reseed
import NestStarter.Core.Ddl
import NestStarter.Migrations.Files
import NestStarter.Migrations.Runner
import NestStarter.Migrations.Stages
import NestStarter.Migrations.Races
