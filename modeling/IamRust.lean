import IamRust.L0Core.JsonDecode
import IamRust.L0Core.Rooms
import IamRust.L0Core.Simulation
import IamRust.L0Core.Linearizable
import IamRust.L0Core.Chunked
import IamRust.L3Service.QrLogin
import IamRust.L3Service.Reads
import IamRust.L3Service.Client
import IamRust.L4Properties.Log
import IamRust.L4Properties.Timelines
import IamRust.L4Properties.ClientIds
import IamRust.L4Properties.Owners
import IamRust.L4Properties.AccountKeys
import IamRust.L4Properties.AccountSteps
import IamRust.L4Properties.Deletion
import IamRust.L4Properties.Forwarding
import IamRust.L4Properties.Tokens
import IamRust.L4Properties.Families
import IamRust.L4Properties.Friendships
import IamRust.L4Properties.Conversations
import IamRust.L4Properties.Access
import IamRust.L4Properties.Profiles
import IamRust.L4Properties.Directory
import IamRust.L4Properties.SecondFactor
import IamRust.L4Properties.PasswordResets
import IamRust.L4Properties.Authority
import IamRust.L4Properties.GroupSize
import IamRust.L4Properties.Positions
import IamRust.L4Properties.AllRead
import IamRust.L4Properties.Hidden
import IamRust.L4Properties.Peers
import IamRust.L4Properties.Created
import IamRust.L4Properties.Polls
import IamRust.L4Properties.Announcements
import IamRust.L4Properties.Seats
import IamRust.L4Properties.Chat
import IamRust.L4Properties.Recipients
import IamRust.L4Properties.Blocking
import IamRust.L4Properties.Receipts
import IamRust.L4Properties.Contents
import IamRust.L4Properties.Readers
import IamRust.L4Properties.History
import IamRust.L4Properties.Downloads
import IamRust.L4Properties.Expiry
import IamRust.L4Properties.Replay
import IamRust.L4Properties.Provenance
import IamRust.L4Properties.Authorship
import IamRust.L4Properties.References
import IamRust.L4Properties.Links
import IamRust.L4Properties.Recalled
import IamRust.L4Properties.Masking
import IamRust.L4Properties.Invisible
import IamRust.L5Concurrency.Mutate
import IamRust.L5Concurrency.Linearized
import IamRust.L5Concurrency.Realtime
import IamRust.L5Concurrency.QrGrants
import IamRust.L5Concurrency.Revocation
import IamRust.L5Concurrency.Gateway
import IamRust.L5Concurrency.Silence
import IamRust.L5Concurrency.Sockets
import IamRust.L5Concurrency.Signalling
import IamRust.L5Concurrency.Calls
import IamRust.L5Concurrency.Isolation
import IamRust.L5Concurrency.Delivery
import IamRust.L5Concurrency.Schedules
import IamRust.L5Concurrency.Uploads
import IamRust.L5Concurrency.Scans
import IamRust.L5Concurrency.Presence
import IamRust.L5Concurrency.Bootstraps
import IamRust.L6Client.Wire
import IamRust.L6Client.LocalStore
import IamRust.L6Client.Cursors
import IamRust.L6Client.Presigned
import IamRust.L6Client.Protection
import IamRust.L6Client.Cells
import IamRust.L6Client.Versions
import IamRust.L6Client.Rendered
import IamRust.L6Client.KeySwitch
import IamRust.L6Client.Outbox
import IamRust.L6Client.Delivered
import IamRust.L6Client.Copies
import IamRust.L6Client.Resent
import IamRust.L6Client.ApiClient
import IamRust.L6Client.HeldTokens
import IamRust.L6Client.SignOut
import IamRust.L6Client.Rotation
import IamRust.L6Client.StoredCursor
import IamRust.L6Client.Restored
import IamRust.L6Client.Transfers
import IamRust.L6Client.Transparent
import IamRust.L6Client.Unread
import IamRust.L6Client.Schedule
import IamRust.L6Client.Searching
import IamRust.L6Client.Discarded
import IamRust.L6Client.FrameLimit
import IamRust.L6Client.FrameText
import IamRust.L5Concurrency.RateLimits
import IamRust.L1Domain.Counters
import IamRust.L0Core.JsonText
import IamRust.L5Concurrency.FrameJson
