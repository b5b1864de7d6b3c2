import Brook.Sync.CaughtUp
import Brook.History.NoHoles
import Brook.Auth.Caught
import Brook.Auth.Severed
import Brook.Seq.CommitOrder
import Brook.Ws.Revocation
import Brook.Ws.Replies
import Brook.Channels.Owners
import Brook.Channels.ReadMarker
import Brook.Files.Kept
import Brook.Files.Quota
import Brook.Auth.Register
import Brook.Auth.CodesOnce
import Brook.Calls.Resume
import Brook.Offline.Isolation
import Brook.Calls.Registry
import Brook.Calls.Grace
import Brook.Calls.Members
import Brook.Outbox.InOrder
import Brook.SignedIn.SignOut
import Brook.SignedIn.Replay
import Brook.SignedIn.Published
import Brook.SignedIn.Superseded
import Brook.SignedIn.NothingLeft
import Brook.Limits.Guesses
import Brook.Names.Safe
import Brook.Aead.Sealed
import Brook.Secrets.Bound
import Brook.Snapshot.Meaning
import Brook.Stores.CrashSafe
import Brook.Stores.Spared
import Brook.Cache.Excerpts
import Brook.Sync.Requests
import Brook.Cache.FileRows
import Brook.Cache.Collapse
import Brook.Cache.Confluence
import Brook.Cache.Fence
import Brook.Cache.Replayed
import Brook.Outbox.Delete
import Brook.Outbox.Truthful
import Brook.Queued.System
import Brook.Queued.Kept
import Brook.Queued.Tidy
import Brook.Streams.System
import Brook.Streams.Awake
import Brook.Streams.Served
import Brook.Streams.Labelled
import Brook.Limits.Refused
import Brook.Transfer.Download
import Brook.Transfer.Ends
import Brook.Snapshot.Completed
import Brook.Transfer.Encrypting
import Brook.Transfer.Nonces
import Brook.CallTask.Task
import Brook.CallTask.Handlers
import Brook.CallTask.Follows
import Brook.CallTask.Renegotiated
import Brook.CallTask.Remote
import Brook.Chat.Arrivals
import Brook.Chat.Chips
import Brook.Preview.Gate
import Brook.Streams.Consistent
import Brook.Unread.Agree
import Brook.Window.Joined
import Brook.Chat.NoHole
import Brook.Transport.Client
import Brook.Transport.Step
import Brook.Transport.Moves
import Brook.Transport.Sound
import Brook.Transition.Log
import Brook.Transport.Traced
import Brook.Transport.Once
import Brook.Transport.Honest
import Brook.Transport.Placed
import Brook.Transport.Outcomes
import Brook.Transport.Current
import Brook.Transport.Joined
import Brook.Transport.Routed
import Brook.Janus.Client
import Brook.Janus.Answered
import Brook.Janus.Listeners
import Brook.Server.Messages
