import Mesty.Calls.Availability
import Mesty.Calls.Control
import Mesty.Calls.Outcome
import Mesty.Calls.Peers
import Mesty.Calls.Timing
import Mesty.Calls.Verdicts
import Mesty.Keys.Coherence
import Mesty.Keys.FailedRequests
import Mesty.Keys.Fingerprint
import Mesty.Keys.Prekeys
import Mesty.Keys.Validity
import Mesty.Groups.Creation
import Mesty.Groups.Entitlement
import Mesty.Groups.Guards
import Mesty.Groups.InviteLinks
import Mesty.Groups.KeyRotation
import Mesty.Groups.Reentry
import Mesty.Groups.SingleOwner
import Mesty.Chats.ChatUpdates
import Mesty.Chats.Erasure
import Mesty.Chats.Fanout
import Mesty.Chats.History
import Mesty.Chats.Listing
import Mesty.Chats.Members
import Mesty.Chats.Pairs
import Mesty.Chats.PrivateChats
import Mesty.Chats.Reactions
import Mesty.Chats.Receipts
import Mesty.Chats.ResumePoint
import Mesty.Chats.Retry
import Mesty.Chats.Scope
import Mesty.Chats.Sending
import Mesty.Chats.Confidentiality
import Mesty.Chats.Settings
import Mesty.Chats.Sync
import Mesty.Chats.Walks
import Mesty.Attachments.Binding
import Mesty.Attachments.ObjectKeys
import Mesty.Auth.CodeMatched
import Mesty.Auth.Enumeration
import Mesty.Auth.LastSeen
import Mesty.Auth.OtpGuesses
import Mesty.Auth.OtpIsolation
import Mesty.Auth.PartialRegistration
import Mesty.Auth.RateLimit
import Mesty.Auth.RefreshOnce
import Mesty.Auth.Revocation
import Mesty.Auth.SessionCache
import Mesty.Auth.SlidingWindow
import Mesty.Contacts.Identifiers
import Mesty.Contacts.Links
import Mesty.Contacts.PhoneNumbers
import Mesty.Discovery.Completeness
import Mesty.Discovery.ContactSync
import Mesty.Push.Delivery
import Mesty.Stories.Exposure
import Mesty.Stories.Grouping
import Mesty.Stories.Inbox
import Mesty.Users.Blocks
import Mesty.Ws.Delivery
import Mesty.Ws.Limit
import Mesty.Ws.Presence
import Mesty.Ws.Signals
import Mesty.Ws.Tickets
