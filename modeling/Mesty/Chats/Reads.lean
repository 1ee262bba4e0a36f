import Mesty.Chats.Handlers
import Mesty.Chats.Listing
import Mesty.Chats.Sync

namespace Mesty.Chats.Reads

open Mesty.Base.Ids Mesty.Base.Error Mesty.Concurrency.Program Mesty.Concurrency.Pool
open Mesty.Chats.Entities Mesty.Chats.Repository Mesty.Chats.Messages Mesty.Chats.Store
open Mesty.Chats.Handlers (ChatReq)
open Mesty.Chats.Listing (ListQuery ChatCursor ChatPreview ChatPreviewResponse chatCursorErrors
  chatPreviews previewToResponse)
open Mesty.Chats.Sync (SyncMessage toSync listMessagesSince)
open Mesty.Groups.Handlers (ChatResponse ParticipantDetailResponse chatToResponse participantToResponse)
open Mesty.Paging.Keyset Mesty.Paging.LookAhead

/-- The statements of the requests that only read, beside those of the other chat requests. -/
inductive ReadCmd where
  | store (c : StoreCmd)
  | selectMessages (chatId : Uuid) (cursor : Option MessageCursor) (direction : MessageDirection)
      (pageSize : Nat)
  | selectMessagesSince (userId : Uuid) (since : Timestamp) (limit : Nat)
  | selectChats (userId : Uuid) (cursor : Option ChatCursor) (pageSize : Nat)
  | selectParticipants (chatId : Uuid)

abbrev ReadCmd.Ans : ReadCmd → Type
  | store c => c.Ans
  | selectMessages .. | selectMessagesSince .. => Except DomainError (List ChatMessage)
  | selectChats .. => Except DomainError (List ChatPreview)
  | selectParticipants _ => Except DomainError (List ParticipantDetail)

abbrev MemberEntry := (_ : Uuid × Uuid) × ParticipantRow

/-- `fault` makes a statement fail. `messages` and `members` are the order in which it meets rows
that its ORDER BY leaves open. -/
structure ReadChoice extends StoreChoice where
  fault : Option SqlError
  messages : List ChatMessage
  members : List MemberEntry

section Statements

variable (db : ChatStore)

/-- The page that lies next to the cursor, read away from it. -/
def selectMessages (chatId : Uuid) (cursor : Option MessageCursor) (direction : MessageDirection)
    (pageSize : Nat) : List ChatMessage :=
  let bound := cursor.map MessageCursor.key
  match direction with
  | .before => select (OrderDual.toDual ∘ ChatMessage.key) (bound.map OrderDual.toDual) pageSize
      (db.live chatId)
  | .after => select ChatMessage.key bound pageSize (db.live chatId)

def activeEntries (chatId : Uuid) : List MemberEntry :=
  db.participants.entries.filter (fun e => e.1.1 = chatId ∧ e.2.leftAt = none)

/-- ORDER BY `joined_at`. -/
def selectParticipants (members : List MemberEntry) (chatId : Uuid) : List ParticipantDetail :=
  let rows := if members.Perm (activeEntries db chatId) then members else activeEntries db chatId
  (rows.mergeSort (fun e e' => decide (e.2.joinedAt ≤ e'.2.joinedAt))).map
    (fun e => e.2.toDetail e.1.1 e.1.2)

def selectChats (userId : Uuid) (cursor : Option ChatCursor) (pageSize : Nat) : List ChatPreview :=
  select ChatPreview.rank (cursor.map ChatCursor.rank) pageSize (chatPreviews db userId)

def selectMessagesSince (messages : List ChatMessage) (userId : Uuid) (since : Timestamp)
    (limit : Nat) : List ChatMessage :=
  listMessagesSince db.toMessagesDb (if messages.Perm db.messages then messages else db.messages)
    userId since limit

end Statements

def orFault {α : Type} (ω : ReadChoice) (out : α) : Except DomainError α :=
  match ω.fault with
  | none => .ok out
  | some e => .error (.fromSqlx e)

def exec (ω : ReadChoice) : (c : ReadCmd) → ChatStore → Option (c.Ans × ChatStore)
  | .store c, db => ChatStore.exec ω.toStoreChoice c db
  | .selectMessages chatId cursor direction pageSize, db =>
    some (orFault ω (selectMessages db chatId cursor direction pageSize), db)
  | .selectMessagesSince userId since limit, db =>
    some (orFault ω (selectMessagesSince db ω.messages userId since limit), db)
  | .selectChats userId cursor pageSize, db => some (orFault ω (selectChats db userId cursor pageSize), db)
  | .selectParticipants chatId, db => some (orFault ω (selectParticipants db ω.members chatId), db)

/-- The task of a request: it may end with an error at each `?`. -/
abbrev ReadTask := ExceptT DomainError (Prog ReadCmd ReadCmd.Ans)

namespace ReadTask

variable {α : Type}

def ask (c : ReadCmd) : ReadTask c.Ans := ExceptT.lift (Prog.cmd c)

def attempt (p : Prog ReadCmd ReadCmd.Ans (Except DomainError α)) : ReadTask α := ExceptT.mk p

def ofResult (e : Except DomainError α) : ReadTask α := ExceptT.mk (pure e)

def okOr (o : Option α) (e : DomainError) : ReadTask α :=
  match o with
  | none => throw e
  | some a => pure a

end ReadTask

open ReadTask

/-- The bodies of the responses. -/
inductive ReadResponse where
  | store (response : Handlers.Response)
  | messages (page : Page MessageResponse String)
  | sync (messages : List SyncMessage)
  | chat (chat : ChatResponse)
  | chats (page : Page ChatPreviewResponse String)
  | participants (participants : List ParticipantDetailResponse) (count : Nat)

/-- `verify_participant` and `ensure_active_membership_pool` are one query with one error. -/
def ensureActiveMembership (userId chatId : Uuid) : ReadTask Unit := do
  if ← ask (.store (.verifyParticipant userId chatId)) then
    return ()
  else
    throw ChatStore.notAParticipant

/-- Rows that were read backwards are turned around. -/
def inOrder (direction : MessageDirection) (rows : List ChatMessage) : List ChatMessage :=
  match direction with
  | .before => rows.reverse
  | .after => rows

/-- The repository method. -/
def listMessageRows (userId chatId : Uuid) (cursor : Option MessageCursor)
    (direction : MessageDirection) (limit : Int) : ReadTask (List ChatMessage) := do
  ensureActiveMembership userId chatId
  let pageSize := (clampLimit limit).toNat
  let rows ← attempt (Prog.cmd (ReadCmd.selectMessages chatId cursor direction pageSize))
  return inOrder direction rows

def listMessages (codec : CursorCodec) (userId chatId : Uuid) (query : ListMessagesQuery) :
    ReadTask ReadResponse := do
  let limit := clampLimit (query.limit.getD 50)
  let direction ← ofResult (MessageDirection.parse query.direction)
  let decodedCursor ← ofResult (decodeMessageCursor codec query.cursor)
  let fetchLimit := limit + 1
  let rows ← listMessageRows userId chatId decodedCursor direction fetchLimit
  return .messages (← ofResult (cutPage limit (buildMessageCursor codec) rows))

/-- The answer to a `sync_request`. A failure is answered with no messages. -/
def syncRequest (userId : Uuid) (since : Option Timestamp) : ReadTask ReadResponse := do
  match since with
  | none => return .sync []
  | some since =>
    match ← ask (.selectMessagesSince userId since 100) with
    | .ok messages => return .sync (messages.map toSync)
    | .error _ => return .sync []

def getChat (userId chatId : Uuid) : ReadTask ReadResponse := do
  let chat ← okOr (← ask (.store (.chat (.getChatForUser userId chatId)))) (.notFound "chat not found")
  return .chat (chatToResponse chat)

def listChats (codec : Codec ChatCursor) (userId : Uuid) (query : ListQuery) : ReadTask ReadResponse := do
  let limit := clamp (query.limit.getD 20) 50
  let decodedCursor ← ofResult (codec.read chatCursorErrors query.cursor)
  let fetchLimit := limit + 1
  let rows ← attempt (Prog.cmd (ReadCmd.selectChats userId decodedCursor (clamp fetchLimit 50).toNat))
  let page ← ofResult (cutPage limit (fun item => codec.write chatCursorErrors item.cursor) rows)
  return .chats ⟨page.items.map previewToResponse, page.next, page.hasMore⟩

def listParticipants (userId chatId : Uuid) : ReadTask ReadResponse := do
  ensureActiveMembership userId chatId
  let participants ← attempt (Prog.cmd (ReadCmd.selectParticipants chatId))
  return .participants (participants.map participantToResponse) participants.length

/-- The requests that read, and those of the other chat and group handlers. -/
inductive ReadReq where
  | store (req : ChatReq)
  | listMessages (chatId : Uuid) (query : ListMessagesQuery)
  | syncRequest (since : Option Timestamp)
  | getChat (chatId : Uuid)
  | listChats (query : ListQuery)
  | listParticipants (chatId : Uuid)

/-- The serialisers of the two kinds of cursors. -/
structure ReadLib where
  messages : CursorCodec
  chats : Codec ChatCursor

def handle (lib : ReadLib) (userId : Uuid) : ReadReq → ReadTask ReadResponse
  | .store req => do
    return .store (← attempt ((Handlers.handle userId req).run.embed ReadCmd.store (fun _ => id)))
  | .listMessages chatId query => listMessages lib.messages userId chatId query
  | .syncRequest since => syncRequest userId since
  | .getChat chatId => getChat userId chatId
  | .listChats query => listChats lib.chats userId query
  | .listParticipants chatId => listParticipants userId chatId

def readServer (lib : ReadLib) : System ReadCmd ReadCmd.Ans ChatStore ReadChoice (Uuid × ReadReq)
    (Except ApiError ReadResponse) where
  exec := exec
  tick ω := ChatStore.tick ω.toStoreChoice
  handler req := (handle lib req.1 req.2).run

end Mesty.Chats.Reads
