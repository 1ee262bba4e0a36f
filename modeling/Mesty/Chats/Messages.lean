import Mathlib.Data.Prod.Lex
import Mesty.Chats.Repository
import Mesty.Paging.Keyset

namespace Mesty.Chats.Messages

open Mesty.Base.Ids Mesty.Base.Error Mesty.Chats.Entities Mesty.Chats.Repository
open Mesty.Paging.Keyset

structure ChatMessage where
  id : Uuid
  chatId : Uuid
  senderId : Option Uuid
  replyToId : Option Uuid
  contentEncrypted : Option String
  contentIv : Option String
  messageType : String
  metadata : Option String
  isForwarded : Bool
  createdAt : Timestamp
  editedAt : Option Timestamp
  deletedAt : Option Timestamp
  deriving DecidableEq

/-- `MessageResponse` copies the message field by field. -/
abbrev MessageResponse := ChatMessage

/-- The row `(created_at, id)` that the query compares and orders by. -/
def ChatMessage.key (m : ChatMessage) : Int ×ₗ Uuid := toLex (m.createdAt, m.id)

/-- The database with its table of messages. -/
structure MessagesDb extends ChatsDb where
  messages : List ChatMessage
  uniqueIds : (messages.map ChatMessage.id).Nodup

structure MessageCursor where
  createdAt : Timestamp
  messageId : Uuid
  deriving DecidableEq

def MessageCursor.key (c : MessageCursor) : Int ×ₗ Uuid := toLex (c.createdAt, c.messageId)

inductive MessageDirection where
  | before
  | after
  deriving DecidableEq

/-- The JSON serialiser and the URL-safe base64 encoder of cursors. -/
structure CursorCodec where
  Bytes : Type
  toVec : MessageCursor → Except String Bytes
  fromSlice : Bytes → Option MessageCursor
  encode : Bytes → String
  decode : String → Option Bytes

/-- Decoders undo the encoders, which always succeed on a cursor. -/
structure CursorCodec.RoundTrips (codec : CursorCodec) : Prop where
  fromSlice_toVec : ∀ c, ∃ bytes, codec.toVec c = .ok bytes ∧ codec.fromSlice bytes = some c
  decode_encode : ∀ bytes, codec.decode (codec.encode bytes) = some bytes

structure ListMessagesQuery where
  cursor : Option String
  limit : Option Int
  direction : Option String

def clampLimit (limit : Int) : Int := max 1 (min limit 50)

def MessageDirection.parse (s : Option String) : Except ApiError MessageDirection :=
  match s.getD "before" with
  | "before" => .ok .before
  | "after" => .ok .after
  | _ => .error (.validation "direction must be before or after")

def decodeMessageCursor (codec : CursorCodec) : Option String → Except ApiError (Option MessageCursor)
  | none => .ok none
  | some raw =>
    match codec.decode raw with
    | none => .error (.validation "invalid message cursor encoding")
    | some decoded =>
      match codec.fromSlice decoded with
      | none => .error (.validation "invalid message cursor payload")
      | some cursor => .ok (some cursor)

def buildMessageCursor (codec : CursorCodec) (item : ChatMessage) : Except ApiError String :=
  match codec.toVec ⟨item.createdAt, item.id⟩ with
  | .error e => .error (.internal ("failed to serialize message cursor: " ++ e))
  | .ok encoded => .ok (codec.encode encoded)

namespace MessagesDb

def ensureActiveMembership (db : MessagesDb) (userId chatId : Uuid) : Except DomainError Unit :=
  if (db.activeRow chatId userId).isSome ∧ (db.liveChat chatId).isSome then .ok ()
  else .error (.notFound "chat not found or not a participant")

/-- The messages of a chat that are not deleted. -/
def live (db : MessagesDb) (chatId : Uuid) : List ChatMessage :=
  db.messages.filter (fun m => m.chatId = chatId ∧ m.deletedAt = none)

/-- The repository method. The direction `before` reads downwards and reverses the rows. -/
def listMessages (db : MessagesDb) (userId chatId : Uuid) (cursor : Option MessageCursor)
    (direction : MessageDirection) (limit : Int) : Except DomainError (List ChatMessage) := do
  db.ensureActiveMembership userId chatId
  let pageSize := (clampLimit limit).toNat
  let bound := cursor.map MessageCursor.key
  match direction with
  | .before => return (select (OrderDual.toDual ∘ ChatMessage.key) (bound.map OrderDual.toDual)
      pageSize (db.live chatId)).reverse
  | .after => return select ChatMessage.key bound pageSize (db.live chatId)

end MessagesDb

/-- The handler `list_messages`. -/
def listMessages (codec : CursorCodec) (db : MessagesDb) (userId chatId : Uuid)
    (query : ListMessagesQuery) : Except ApiError (Page MessageResponse String) := do
  let limit := clampLimit (query.limit.getD 50)
  let direction ← MessageDirection.parse query.direction
  let decodedCursor ← decodeMessageCursor codec query.cursor
  let fetchLimit := limit + 1
  let rows ← db.listMessages userId chatId decodedCursor direction fetchLimit
  let hasMore := decide ((rows.length : Int) > limit)
  let items := if hasMore then rows.take limit.toNat else rows
  let nextCursor ← items.getLast?.mapM (buildMessageCursor codec)
  return ⟨items, nextCursor, hasMore⟩

/-- A client that repeats the request with `next_cursor` while `has_more` is true. -/
def walkHistory (codec : CursorCodec) (db : MessagesDb) (userId chatId : Uuid)
    (limit : Option Int) (direction : Option String) (fuel : Nat) :
    Option (List (List MessageResponse)) :=
  walk (fun cursor => (listMessages codec db userId chatId ⟨cursor, limit, direction⟩).toOption)
    fuel none

end Mesty.Chats.Messages
