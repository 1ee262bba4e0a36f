import Mesty.Base.Text
import Mesty.Chats.Messages

namespace Mesty.Chats.Store

open Mesty.Base.Ids Mesty.Base.Error Mesty.Base.Text Mesty.Chats.Entities Mesty.Chats.Repository
open Mesty.Chats.Messages

structure ChatSettings where
  isMuted : Bool
  mutedUntil : Option Timestamp
  isPinned : Bool
  pinOrder : Int32
  isArchived : Bool
  deriving DecidableEq

inductive MessageStatus where
  | sending
  | sent
  | delivered
  | read
  | failed
  deriving DecidableEq

/-- A row of `message_status`. -/
structure StatusRow where
  status : MessageStatus
  updatedAt : Timestamp
  deriving DecidableEq

/-- A row of `message_reactions`. -/
structure ReactionRow where
  id : Uuid
  createdAt : Timestamp
  deriving DecidableEq

/-- A row of `notifications`. The column `type` is one of the database's own names. -/
structure NotificationRow where
  id : Uuid
  userId : Uuid
  type : String
  data : String
  isRead : Bool
  readAt : Option Timestamp
  createdAt : Timestamp
  deriving DecidableEq

/-- All tables of the chat repository. -/
structure ChatStore extends MessagesDb where
  /-- Keyed by message and user. -/
  statuses : AList (fun _ : Uuid × Uuid => StatusRow)
  /-- Keyed by message, user and reaction. -/
  reactions : AList (fun _ : Uuid × Uuid × String => ReactionRow)
  /-- Keyed by user and chat. -/
  settings : AList (fun _ : Uuid × Uuid => ChatSettings)
  /-- The pairs of `user_blocks`, blocker first. -/
  blocks : List (Uuid × Uuid)
  notifications : List NotificationRow
  uniqueNotifications : (notifications.map NotificationRow.id).Nodup

structure NewMessage where
  contentEncrypted : Option String
  contentIv : Option String
  messageType : String
  replyToId : Option Uuid
  isForwarded : Bool
  metadata : Option String

structure MessageReaction where
  id : Uuid
  messageId : Uuid
  userId : Uuid
  reaction : String
  createdAt : Timestamp
  deriving DecidableEq

structure UpdateChatSettings where
  isMuted : Option Bool
  mutedUntil : Option Instant
  isPinned : Option Bool
  pinOrder : Option Int32
  isArchived : Option Bool

/-- An event of the chat handlers, with the fields of its JSON. -/
inductive ChatEvent where
  | newMessage (chatId messageId : Uuid) (senderId : Option Uuid) (createdAt : Timestamp)
  | messageContent (chatId messageId : Uuid) (senderId : Option Uuid)
      (contentEncrypted contentIv : Option String) (messageType : String) (timestamp : Timestamp)
  | messagesRead (chatId userId : Uuid) (upTo : Timestamp)
  | reaction (chatId messageId userId : Uuid) (reaction action : String)
  deriving DecidableEq

structure PushNotificationJob where
  userId : Uuid
  notificationType : String
  chatId : Uuid
  messageId : Uuid
  senderId : Option Uuid
  deriving DecidableEq

/-- The statements and committed transactions of the chat repository, each atomic, and what
the chat handlers ask of Redis. -/
inductive StoreCmd where
  | chat (c : ChatCmd)
  | findPrivateChat (creatorId participantId : Uuid)
  | createPrivateChat (creatorId participantId : Uuid)
  | sendMessage (senderId chatId : Uuid) (message : NewMessage)
  | verifyParticipant (userId chatId : Uuid)
  | verifyMessageInChat (messageId chatId : Uuid)
  | markMessagesRead (userId chatId : Uuid) (upTo : Timestamp)
  | addReaction (messageId userId : Uuid) (reaction : String)
  | removeReaction (messageId userId : Uuid) (reaction : String)
  | selectChat (userId chatId : Uuid)
  | updateChat (chatId : Uuid) (name description avatarUrl : Option String)
  | selectOwnMessage (messageId userId : Uuid)
  | editMessage (messageId : Uuid) (contentEncrypted contentIv : Option String)
  | deleteMessage (messageId userId : Uuid)
  | rotateKeys (chatId : Uuid) (keys : List (Uuid × String))
  | getChatParticipants (chatId : Uuid)
  | getChatSettings (userId chatId : Uuid)
  | upsertChatSettings (userId chatId : Uuid) (settings : UpdateChatSettings)
  | checkRateLimit (key : String)
  | isOnline (userId : Uuid)
  | utcNow
  | publish (channel : String) (event : ChatEvent)
  | enqueuePush (job : PushNotificationJob)

abbrev StoreCmd.Ans : StoreCmd → Type
  | chat c => c.Ans
  | findPrivateChat .. | selectOwnMessage .. => Option Uuid
  | createPrivateChat .. => Except DomainError Uuid
  | sendMessage .. | editMessage .. => Except DomainError ChatMessage
  | verifyParticipant .. | verifyMessageInChat .. | deleteMessage .. => Bool
  | checkRateLimit _ | isOnline _ => Bool
  | markMessagesRead .. | rotateKeys .. => Nat
  | addReaction .. => Except DomainError MessageReaction
  | removeReaction .. => Except DomainError Bool
  | selectChat .. => Option ChatRow
  | updateChat .. => Except DomainError Timestamp
  | getChatParticipants _ => List Uuid
  | getChatSettings .. => Option ChatSettings
  | upsertChatSettings .. => Except DomainError Unit
  | utcNow => Timestamp
  | publish .. | enqueuePush _ => Unit

/-- `flag` is what Redis answers about rates and presence, `blocks` what the requests that
are not about chats have made of the table. `fits` says whether an index can hold a new reaction:
PostgreSQL refuses an entry that is too long once it is compressed. -/
structure StoreChoice extends Choice where
  flag : Bool
  blocks : List (Uuid × Uuid)
  fits : Bool

def messageTypes : List String :=
  ["text", "image", "video", "audio", "file", "location", "contact", "sticker", "deleted", "system"]

/-- The constraints of the table. -/
def checkMessage (m : ChatMessage) : Bool :=
  (m.messageType ≠ "text" ∨ m.deletedAt.isSome ∨
    (m.contentEncrypted.isSome ∧ m.contentIv.isSome)) ∧
  (m.contentEncrypted.isNone ↔ m.contentIv.isNone)

/-- `chk_group_has_name`. -/
def checkChat (row : ChatRow) : Bool :=
  (row.chatType = .group ∨ row.chatType = .channel) → row.name.isSome ∧ row.name ≠ some ""

def rotateKey (chatId : Uuid) (acc : Nat × ChatsDb) (entry : Uuid × String) : Nat × ChatsDb :=
  match acc.2.activeRow chatId entry.1 with
  | none => acc
  | some row => (acc.1 + 1,
      acc.2.setParticipant chatId entry.1 { row with encryptionKeyEnc := some entry.2 })

/-- The loop writes to the participants only. -/
theorem foldl_rotateKey_eq (chatId : Uuid) (keys : List (Uuid × String)) (acc : Nat × ChatsDb) :
    (keys.foldl (rotateKey chatId) acc).2 =
      { acc.2 with participants := (keys.foldl (rotateKey chatId) acc).2.participants } := by
  induction keys generalizing acc with
  | nil => rfl
  | cons entry keys ih =>
    rw [List.foldl_cons, ih, rotateKey]
    cases acc.2.activeRow chatId entry.1 <;> rfl

namespace ChatStore

def empty (users : List Uuid) : ChatStore where
  toChatsDb := .empty users
  messages := []
  uniqueIds := .nil
  statuses := ∅
  reactions := ∅
  settings := ∅
  blocks := []
  notifications := []
  uniqueNotifications := .nil

variable (db : ChatStore)

def withChats (chats : ChatsDb) : ChatStore := { db with toChatsDb := chats }

def isPrivateChatOf (userId userId' chatId : Uuid) : Bool :=
  (db.liveChat chatId).any (fun row => row.chatType = .private) &&
    (db.activeRow chatId userId).isSome && (db.activeRow chatId userId').isSome

/-- LIMIT 1 without an order may take any row. -/
def findPrivateChat (ω : StoreChoice) (creatorId participantId : Uuid) :
    Option (Option Uuid × ChatStore) :=
  if db.isPrivateChatOf creatorId participantId ω.uuid then some (some ω.uuid, db)
  else if db.chats.keys.any (db.isPrivateChatOf creatorId participantId) then none
  else some (none, db)

/-- The transaction of `create_private_chat`. -/
def createPrivateChat (ω : StoreChoice) (creatorId participantId : Uuid) :
    Option (Except DomainError Uuid × ChatStore) :=
  if ω.uuid ∈ db.chats then none
  else if creatorId ∉ db.users then some (.error (.fromSqlx .foreignKeyViolation), db)
  else if creatorId = participantId then some (.error (.fromSqlx .uniqueViolation), db)
  else if participantId ∉ db.users then some (.error (.fromSqlx .foreignKeyViolation), db)
  else
    let chat : ChatRow := ⟨.private, none, none, none, some creatorId, none, ω.now, none⟩
    let row : ParticipantRow := ⟨.member, none, some creatorId, ω.now, none⟩
    some (.ok ω.uuid, db.withChats
      (({ db.toChatsDb with chats := db.chats.insert ω.uuid chat }.setParticipant ω.uuid creatorId
        row).setParticipant ω.uuid participantId row))

def insertMessage (m : ChatMessage) (h : m.id ∉ db.messages.map ChatMessage.id) : ChatStore :=
  { db with
    messages := db.messages ++ [m]
    uniqueIds := by
      rw [List.map_append, List.map_singleton, List.nodup_append]
      exact ⟨db.uniqueIds, List.nodup_singleton _, fun a ha b hb heq =>
        h (List.mem_singleton.mp hb ▸ heq ▸ ha)⟩ }

/-- An UPDATE of one message, if it is there. -/
def updateMessage (messageId : Uuid) (f : ChatMessage → ChatMessage) (hf : ∀ m, (f m).id = m.id) :
    ChatStore :=
  { db with
    messages := db.messages.map (fun m => if m.id = messageId then f m else m)
    uniqueIds := by
      have hids : ∀ m : ChatMessage, (if m.id = messageId then f m else m).id = m.id := by
        intro m
        split_ifs
        · exact hf m
        · rfl
      rw [List.map_map, Function.comp_def]
      simpa only [hids] using db.uniqueIds }

def findMessage (messageId : Uuid) : Option ChatMessage :=
  db.messages.find? (fun m => m.id = messageId)

def activeMembers (chatId : Uuid) : List Uuid :=
  db.participants.entries.filterMap (fun e =>
    if e.1.1 = chatId ∧ e.2.leftAt = none then some e.1.2 else none)

def blockedInPrivateChat (senderId chatId : Uuid) : Bool :=
  (db.activeMembers chatId).any (fun userId => userId ≠ senderId ∧
    ((senderId, userId) ∈ db.blocks ∨ (userId, senderId) ∈ db.blocks))

def insertStatuses (now : Timestamp) (messageId chatId : Uuid) : ChatStore :=
  { db with statuses := (db.activeMembers chatId).foldl (fun statuses userId =>
      if (messageId, userId) ∈ statuses then statuses
      else statuses.insert (messageId, userId) ⟨.sent, now⟩) db.statuses }

def memberOfLiveChat (userId chatId : Uuid) : Option ChatRow :=
  (db.liveChat chatId).filter (fun _ => (db.activeRow chatId userId).isSome)

def notAParticipant : DomainError := .notFound "chat not found or not a participant"

/-- The transaction of `send_message`. -/
def sendMessage (ω : StoreChoice) (senderId chatId : Uuid) (message : NewMessage) :
    Option (Except DomainError ChatMessage × ChatStore) :=
  match db.memberOfLiveChat senderId chatId with
  | none => some (.error notAParticipant, db)
  | some chat =>
    if chat.chatType = .private ∧ db.blockedInPrivateChat senderId chatId then
      some (.error (.unauthorized "cannot send messages in blocked private chat"), db)
    else if message.messageType = "text" ∧
        (message.contentEncrypted.isNone ∨ message.contentIv.isNone) then
      some (.error (.validation "text messages require content_encrypted and content_iv"), db)
    else if message.messageType ∉ messageTypes then some (.error (.fromSqlx .other), db)
    else
      let m : ChatMessage := ⟨ω.uuid, chatId, some senderId, message.replyToId,
        message.contentEncrypted, message.contentIv, message.messageType, message.metadata,
        message.isForwarded, ω.now, none, none⟩
      if checkMessage m = false then some (.error (.fromSqlx .checkViolation), db)
      else if ∃ replyToId ∈ message.replyToId, replyToId ∉ db.messages.map ChatMessage.id then
        some (.error (.fromSqlx .foreignKeyViolation), db)
      else if h : m.id ∉ db.messages.map ChatMessage.id then
        some (.ok m, (db.insertMessage m h).insertStatuses ω.now m.id chatId)
      else none

/-- The messages that the function `mark_messages_read` is about. -/
def unreadUpTo (userId chatId : Uuid) (upTo : Timestamp) : List Uuid :=
  if (db.activeRow chatId userId).isSome then
    (db.messages.filter (fun m => m.chatId = chatId ∧ (∃ s ∈ m.senderId, s ≠ userId) ∧
      m.createdAt ≤ upTo ∧ m.deletedAt = none)).map ChatMessage.id
  else []

def markMessagesRead (now : Timestamp) (userId chatId : Uuid) (upTo : Timestamp) :
    Nat × ChatStore :=
  let marked := (db.statuses.entries.filter (fun e => e.1.2 = userId ∧
    e.1.1 ∈ db.unreadUpTo userId chatId upTo ∧ (e.2.status ≠ .read ∨ upTo < e.2.updatedAt))).map
      Sigma.fst
  (marked.length, { db with
    statuses := marked.foldl (fun statuses k => statuses.insert k ⟨.read, now⟩) db.statuses })

def addReaction (ω : StoreChoice) (messageId userId : Uuid) (reaction : String) :
    Except DomainError MessageReaction × ChatStore :=
  if ¬ Storable reaction then (.error (.fromSqlx .other), db)
  else if (messageId, userId, reaction) ∈ db.reactions then (.error (.fromSqlx .rowNotFound), db)
  else if ω.fits = false then (.error (.fromSqlx .other), db)
  else if messageId ∉ db.messages.map ChatMessage.id ∨ userId ∉ db.users then
    (.error (.fromSqlx .foreignKeyViolation), db)
  else (.ok ⟨ω.uuid, messageId, userId, reaction, ω.now⟩,
    { db with reactions := db.reactions.insert (messageId, userId, reaction) ⟨ω.uuid, ω.now⟩ })

def removeReaction (messageId userId : Uuid) (reaction : String) :
    Except DomainError Bool × ChatStore :=
  if ¬ Storable reaction then (.error (.fromSqlx .other), db)
  else (.ok (decide ((messageId, userId, reaction) ∈ db.reactions)),
    { db with reactions := db.reactions.erase (messageId, userId, reaction) })

def updateChatRow (now : Timestamp) (chatId : Uuid) (name description avatarUrl : Option String) :
    Except DomainError Timestamp × ChatStore :=
  match db.chats.lookup chatId with
  | none => (.error (.fromSqlx .rowNotFound), db)
  | some row =>
    if checkChat { row with name := name } then
      (.ok now, db.withChats (db.toChatsDb.updateChat chatId (fun row =>
        { row with name := name, description := description, avatarUrl := avatarUrl })))
    else (.error (.fromSqlx .checkViolation), db)

/-- COALESCE keeps what the request leaves out. -/
def editedMessage (now : Timestamp) (contentEncrypted contentIv : Option String)
    (m : ChatMessage) : ChatMessage :=
  { m with
    contentEncrypted := contentEncrypted.or m.contentEncrypted
    contentIv := contentIv.or m.contentIv
    editedAt := some now }

def editMessage (now : Timestamp) (messageId : Uuid) (contentEncrypted contentIv : Option String) :
    Except DomainError ChatMessage × ChatStore :=
  match db.findMessage messageId with
  | none => (.error (.fromSqlx .rowNotFound), db)
  | some m =>
    if checkMessage (editedMessage now contentEncrypted contentIv m) then
      (.ok (editedMessage now contentEncrypted contentIv m),
        db.updateMessage messageId (editedMessage now contentEncrypted contentIv) (fun _ => rfl))
    else (.error (.fromSqlx .checkViolation), db)

def deletedMessage (now : Timestamp) (m : ChatMessage) : ChatMessage :=
  { m with
    contentEncrypted := none
    contentIv := none
    messageType := "deleted"
    deletedAt := some now }

/-- The message if the user sent it and it is not deleted. -/
def ownMessage (messageId userId : Uuid) : Option ChatMessage :=
  (db.findMessage messageId).filter (fun m => m.senderId = some userId ∧ m.deletedAt = none)

def deleteMessage (now : Timestamp) (messageId userId : Uuid) : Bool × ChatStore :=
  match db.ownMessage messageId userId with
  | none => (false, db)
  | some _ => (true, db.updateMessage messageId (deletedMessage now) (fun _ => rfl))

def upsertChatSettings (userId chatId : Uuid) (settings : UpdateChatSettings) :
    Except DomainError Unit × ChatStore :=
  if ∃ t ∈ settings.mutedUntil, ¬ t.InRange then (.error (.fromSqlx .other), db)
  else if chatId ∉ db.chats ∨ userId ∉ db.users then (.error (.fromSqlx .foreignKeyViolation), db)
  else
    let mutedUntil := settings.mutedUntil.map Instant.bound
    let row : ChatSettings := match db.settings.lookup (userId, chatId) with
      | none => ⟨settings.isMuted.getD false, mutedUntil, settings.isPinned.getD false,
          settings.pinOrder.getD 0, settings.isArchived.getD false⟩
      | some old => ⟨settings.isMuted.getD old.isMuted, mutedUntil.or old.mutedUntil,
          settings.isPinned.getD old.isPinned, settings.pinOrder.getD old.pinOrder,
          settings.isArchived.getD old.isArchived⟩
    (.ok (), { db with settings := db.settings.insert (userId, chatId) row })

def exec (ω : StoreChoice) : (c : StoreCmd) → ChatStore → Option (c.Ans × ChatStore)
  | .chat c, db => (db.toChatsDb.exec ω.toChoice c).map (fun out => (out.1, db.withChats out.2))
  | .findPrivateChat creatorId participantId, db => db.findPrivateChat ω creatorId participantId
  | .createPrivateChat creatorId participantId, db =>
    db.createPrivateChat ω creatorId participantId
  | .sendMessage senderId chatId message, db => db.sendMessage ω senderId chatId message
  | .verifyParticipant userId chatId, db => some ((db.memberOfLiveChat userId chatId).isSome, db)
  | .verifyMessageInChat messageId chatId, db =>
    some ((db.findMessage messageId).any (fun m => m.chatId = chatId ∧ m.deletedAt = none), db)
  | .markMessagesRead userId chatId upTo, db => some (db.markMessagesRead ω.now userId chatId upTo)
  | .addReaction messageId userId reaction, db => some (db.addReaction ω messageId userId reaction)
  | .removeReaction messageId userId reaction, db =>
    some (db.removeReaction messageId userId reaction)
  | .selectChat userId chatId, db => some (db.memberOfLiveChat userId chatId, db)
  | .updateChat chatId name description avatarUrl, db =>
    some (db.updateChatRow ω.now chatId name description avatarUrl)
  | .selectOwnMessage messageId userId, db =>
    some ((db.ownMessage messageId userId).map ChatMessage.chatId, db)
  | .editMessage messageId contentEncrypted contentIv, db =>
    some (db.editMessage ω.now messageId contentEncrypted contentIv)
  | .deleteMessage messageId userId, db => some (db.deleteMessage ω.now messageId userId)
  | .rotateKeys chatId keys, db =>
    let out := keys.foldl (rotateKey chatId) (0, db.toChatsDb)
    some (out.1, db.withChats out.2)
  | .getChatParticipants chatId, db => some (db.activeMembers chatId, db)
  | .getChatSettings userId chatId, db => some (db.settings.lookup (userId, chatId), db)
  | .upsertChatSettings userId chatId settings, db =>
    some (db.upsertChatSettings userId chatId settings)
  | .checkRateLimit _, db | .isOnline _, db => some (ω.flag, db)
  | .utcNow, db => some (ω.now, db)
  | .publish .., db | .enqueuePush _, db => some ((), db)

/-- The statement fails, or stores the reaction. -/
theorem addReaction_cases (ω : StoreChoice) (messageId userId : Uuid) (reaction : String) :
    (∃ e, db.addReaction ω messageId userId reaction = (.error e, db)) ∨
    Storable reaction ∧
      db.addReaction ω messageId userId reaction = (.ok ⟨ω.uuid, messageId, userId, reaction, ω.now⟩,
        { db with reactions := db.reactions.insert (messageId, userId, reaction) ⟨ω.uuid, ω.now⟩ }) := by
  rw [addReaction]
  split_ifs with hstorable hstored hfits hrefers
  · exact .inl ⟨_, rfl⟩
  · exact .inl ⟨_, rfl⟩
  · exact .inl ⟨_, rfl⟩
  · exact .inr ⟨hstorable, rfl⟩
  · exact .inl ⟨_, rfl⟩

theorem removeReaction_cases (messageId userId : Uuid) (reaction : String) :
    (∃ e, db.removeReaction messageId userId reaction = (.error e, db)) ∨
    db.removeReaction messageId userId reaction =
      (.ok (decide ((messageId, userId, reaction) ∈ db.reactions)),
        { db with reactions := db.reactions.erase (messageId, userId, reaction) }) := by
  rw [removeReaction]
  split_ifs
  · exact .inr rfl
  · exact .inl ⟨_, rfl⟩

/-- Requests that are not about chats: users register and block each other. -/
def tick (ω : StoreChoice) (db : ChatStore) : Option ChatStore :=
  some { db with users := ω.uuid :: db.users, blocks := ω.blocks }

end ChatStore

end Mesty.Chats.Store
