import Mesty.Chats.Store
import Mesty.Groups.Handlers

namespace Mesty.Chats.Handlers

open Mesty.Base.Ids Mesty.Base.Error Mesty.Concurrency.Program Mesty.Concurrency.Pool
open Mesty.Chats.Entities Mesty.Chats.Repository Mesty.Chats.Messages Mesty.Chats.Store
open Mesty.Groups.Handlers (ChatResponse chatToResponse GroupReq)

/-- The task of a request: it may end with an error at each `?`. -/
abbrev StoreTask := ExceptT DomainError (Prog StoreCmd StoreCmd.Ans)

namespace StoreTask

variable {α : Type}

def ask (c : StoreCmd) : StoreTask c.Ans := ExceptT.lift (Prog.cmd c)

/-- A command whose answer is a `Result`. -/
def attempt (p : Prog StoreCmd StoreCmd.Ans (Except DomainError α)) : StoreTask α := ExceptT.mk p

def okOr (o : Option α) (e : DomainError) : StoreTask α :=
  match o with
  | none => throw e
  | some a => pure a

/-- The statements of a group request. -/
def ofChat : Prog ChatCmd ChatCmd.Ans α → Prog StoreCmd StoreCmd.Ans α
  | .ret a => .ret a
  | .call c k => .call (.chat c) (fun r => ofChat (k r))

end StoreTask

open StoreTask

structure UpdateChatResponse where
  id : Uuid
  chatType : String
  name : Option String
  description : Option String
  avatarUrl : Option String
  updatedAt : Timestamp
  deriving DecidableEq

structure EditMessageResponse where
  id : Uuid
  chatId : Uuid
  contentEncrypted : Option String
  contentIv : Option String
  editedAt : Timestamp
  deriving DecidableEq

inductive Body where
  | group (body : Groups.Handlers.Body)
  | chat (chat : ChatResponse)
  | message (message : MessageResponse)
  | error (error : String)
  | messagesRead (updatedCount : Nat)
  | reaction (reaction : MessageReaction)
  | reactionRemoved (removed : Bool)
  | chatUpdated (chat : UpdateChatResponse)
  | messageEdited (message : EditMessageResponse)
  | messageDeleted (deleted : Bool)
  | settings (settings : ChatSettings)
  | keyRotated (updatedCount : Nat)
  deriving DecidableEq

structure Response where
  status : Nat
  body : Body
  deriving DecidableEq

def verifyParticipant (userId chatId : Uuid) : StoreTask Unit := do
  if ← ask (.verifyParticipant userId chatId) then
    return ()
  else
    throw ChatStore.notAParticipant

def verifyMessageInChat (messageId chatId : Uuid) : StoreTask Unit := do
  if ← ask (.verifyMessageInChat messageId chatId) then
    return ()
  else
    throw (.notFound "message not found or not in chat")

/-- The branch of `create_chat` for a private chat. -/
def createPrivateChat (userId participantId : Uuid) : StoreTask Response := do
  if participantId = userId then
    throw (.validation "participant_id cannot be the authenticated user")
  else
    let chatId ← match ← ask (.findPrivateChat userId participantId) with
      | some chatId => pure chatId
      | none => attempt (Prog.cmd (StoreCmd.createPrivateChat userId participantId))
    let chat ← okOr (← ask (.chat (.getChatForUser userId chatId))) (.notFound "chat not found")
    return ⟨201, .chat (chatToResponse chat)⟩

/-- `is_muted || muted_until.is_some_and(|until| until > Utc::now())` -/
def isMuted (settings : Option ChatSettings) : StoreTask Bool := do
  match settings with
  | none => return false
  | some settings =>
    if settings.isMuted then
      return true
    else match settings.mutedUntil with
      | none => return false
      | some until_ => return decide (until_ > (← ask .utcNow))

def notifyParticipant (message : ChatMessage) (senderId participantId : Uuid) :
    StoreTask Unit := do
  if participantId ≠ senderId then
    ask (.publish ("user:" ++ participantId.toString ++ ":events")
      (.messageContent message.chatId message.id message.senderId message.contentEncrypted
        message.contentIv message.messageType message.createdAt))
    if !(← ask (.isOnline participantId)) then
      let muted ← isMuted (← ask (.getChatSettings participantId message.chatId))
      if !muted then
        ask (.enqueuePush ⟨participantId, "new_message", message.chatId, message.id,
          message.senderId⟩)

def publishMessageEvent (message : ChatMessage) (senderId : Uuid) : StoreTask Unit := do
  ask (.publish ("chat:" ++ message.chatId.toString ++ ":events")
    (.newMessage message.chatId message.id message.senderId message.createdAt))
  (← ask (.getChatParticipants message.chatId)).forM (notifyParticipant message senderId)

def sendMessage (userId chatId : Uuid) (message : NewMessage) : StoreTask Response := do
  if ← ask (.checkRateLimit ("msg:" ++ userId.toString)) then
    let message ← attempt (Prog.cmd (StoreCmd.sendMessage userId chatId message))
    publishMessageEvent message userId
    return ⟨201, .message message⟩
  else
    return ⟨429, .error "Too many messages sent. Please slow down."⟩

def markMessagesRead (userId chatId : Uuid) (upTo : Timestamp) : StoreTask Response := do
  verifyParticipant userId chatId
  let updatedCount ← ask (.markMessagesRead userId chatId upTo)
  ask (.publish ("chat:" ++ chatId.toString ++ ":events") (.messagesRead chatId userId upTo))
  return ⟨200, .messagesRead updatedCount⟩

def publishReactionEvent (chatId messageId userId : Uuid) (reaction action : String) :
    StoreTask Unit :=
  ask (.publish ("chat:" ++ chatId.toString ++ ":events")
    (.reaction chatId messageId userId reaction action))

def addReaction (userId chatId messageId : Uuid) (reaction : String) : StoreTask Response := do
  verifyParticipant userId chatId
  verifyMessageInChat messageId chatId
  let reaction ← attempt (Prog.cmd (StoreCmd.addReaction messageId userId reaction))
  publishReactionEvent chatId messageId userId reaction.reaction "add"
  return ⟨201, .reaction reaction⟩

/-- `emoji` is the decoded path segment. -/
def removeReaction (userId chatId messageId : Uuid) (emoji : Option String) :
    StoreTask Response := do
  let reactionEmoji ← okOr emoji (.validation "invalid emoji encoding")
  verifyParticipant userId chatId
  verifyMessageInChat messageId chatId
  let removed ← attempt (Prog.cmd (StoreCmd.removeReaction messageId userId reactionEmoji))
  if removed then
    publishReactionEvent chatId messageId userId reactionEmoji "remove"
  return ⟨200, .reactionRemoved removed⟩

def updateChat (userId chatId : Uuid) (name description avatarUrl : Option String) :
    StoreTask Response := do
  let row ← okOr (← ask (.selectChat userId chatId)) (.fromSqlx .rowNotFound)
  let updatedAt ← attempt (Prog.cmd (StoreCmd.updateChat chatId (name.or row.name)
    (description.or row.description) (avatarUrl.or row.avatarUrl)))
  return ⟨200, .chatUpdated ⟨chatId, row.chatType.asDbStr, name.or row.name,
    description.or row.description, avatarUrl.or row.avatarUrl, updatedAt⟩⟩

/-- The message may be one of another chat than the one in the path, if its sender is an
active member there. -/
def editMessage (userId chatId messageId : Uuid) (contentEncrypted contentIv : Option String) :
    StoreTask Response := do
  verifyParticipant userId chatId
  let messageChat ← okOr (← ask (.selectOwnMessage messageId userId))
    (.notFound "message not found or not authorized")
  verifyParticipant userId messageChat
  if contentEncrypted.isNone ∧ contentIv.isNone then
    throw (.validation "content_encrypted and content_iv are required")
  else
    let m ← attempt (Prog.cmd (StoreCmd.editMessage messageId contentEncrypted contentIv))
    return ⟨200, .messageEdited ⟨m.id, m.chatId, m.contentEncrypted, m.contentIv,
      m.editedAt.getD m.createdAt⟩⟩

/-- Only the chat in the path is looked at, not the chat of the message. -/
def deleteMessage (userId chatId messageId : Uuid) : StoreTask Response := do
  verifyParticipant userId chatId
  if ← ask (.deleteMessage messageId userId) then
    return ⟨200, .messageDeleted true⟩
  else
    throw (.notFound "message not found or not authorized")

def updateChatSettings (userId chatId : Uuid) (settings : UpdateChatSettings) :
    StoreTask Response := do
  verifyParticipant userId chatId
  attempt (Prog.cmd (StoreCmd.upsertChatSettings userId chatId settings))
  let settings ← okOr (← ask (.getChatSettings userId chatId)) (.notFound "chat settings not found")
  return ⟨200, .settings settings⟩

def rotateGroupKey (userId chatId : Uuid) (keys : List (Uuid × String)) : StoreTask Response := do
  if keys = [] then
    throw (.validation "keys list cannot be empty")
  else
    let actorRole ← okOr (← ask (.chat (.getParticipantRole userId chatId)))
      Participants.notAMember
    if actorRole < .admin then
      throw (.unauthorized "only admins and owners can rotate the group key")
    else
      let updatedCount ← ask (.rotateKeys chatId keys)
      ask (.chat (.publish ("chat:" ++ chatId.toString ++ ":events")
        ⟨"key_rotated", some chatId, [("chat_id", chatId.toString)]⟩))
      return ⟨200, .keyRotated updatedCount⟩

/-- The requests that write, `group` those of the group handlers and `delete_chat`. -/
inductive ChatReq where
  | group (req : GroupReq)
  | rotateGroupKey (chatId : Uuid) (keys : List (Uuid × String))
  | createPrivateChat (participantId : Uuid)
  | sendMessage (chatId : Uuid) (message : NewMessage)
  | markMessagesRead (chatId : Uuid) (upTo : Timestamp)
  | addReaction (chatId messageId : Uuid) (reaction : String)
  | removeReaction (chatId messageId : Uuid) (emoji : Option String)
  | updateChat (chatId : Uuid) (name description avatarUrl : Option String)
  | editMessage (chatId messageId : Uuid) (contentEncrypted contentIv : Option String)
  | deleteMessage (chatId messageId : Uuid)
  | updateChatSettings (chatId : Uuid) (settings : UpdateChatSettings)

def handleGroup (userId : Uuid) (req : GroupReq) : StoreTask Response := do
  let response ← attempt (ofChat (Groups.Handlers.handle userId req).run)
  return ⟨response.status, .group response.body⟩

/-- A request of an authenticated user. -/
def handle (userId : Uuid) : ChatReq → StoreTask Response
  | .group req => handleGroup userId req
  | .rotateGroupKey chatId keys => rotateGroupKey userId chatId keys
  | .createPrivateChat participantId => createPrivateChat userId participantId
  | .sendMessage chatId message => sendMessage userId chatId message
  | .markMessagesRead chatId upTo => markMessagesRead userId chatId upTo
  | .addReaction chatId messageId reaction => addReaction userId chatId messageId reaction
  | .removeReaction chatId messageId emoji => removeReaction userId chatId messageId emoji
  | .updateChat chatId name description avatarUrl =>
    updateChat userId chatId name description avatarUrl
  | .editMessage chatId messageId contentEncrypted contentIv =>
    editMessage userId chatId messageId contentEncrypted contentIv
  | .deleteMessage chatId messageId => deleteMessage userId chatId messageId
  | .updateChatSettings chatId settings => updateChatSettings userId chatId settings

/-- The chat and group handlers of all users over one database. -/
def chatServer :
    System StoreCmd StoreCmd.Ans ChatStore StoreChoice (Uuid × ChatReq)
      (Except ApiError Response) where
  exec := ChatStore.exec
  tick := ChatStore.tick
  handler req := (handle req.1 req.2).run

end Mesty.Chats.Handlers
