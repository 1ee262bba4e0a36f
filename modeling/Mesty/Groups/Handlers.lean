import Mesty.Base.Text
import Mesty.Chats.Participants
import Mesty.Concurrency.Pool

namespace Mesty.Groups.Handlers

open Mesty.Base.Ids Mesty.Base.Error Mesty.Base.Text Mesty.Concurrency.Program
open Mesty.Concurrency.Pool Mesty.Chats Mesty.Chats.Entities Mesty.Chats.Repository Mesty.Chats.Participants ChatTask

structure ParticipantDetailResponse where
  userId : Uuid
  chatId : Uuid
  role : String
  encryptionKeyEnc : Option String
  addedBy : Option Uuid
  joinedAt : Timestamp
  deriving DecidableEq

def participantToResponse (p : ParticipantDetail) : ParticipantDetailResponse :=
  ⟨p.userId, p.chatId, p.role.asDbStr, p.encryptionKeyEnc, p.addedBy, p.joinedAt⟩

structure ChatResponse where
  id : Uuid
  chatType : String
  name : Option String
  avatarUrl : Option String
  createdBy : Option Uuid
  createdAt : Timestamp
  deriving DecidableEq

def chatToResponse (chat : Chat) : ChatResponse :=
  ⟨chat.id, chat.chatType.asDbStr, chat.name, chat.avatarUrl, chat.createdBy, chat.createdAt⟩

inductive Body where
  | chat (chat : ChatResponse)
  | added (participant : ParticipantDetailResponse) (keyRotationRequired : Bool)
  | removed (removed keyRotationRequired : Bool)
  | role (participant : ParticipantDetailResponse)
  | inviteLink (inviteLink : String)
  | joined (participant : ParticipantDetailResponse) (keyRotationRequired : Bool)
  | transferred (transferred : Bool)
  | deleted (deleted : Bool)
  deriving DecidableEq

structure Response where
  status : Nat
  body : Body
  deriving DecidableEq

def publishGroupEvent (chatId : Uuid) (eventType : String) (extra : List (String × String)) :
    ChatTask Unit :=
  query (.publish ("chat:" ++ chatId.toString ++ ":events") ⟨eventType, some chatId, extra⟩)

def createGroup (userId : Uuid) (name : String) (participantIds : List Uuid) :
    ChatTask Response := do
  if trim name = "" then
    throw (.validation "group name cannot be empty")
  else
    let chat ← createGroupChat userId (trim name) participantIds
    return ⟨201, .chat (chatToResponse chat)⟩

def addParticipant (userId chatId newUserId : Uuid) (encryptionKeyEnc : Option String) :
    ChatTask Response := do
  if newUserId = userId then
    throw (.validation "cannot add yourself as a participant")
  else
    let participant ← Participants.addParticipant chatId userId newUserId encryptionKeyEnc
    publishGroupEvent chatId "participant_added" [("user_id", participant.userId.toString)]
    query (.publish ("user:" ++ participant.userId.toString ++ ":events")
      ⟨"added_to_group", none, [("chat_id", chatId.toString)]⟩)
    return ⟨201, .added (participantToResponse participant) encryptionKeyEnc.isNone⟩

def removeParticipant (userId chatId targetId : Uuid) : ChatTask Response := do
  let keyRotationRequired ← Participants.removeParticipant chatId userId targetId
  publishGroupEvent chatId "participant_removed" [("user_id", targetId.toString)]
  if keyRotationRequired then
    publishGroupEvent chatId "key_rotation_required" [("chat_id", chatId.toString)]
  return ⟨200, .removed true keyRotationRequired⟩

def updateParticipantRole (userId chatId targetId : Uuid) (role : String) :
    ChatTask Response := do
  let newRole ← okOr (ParticipantRole.fromDbStr role)
    (.validation ("invalid role '" ++ role ++ "'. Must be one of: member, moderator, admin"))
  if newRole = .owner then
    throw (.validation
      "cannot promote to owner via this endpoint. Use POST /chats/:id/transfer-ownership")
  else
    let participant ← Participants.updateParticipantRole chatId userId targetId newRole
    publishGroupEvent chatId "participant_role_updated"
      [("user_id", targetId.toString), ("role", newRole.asDbStr)]
    return ⟨200, .role (participantToResponse participant)⟩

def createInviteLink (userId chatId : Uuid) : ChatTask Response := do
  let slug ← okOr (← setInviteLink chatId userId none)
    (.internal "failed to generate invite link")
  return ⟨200, .inviteLink slug⟩

def deleteInviteLink (userId chatId : Uuid) : ChatTask Response := do
  let _ ← setInviteLink chatId userId (some "")
  return ⟨200, .deleted true⟩

def joinBySlug (userId : Uuid) (slug : String) : ChatTask Response := do
  let chat ← okOr (← query (.findChatBySlug slug))
    (.notFound "invite link not found or expired")
  let participant ← joinByInvite chat.id userId
  publishGroupEvent chat.id "participant_added" [("user_id", participant.userId.toString)]
  return ⟨201, .joined (participantToResponse participant) true⟩

def transferOwnership (userId chatId newOwnerId : Uuid) : ChatTask Response := do
  if newOwnerId = userId then
    throw (.validation "new owner must be a different user")
  else
    Participants.transferOwnership chatId userId newOwnerId
    publishGroupEvent chatId "ownership_transferred"
      [("previous_owner_id", userId.toString), ("new_owner_id", newOwnerId.toString)]
    return ⟨200, .transferred true⟩

def deleteChat (userId chatId : Uuid) : ChatTask Response := do
  Participants.deleteChat userId chatId
  return ⟨200, .deleted true⟩

inductive GroupReq where
  | createGroup (name : String) (participantIds : List Uuid)
  | addParticipant (chatId userId : Uuid) (encryptionKeyEnc : Option String)
  | removeParticipant (chatId targetId : Uuid)
  | updateParticipantRole (chatId targetId : Uuid) (role : String)
  | createInviteLink (chatId : Uuid)
  | deleteInviteLink (chatId : Uuid)
  | joinBySlug (slug : String)
  | transferOwnership (chatId newOwnerId : Uuid)
  | deleteChat (chatId : Uuid)

/-- A request of an authenticated user. -/
def handle (userId : Uuid) : GroupReq → ChatTask Response
  | .createGroup name participantIds => createGroup userId name participantIds
  | .addParticipant chatId newUserId key => addParticipant userId chatId newUserId key
  | .removeParticipant chatId targetId => removeParticipant userId chatId targetId
  | .updateParticipantRole chatId targetId role => updateParticipantRole userId chatId targetId role
  | .createInviteLink chatId => createInviteLink userId chatId
  | .deleteInviteLink chatId => deleteInviteLink userId chatId
  | .joinBySlug slug => joinBySlug userId slug
  | .transferOwnership chatId newOwnerId => transferOwnership userId chatId newOwnerId
  | .deleteChat chatId => deleteChat userId chatId

/-- The group handlers of all users over one database. -/
def groupServer :
    System ChatCmd ChatCmd.Ans ChatsDb Choice (Uuid × GroupReq) (Except ApiError Response) where
  exec := ChatsDb.exec
  tick _ _ := none
  handler req := (handle req.1 req.2).run

end Mesty.Groups.Handlers
