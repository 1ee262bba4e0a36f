import Mesty.Chats.Repository

namespace Mesty.Chats.Participants

open Mesty.Base.Ids Mesty.Base.Error Mesty.Concurrency.Program
open Mesty.Chats.Entities Mesty.Chats.Repository ChatTask

/-- `ok_or_else(…)?` -/
def okOr {α : Type} (o : Option α) (e : DomainError) : ChatTask α :=
  match o with
  | none => throw e
  | some a => pure a

/-- The role of an active member, or the error. -/
def requireRole (userId chatId : Uuid) (e : DomainError) : ChatTask ParticipantRole := do
  okOr (← query (.getParticipantRole userId chatId)) e

def notAMember : DomainError := .unauthorized "not a member of this chat"

def createGroupChat (creatorId : Uuid) (name : String) (participantIds : List Uuid) :
    ChatTask Chat := do
  let chatId ← attempt (Prog.cmd (ChatCmd.createGroupChat creatorId name participantIds))
  okOr (← query (.getChatForUser creatorId chatId)) (.notFound "chat not found")

def addParticipant (chatId actorId userId : Uuid) (encryptionKeyEnc : Option String) :
    ChatTask ParticipantDetail := do
  let actorRole ← requireRole actorId chatId notAMember
  if actorRole < .admin then
    throw (.unauthorized "only admins and owners can add participants")
  else
    let chatType ← okOr (← query (.selectChatType chatId)) (.notFound "chat not found")
    if chatType = .private then
      throw (.validation "cannot add participants to a private chat")
    else if ← query (.isActiveMember chatId userId) then
      throw (.validation "user is already a member")
    else
      attempt (Prog.cmd (ChatCmd.upsertParticipant chatId userId encryptionKeyEnc actorId))

def removeParticipant (chatId actorId targetId : Uuid) : ChatTask Bool := do
  let actorRole ← requireRole actorId chatId notAMember
  let targetRole ← requireRole targetId chatId (.notFound "target user is not a member")
  if actorId = targetId ∧ actorRole = .owner then
    throw (.validation "owner must transfer ownership before leaving")
  else if actorId ≠ targetId ∧ actorRole ≤ targetRole then
    throw (.unauthorized "insufficient role to remove this participant")
  else
    query (.leaveActive chatId targetId)
    return true

def updateParticipantRole (chatId actorId targetId : Uuid) (newRole : ParticipantRole) :
    ChatTask ParticipantDetail := do
  let actorRole ← requireRole actorId chatId notAMember
  let targetRole ← requireRole targetId chatId (.notFound "target user is not a member")
  if actorRole ≤ targetRole ∨ actorRole ≤ newRole then
    throw (.unauthorized "insufficient role to change this participant's role")
  else
    attempt (Prog.cmd (ChatCmd.setRole chatId targetId newRole))

/-- `slug` of the source is always empty or absent, so a fresh one is stored. -/
def setInviteLink (chatId actorId : Uuid) (slug : Option String) : ChatTask (Option String) := do
  let actorRole ← requireRole actorId chatId notAMember
  if actorRole < .admin then
    throw (.unauthorized "only admins and owners can manage invite links")
  else
    let newSlug ← match slug with
      | some "" | none => do pure (← query .randomSlug).toLower
      | some s => pure s
    attempt (Prog.cmd (ChatCmd.setInviteLink chatId newSlug))
    return some newSlug

def joinByInvite (chatId userId : Uuid) : ChatTask ParticipantDetail := do
  if ← query (.isActiveMember chatId userId) then
    throw (.validation "already a member of this chat")
  else
    attempt (Prog.cmd (ChatCmd.rejoin chatId userId))

def transferOwnership (chatId currentOwnerId newOwnerId : Uuid) : ChatTask Unit := do
  let ownerRole ← requireRole currentOwnerId chatId notAMember
  if ownerRole ≠ .owner then
    throw (.unauthorized "only the owner can transfer ownership")
  else
    let _ ← requireRole newOwnerId chatId (.notFound "new owner is not a member of this chat")
    query (.transferRoles chatId currentOwnerId newOwnerId)

def deleteChat (userId chatId : Uuid) : ChatTask Unit := do
  let chatType ← okOr (← query (.selectTypeForParticipant userId chatId))
    (.notFound "chat not found or not a participant")
  if chatType = .private then
    query (.leave chatId userId)
  else if ← query (.isOwner chatId userId) then
    query (.markDeleted chatId)
  else
    query (.leave chatId userId)

end Mesty.Chats.Participants
