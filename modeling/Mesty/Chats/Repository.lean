import Mathlib.Data.List.AList
import Mesty.Base.Error
import Mesty.Chats.Entities
import Mesty.Concurrency.Program

namespace Mesty.Chats.Repository

open Mesty.Base.Ids Mesty.Base.Error Mesty.Concurrency.Program Mesty.Chats.Entities

/-- A JSON payload of a published event. Its fields hold strings. -/
structure Payload where
  type : String
  chatId : Option Uuid
  payload : List (String × String)
  deriving DecidableEq

/-- The statements and committed transactions of the chat repository that group
requests use, each atomic, and the publishing of an event. -/
inductive ChatCmd where
  | createGroupChat (creatorId : Uuid) (name : String) (participantIds : List Uuid)
  | getChatForUser (userId chatId : Uuid)
  | getParticipantRole (userId chatId : Uuid)
  | selectChatType (chatId : Uuid)
  | isActiveMember (chatId userId : Uuid)
  | upsertParticipant (chatId userId : Uuid) (encryptionKeyEnc : Option String) (addedBy : Uuid)
  | rejoin (chatId userId : Uuid)
  | leaveActive (chatId userId : Uuid)
  | leave (chatId userId : Uuid)
  | setRole (chatId userId : Uuid) (role : ParticipantRole)
  | transferRoles (chatId currentOwnerId newOwnerId : Uuid)
  | selectTypeForParticipant (userId chatId : Uuid)
  | isOwner (chatId userId : Uuid)
  | markDeleted (chatId : Uuid)
  | randomSlug
  | setInviteLink (chatId : Uuid) (slug : String)
  | findChatBySlug (slug : String)
  | publish (channel : String) (payload : Payload)

abbrev ChatCmd.Ans : ChatCmd → Type
  | createGroupChat .. => Except DomainError Uuid
  | getChatForUser .. | findChatBySlug _ => Option Chat
  | getParticipantRole .. => Option ParticipantRole
  | selectChatType _ | selectTypeForParticipant .. => Option ChatType
  | isActiveMember .. | isOwner .. => Bool
  | upsertParticipant .. | rejoin .. | setRole .. => Except DomainError ParticipantDetail
  | setInviteLink .. => Except DomainError Unit
  | randomSlug => String
  | leaveActive .. | leave .. | transferRoles .. | markDeleted _ | publish .. => Unit

/-- The task of a request: it may end with an error at each `?`. -/
abbrev ChatTask := ExceptT DomainError (Prog ChatCmd ChatCmd.Ans)

def ChatTask.query (c : ChatCmd) : ChatTask c.Ans := ExceptT.lift (Prog.cmd c)

/-- A command whose answer is a `Result`. -/
def ChatTask.attempt {α : Type} (p : Prog ChatCmd ChatCmd.Ans (Except DomainError α)) : ChatTask α :=
  ExceptT.mk p

structure ChatsDb where
  users : List Uuid
  chats : AList (fun _ : Uuid => ChatRow)
  /-- Keyed by chat and user, as the UNIQUE constraint allows. -/
  participants : AList (fun _ : Uuid × Uuid => ParticipantRow)
  published : List (String × Payload)

structure Choice where
  uuid : Uuid
  now : Timestamp
  slug : String

namespace ChatsDb

def empty (users : List Uuid) : ChatsDb := ⟨users, ∅, ∅, []⟩

def participant (db : ChatsDb) (chatId userId : Uuid) : Option ParticipantRow :=
  db.participants.lookup (chatId, userId)

def setParticipant (db : ChatsDb) (chatId userId : Uuid) (row : ParticipantRow) : ChatsDb :=
  { db with participants := db.participants.insert (chatId, userId) row }

/-- An UPDATE of one row of `chat_participants`, if it is there. -/
def updateParticipant (db : ChatsDb) (chatId userId : Uuid) (f : ParticipantRow → ParticipantRow) :
    ChatsDb :=
  match db.participant chatId userId with
  | none => db
  | some row => db.setParticipant chatId userId (f row)

def updateChat (db : ChatsDb) (chatId : Uuid) (f : ChatRow → ChatRow) : ChatsDb :=
  match db.chats.lookup chatId with
  | none => db
  | some row => { db with chats := db.chats.insert chatId (f row) }

def activeRow (db : ChatsDb) (chatId userId : Uuid) : Option ParticipantRow :=
  (db.participant chatId userId).filter (fun row => row.leftAt.isNone)

def liveChat (db : ChatsDb) (chatId : Uuid) : Option ChatRow :=
  (db.chats.lookup chatId).filter (fun row => row.deletedAt.isNone)

/-- One row of the INSERT from UNNEST. -/
def insertMember (now : Timestamp) (chatId creatorId : Uuid) (db : ChatsDb) (userId : Uuid) :
    ChatsDb :=
  if userId = creatorId ∨ (db.participant chatId userId).isSome then db
  else db.setParticipant chatId userId ⟨.member, none, some creatorId, now, none⟩

/-- The transaction of `create_group_chat`. A failing statement rolls it back. -/
def createGroupChat (db : ChatsDb) (ω : Choice) (creatorId : Uuid) (name : String)
    (participantIds : List Uuid) : Option (Except DomainError Uuid × ChatsDb) :=
  if ω.uuid ∈ db.chats then none
  else if name = "" then some (.error (.fromSqlx .checkViolation), db)
  else if creatorId ∉ db.users ∨ ∃ userId ∈ participantIds, userId ∉ db.users then
    some (.error (.fromSqlx .foreignKeyViolation), db)
  else
    let chat : ChatRow := ⟨.group, some name, none, none, some creatorId, none, ω.now, none⟩
    let db' := { db with chats := db.chats.insert ω.uuid chat }.setParticipant ω.uuid creatorId
      ⟨.owner, none, some creatorId, ω.now, none⟩
    some (.ok ω.uuid, participantIds.foldl (insertMember ω.now ω.uuid creatorId) db')

/-- The trigger that runs before each INSERT into `chat_participants`. -/
def privateChatFull (db : ChatsDb) (chatId : Uuid) : Bool :=
  ((db.chats.lookup chatId).any (fun row => row.chatType = .private)) &&
    2 ≤ db.participants.entries.countP (fun e => e.1.1 = chatId ∧ e.2.leftAt = none)

/-- INSERT … ON CONFLICT (chat_id, user_id) DO UPDATE … RETURNING. -/
def upsertRow (db : ChatsDb) (chatId userId : Uuid) (fresh : ParticipantRow)
    (onConflict : ParticipantRow → ParticipantRow) :
    Except DomainError ParticipantDetail × ChatsDb :=
  if db.privateChatFull chatId then (.error (.fromSqlx .checkViolation), db)
  else if chatId ∉ db.chats ∨ userId ∉ db.users ∨ ∃ a ∈ fresh.addedBy, a ∉ db.users then
    (.error (.fromSqlx .foreignKeyViolation), db)
  else
    let row := (db.participant chatId userId).elim fresh onConflict
    (.ok (row.toDetail chatId userId), db.setParticipant chatId userId row)

def setRole (db : ChatsDb) (chatId userId : Uuid) (role : ParticipantRole) :
    Except DomainError ParticipantDetail × ChatsDb :=
  match db.activeRow chatId userId with
  | none => (.error (.fromSqlx .rowNotFound), db)
  | some row =>
    let row' := { row with role := role }
    (.ok (row'.toDetail chatId userId), db.setParticipant chatId userId row')

/-- The transaction of `transfer_ownership`: neither UPDATE looks at the row it changes. -/
def transferRoles (db : ChatsDb) (chatId currentOwnerId newOwnerId : Uuid) : ChatsDb :=
  (db.updateParticipant chatId currentOwnerId (fun row => { row with role := .admin }))
    |>.updateParticipant chatId newOwnerId (fun row => { row with role := .owner })

def setInviteLink (db : ChatsDb) (chatId : Uuid) (slug : String) :
    Except DomainError Unit × ChatsDb :=
  match db.chats.lookup chatId with
  | none => (.ok (), db)
  | some row =>
    if row.chatType = .private then (.error (.fromSqlx .checkViolation), db)
    else if db.chats.entries.any (fun e => e.1 ≠ chatId ∧ e.2.inviteLink = some slug) then
      (.error (.fromSqlx .uniqueViolation), db)
    else (.ok (), db.updateChat chatId (fun row => { row with inviteLink := some slug }))

/-- Twelve samples of `Alphanumeric`. -/
def isSlugSample (s : String) : Bool := s.length = 12 ∧ s.toList.all Char.isAlphanum

def findChatBySlug (db : ChatsDb) (slug : String) : Option Chat :=
  (db.chats.entries.find? (fun e => e.2.inviteLink = some slug ∧ e.2.deletedAt = none)).map
    (fun e => e.2.toChat e.1)

def exec (ω : Choice) : (c : ChatCmd) → ChatsDb → Option (c.Ans × ChatsDb)
  | .createGroupChat creatorId name participantIds, db =>
    db.createGroupChat ω creatorId name participantIds
  | .getChatForUser userId chatId, db =>
    some ((db.liveChat chatId).bind (fun row =>
      (db.activeRow chatId userId).map (fun _ => row.toChat chatId)), db)
  | .getParticipantRole userId chatId, db =>
    some ((db.activeRow chatId userId).map ParticipantRow.role, db)
  | .selectChatType chatId, db => some ((db.liveChat chatId).map ChatRow.chatType, db)
  | .isActiveMember chatId userId, db => some ((db.activeRow chatId userId).isSome, db)
  | .upsertParticipant chatId userId encryptionKeyEnc addedBy, db =>
    some (db.upsertRow chatId userId ⟨.member, encryptionKeyEnc, some addedBy, ω.now, none⟩
      (fun _ => ⟨.member, encryptionKeyEnc, some addedBy, ω.now, none⟩))
  | .rejoin chatId userId, db =>
    some (db.upsertRow chatId userId ⟨.member, none, none, ω.now, none⟩
      (fun row => { row with leftAt := none, role := .member, joinedAt := ω.now }))
  | .leaveActive chatId userId, db =>
    some ((), db.updateParticipant chatId userId (fun row =>
      { row with leftAt := row.leftAt.or (some ω.now) }))
  | .leave chatId userId, db =>
    some ((), db.updateParticipant chatId userId (fun row => { row with leftAt := some ω.now }))
  | .setRole chatId userId role, db => some (db.setRole chatId userId role)
  | .transferRoles chatId currentOwnerId newOwnerId, db =>
    some ((), db.transferRoles chatId currentOwnerId newOwnerId)
  | .selectTypeForParticipant userId chatId, db =>
    some ((db.liveChat chatId).bind (fun row =>
      (db.activeRow chatId userId).map (fun _ => row.chatType)), db)
  | .isOwner chatId userId, db =>
    some ((db.participant chatId userId).any (fun row => row.role = .owner), db)
  | .markDeleted chatId, db =>
    some ((), db.updateChat chatId (fun row => { row with deletedAt := some ω.now }))
  | .randomSlug, db => if isSlugSample ω.slug then some (ω.slug, db) else none
  | .setInviteLink chatId slug, db => some (db.setInviteLink chatId slug)
  | .findChatBySlug slug, db => some (db.findChatBySlug slug, db)
  | .publish channel payload, db =>
    some ((), { db with published := db.published ++ [(channel, payload)] })

end ChatsDb

end Mesty.Chats.Repository
