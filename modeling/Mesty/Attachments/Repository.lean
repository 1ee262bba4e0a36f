import Mesty.Chats.Handlers

namespace Mesty.Attachments.Repository

open Mesty.Base.Ids Mesty.Base.Error Mesty.Chats.Entities Mesty.Chats.Repository
open Mesty.Chats.Messages Mesty.Chats.Store

/-- A row of `message_attachments` as the two-step upload writes it. -/
structure AttachmentRow where
  messageId : Option Uuid
  uploaderId : Option Uuid
  chatId : Option Uuid
  objectKey : String
  fileUrl : String
  fileType : String
  fileSize : Int
  fileName : Option String
  encryptionKeyEnc : Option String
  encryptionIv : Option String
  confirmed : Bool
  confirmedAt : Option Timestamp
  createdAt : Timestamp
  deriving DecidableEq

structure PendingAttachment where
  id : Uuid
  uploaderId : Uuid
  chatId : Option Uuid
  objectKey : String
  fileUrl : String
  fileType : String
  fileSize : Int
  fileName : Option String
  confirmed : Bool
  createdAt : Timestamp
  deriving DecidableEq

structure NewPendingAttachment where
  attachmentId : Uuid
  uploaderId : Uuid
  chatId : Option Uuid
  objectKey : String
  fileUrl : String
  fileType : String
  fileSize : Int
  fileName : Option String
  deriving DecidableEq

structure ConfirmAttachmentInput where
  attachmentId : Uuid
  messageId : Uuid
  uploaderId : Uuid
  encryptionKeyEnc : Option String
  encryptionIv : Option String
  deriving DecidableEq

/-- The statements of the attachment methods, each atomic, those of the chat requests, and what
the handlers ask of the object store. `updatePending` is the UPDATE with its COMMIT, the only
write of its transaction. -/
inductive AttachmentCmd where
  | chat (c : StoreCmd)
  | newUuid
  | presignPutUrl (key contentType : String) (ttlSeconds : Nat)
  | insertPending (input : NewPendingAttachment)
  | selectPending (attachmentId uploaderId : Uuid)
  | headObject (key : String)
  | selectMessageChat (messageId : Uuid)
  | selectMembership (userId chatId : Uuid)
  | updatePending (input : ConfirmAttachmentInput) (chatId : Uuid)

abbrev AttachmentCmd.Ans : AttachmentCmd → Type
  | chat c => c.Ans
  | newUuid => Uuid
  | presignPutUrl .. => Except DomainError String
  | insertPending _ => Except DomainError PendingAttachment
  | selectPending .. => Option PendingAttachment
  | headObject _ => Except DomainError Unit
  | selectMessageChat _ => Option Uuid
  | selectMembership .. => Option ChatType
  | updatePending .. => Except DomainError Nat

structure AttachmentStore extends ChatStore where
  attachments : AList (fun _ : Uuid => AttachmentRow)

/-- `s3` is what the object store answers: a URL, or the text of an error. -/
structure AttachmentChoice extends StoreChoice where
  s3 : Except String String

namespace AttachmentStore

def empty (users : List Uuid) : AttachmentStore := ⟨.empty users, ∅⟩

variable (db : AttachmentStore)

def withAttachment (id : Uuid) (row : AttachmentRow) : AttachmentStore :=
  { db with attachments := db.attachments.insert id row }

def insertPending (now : Timestamp) (input : NewPendingAttachment) :
    Except DomainError PendingAttachment × AttachmentStore :=
  if input.attachmentId ∈ db.attachments then (.error (.fromSqlx .uniqueViolation), db)
  else if input.uploaderId ∉ db.users ∨ ∃ chatId ∈ input.chatId, chatId ∉ db.chats then
    (.error (.fromSqlx .foreignKeyViolation), db)
  else
    (.ok ⟨input.attachmentId, input.uploaderId, input.chatId, input.objectKey, input.fileUrl,
        input.fileType, input.fileSize, input.fileName, false, now⟩,
      db.withAttachment input.attachmentId ⟨none, some input.uploaderId, input.chatId,
        input.objectKey, input.fileUrl, input.fileType, input.fileSize, input.fileName, none, none,
        false, none, now⟩)

def selectPending (attachmentId uploaderId : Uuid) : Option PendingAttachment :=
  ((db.attachments.lookup attachmentId).filter (fun row =>
    row.uploaderId = some uploaderId ∧ row.confirmed = false)).map (fun row =>
      ⟨attachmentId, uploaderId, row.chatId, row.objectKey, row.fileUrl, row.fileType, row.fileSize,
        row.fileName, row.confirmed, row.createdAt⟩)

/-- A NULL in `uploader_id` or `chat_id` equals nothing. -/
def matchesPending (input : ConfirmAttachmentInput) (chatId : Uuid) (row : AttachmentRow) : Bool :=
  row.uploaderId = some input.uploaderId ∧ row.chatId = some chatId ∧ row.confirmed = false

def confirmedRow (now : Timestamp) (input : ConfirmAttachmentInput) (row : AttachmentRow) :
    AttachmentRow :=
  { row with
    messageId := some input.messageId
    encryptionKeyEnc := input.encryptionKeyEnc
    encryptionIv := input.encryptionIv
    confirmed := true
    confirmedAt := some now }

/-- It answers with the number of rows it has changed. -/
def updatePending (now : Timestamp) (input : ConfirmAttachmentInput) (chatId : Uuid) :
    Except DomainError Nat × AttachmentStore :=
  match (db.attachments.lookup input.attachmentId).filter (matchesPending input chatId) with
  | none => (.ok 0, db)
  | some row =>
    if input.messageId ∈ db.messages.map ChatMessage.id then
      (.ok 1, db.withAttachment input.attachmentId (confirmedRow now input row))
    else (.error (.fromSqlx .foreignKeyViolation), db)

def exec (ω : AttachmentChoice) : (c : AttachmentCmd) → AttachmentStore →
    Option (c.Ans × AttachmentStore)
  | .chat c, db => (ChatStore.exec ω.toStoreChoice c db.toChatStore).map (fun out =>
      (out.1, { db with toChatStore := out.2 }))
  | .newUuid, db => some (ω.uuid, db)
  | .presignPutUrl .., db => some (ω.s3.mapError DomainError.internal, db)
  | .insertPending input, db => some (db.insertPending ω.now input)
  | .selectPending attachmentId uploaderId, db => some (db.selectPending attachmentId uploaderId, db)
  | .headObject _, db => some (ω.s3.map (fun _ => ()) |>.mapError DomainError.internal, db)
  | .selectMessageChat messageId, db =>
    some (((db.findMessage messageId).filter (fun m => m.deletedAt = none)).map ChatMessage.chatId, db)
  | .selectMembership userId chatId, db =>
    some ((db.memberOfLiveChat userId chatId).map ChatRow.chatType, db)
  | .updatePending input chatId, db => some (db.updatePending ω.now input chatId)

def tick (ω : AttachmentChoice) (db : AttachmentStore) : Option AttachmentStore :=
  (ChatStore.tick ω.toStoreChoice db.toChatStore).map (fun chats => { db with toChatStore := chats })

end AttachmentStore

end Mesty.Attachments.Repository
