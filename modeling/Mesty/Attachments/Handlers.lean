import Mesty.Attachments.Repository
import Mesty.Base.Text

namespace Mesty.Attachments.Handlers

open Mesty.Base.Ids Mesty.Base.Error Mesty.Base.Text
open Mesty.Concurrency.Program Mesty.Concurrency.Pool
open Mesty.Chats.Entities Mesty.Chats.Repository Mesty.Chats.Store
open Mesty.Chats.Handlers (ChatReq)
open Mesty.Attachments.Repository

/-- The task of a request: it may end with an error at each `?`. -/
abbrev AttachmentTask := ExceptT DomainError (Prog AttachmentCmd AttachmentCmd.Ans)

namespace AttachmentTask

variable {α : Type}

def ask (c : AttachmentCmd) : AttachmentTask c.Ans := ExceptT.lift (Prog.cmd c)

/-- A command whose answer is a `Result`. -/
def attempt (p : Prog AttachmentCmd AttachmentCmd.Ans (Except DomainError α)) : AttachmentTask α :=
  ExceptT.mk p

def okOr (o : Option α) (e : DomainError) : AttachmentTask α :=
  match o with
  | none => throw e
  | some a => pure a

/-- The statements of a chat request. -/
def ofStore : Prog StoreCmd StoreCmd.Ans α → Prog AttachmentCmd AttachmentCmd.Ans α
  | .ret a => .ret a
  | .call c k => .call (.chat c) (fun r => ofStore (k r))

end AttachmentTask

open AttachmentTask

structure S3StorageService where
  bucket : String
  endpoint : String

/-- `endpoint.trim_end_matches('/')` -/
def trimEndSlashes (endpoint : String) : String :=
  String.ofList (endpoint.toList.reverse.dropWhile (· = '/')).reverse

def S3StorageService.bucketObjectUrl (storage : S3StorageService) (key : String) : String :=
  trimEndSlashes storage.endpoint ++ "/" ++ storage.bucket ++ "/" ++ key

structure CreateUploadUrlRequest where
  fileType : String
  fileSize : Int
  chatId : Option Uuid
  fileName : Option String
  deriving DecidableEq

structure CreateUploadUrlResponse where
  uploadUrl : String
  fileUrl : String
  attachmentId : Uuid
  expiresAt : Timestamp
  deriving DecidableEq

structure ConfirmAttachmentRequest where
  attachmentId : Uuid
  messageId : Uuid
  encryptionKeyEnc : Option String
  encryptionIv : Option String
  deriving DecidableEq

inductive Body where
  | chat (body : Chats.Handlers.Body)
  | uploadUrl (response : CreateUploadUrlResponse)
  | message (message : String)
  deriving DecidableEq

structure Response where
  status : Nat
  body : Body
  deriving DecidableEq

def sanitizeFileName (fileName : Option String) : String :=
  match (fileName.map trim).filter (fun name => name ≠ "") with
  | some name => String.ofList (name.toList.map (fun c =>
      if c.isAlphanum ∨ c = '.' ∨ c = '_' ∨ c = '-' then c else '_'))
  | none => "file.bin"

def imageTypes : List String := ["image/jpeg", "image/png", "image/webp", "image/gif"]

def videoTypes : List String := ["video/mp4", "video/quicktime", "video/webm"]

def audioTypes : List String := ["audio/mpeg", "audio/ogg", "audio/aac", "audio/wav"]

def maxSize (fileType : String) : Int :=
  if fileType ∈ imageTypes then 25 * 1024 * 1024
  else if fileType ∈ videoTypes then 100 * 1024 * 1024
  else if fileType ∈ audioTypes then 25 * 1024 * 1024
  else 100 * 1024 * 1024

def validateFileConstraints (fileType : String) (fileSize : Int) : Except ApiError Unit :=
  if fileSize ≤ 0 then .error (.validation "file_size must be positive")
  else if fileSize > maxSize fileType then
    .error (.validation ("file_size exceeds maximum allowed for mime type: " ++ fileType))
  else .ok ()

def chatObjectKey (chatId attachmentId : Uuid) (fileName : Option String) : String :=
  "attachments/chats/" ++ chatId.toString ++ "/" ++ attachmentId.toString ++ "/" ++
    sanitizeFileName fileName

def storyObjectKey (userId attachmentId : Uuid) : String :=
  "attachments/stories/" ++ userId.toString ++ "/" ++ attachmentId.toString

def ensureActiveMembershipPool (userId chatId : Uuid) : AttachmentTask Unit := do
  if ← ask (.chat (.verifyParticipant userId chatId)) then
    return ()
  else
    throw ChatStore.notAParticipant

/-- An attachment of a story has no chat. -/
def ensureUploaderIn (userId : Uuid) : Option Uuid → AttachmentTask Unit
  | some chatId => ensureActiveMembershipPool userId chatId
  | none => pure ()

def createPendingAttachment (input : NewPendingAttachment) : AttachmentTask PendingAttachment := do
  ensureUploaderIn input.uploaderId input.chatId
  attempt (Prog.cmd (AttachmentCmd.insertPending input))

def buildObjectKey (userId attachmentId : Uuid) (req : CreateUploadUrlRequest) :
    AttachmentTask String :=
  match req.chatId with
  | some chatId => do
    let _ ← okOr (← ask (.chat (.chat (.getChatForUser userId chatId)))) ChatStore.notAParticipant
    return chatObjectKey chatId attachmentId req.fileName
  | none => return storyObjectKey userId attachmentId

def createUploadUrl (storage : S3StorageService) (userId : Uuid) (req : CreateUploadUrlRequest) :
    AttachmentTask Response := do
  attempt (pure (validateFileConstraints req.fileType req.fileSize))
  let attachmentId ← ask .newUuid
  let objectKey ← buildObjectKey userId attachmentId req
  let uploadUrl ← attempt (Prog.cmd (AttachmentCmd.presignPutUrl objectKey req.fileType 300))
  let fileUrl := storage.bucketObjectUrl objectKey
  let _ ← createPendingAttachment ⟨attachmentId, userId, req.chatId, objectKey, fileUrl,
    req.fileType, req.fileSize, req.fileName⟩
  let now ← ask (.chat .utcNow)
  return ⟨200, .uploadUrl ⟨uploadUrl, fileUrl, attachmentId, now + 5 * 60 * 1000000⟩⟩

/-- The repository method: a transaction of two reads and one guarded write. -/
def confirmPending (input : ConfirmAttachmentInput) : AttachmentTask Unit := do
  let chatId ← okOr (← ask (.selectMessageChat input.messageId)) (.notFound "message not found")
  let _ ← okOr (← ask (.selectMembership input.uploaderId chatId)) ChatStore.notAParticipant
  let updated ← attempt (Prog.cmd (AttachmentCmd.updatePending input chatId))
  if updated = 0 then
    throw (.notFound "pending attachment not found for message")

def confirmAttachment (userId : Uuid) (req : ConfirmAttachmentRequest) : AttachmentTask Response := do
  let attachment ← okOr (← ask (.selectPending req.attachmentId userId))
    (.notFound "pending attachment not found")
  attempt (Prog.cmd (AttachmentCmd.headObject attachment.objectKey))
  confirmPending ⟨req.attachmentId, req.messageId, userId, req.encryptionKeyEnc, req.encryptionIv⟩
  return ⟨200, .message "attachment confirmed"⟩

inductive AttachmentReq where
  | chat (req : ChatReq)
  | createUploadUrl (req : CreateUploadUrlRequest)
  | confirmAttachment (req : ConfirmAttachmentRequest)

def handleChat (userId : Uuid) (req : ChatReq) : AttachmentTask Response := do
  let response ← attempt (ofStore (Chats.Handlers.handle userId req).run)
  return ⟨response.status, .chat response.body⟩

/-- A request of an authenticated user. -/
def handle (storage : S3StorageService) (userId : Uuid) : AttachmentReq → AttachmentTask Response
  | .chat req => handleChat userId req
  | .createUploadUrl req => createUploadUrl storage userId req
  | .confirmAttachment req => confirmAttachment userId req

/-- The attachment and chat handlers of all users over one database. -/
def attachmentServer (storage : S3StorageService) :
    System AttachmentCmd AttachmentCmd.Ans AttachmentStore AttachmentChoice (Uuid × AttachmentReq)
      (Except ApiError Response) where
  exec := AttachmentStore.exec
  tick := AttachmentStore.tick
  handler req := (handle storage req.1 req.2).run

end Mesty.Attachments.Handlers
